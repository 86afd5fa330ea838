import UefiDebugger.CommandFrames
import UefiDebugger.RequestBounds
import UefiDebugger.PacketDecoding
import UefiDebugger.RequestText
import UefiDebugger.FlatMachine
import UefiDebugger.CommandRuns
import UefiDebugger.MemoryWriteRejection
import UefiDebugger.MemoryReadReply
import UefiDebugger.BreakpointTable
import UefiDebugger.MemoryWriteEffect
import UefiDebugger.CommandSession
import UefiDebugger.ShadowedWrites
import UefiDebugger.BreakpointFailure
import UefiDebugger.StopLoop
import UefiDebugger.NestedStops
import UefiDebugger.ResumedStop
import UefiDebugger.ResumeRequest
import UefiDebugger.StopReasons
import UefiDebugger.TableWalk
import UefiDebugger.X64PageWalk
import UefiDebugger.X64Translation
import UefiDebugger.AArch64PageWalk
import UefiDebugger.AArch64Translation
import UefiDebugger.CommandOutcome
import UefiDebugger.PacketSize
import UefiDebugger.PacketReplies
import UefiDebugger.Interruptions
import UefiDebugger.Resends
import UefiDebugger.SelfDelimiting
import UefiDebugger.WireFormat
import UefiDebugger.WatchpointRequests
import UefiDebugger.AccessMemory
import UefiDebugger.RefusedPackets
import UefiDebugger.Assertions
import UefiDebugger.ProperRequests
import UefiDebugger.PageTransfer
import UefiDebugger.PageAttributes
import UefiDebugger.PeiAccess
import UefiDebugger.ModuleLoadBreak
import UefiDebugger.ExceptionHooks
import UefiDebugger.ExceptionHandler
import UefiDebugger.BreakpointResume
import UefiDebugger.MemoryRoundTrip
import UefiDebugger.WindbgPages
import UefiDebugger.AssertionRuns
import UefiDebugger.SingleStep
import UefiDebugger.PackedFields
import UefiDebugger.RegisterFields
import UefiDebugger.RegisterOutcomes
import UefiDebugger.RegisterBlocks
import UefiDebugger.RegisterRefusals
import UefiDebugger.RegisterLenses
import UefiDebugger.ResumeGrammar
import UefiDebugger.WatchCoverage
import UefiDebugger.RegisterDescription
import UefiDebugger.ModuleNames
import UefiDebugger.ConsoleHex
import UefiDebugger.StopRefinement
import UefiDebugger.DamagedPackets
import UefiDebugger.FaultFreeAccess
import UefiDebugger.PageProtection
import UefiDebugger.DebuggerControl
import UefiDebugger.DxeAgent
import UefiDebugger.AgentSettings
import UefiDebugger.LibraryAgents
import UefiDebugger.BreakIn
import UefiDebugger.BreakReasons
import UefiDebugger.RecordChain
import UefiDebugger.DevicePaths
import UefiDebugger.DevicePathLayout
import UefiDebugger.HobList
