import UefiDebugger.GdbResponse

/-!
# The query and monitor commands

`ProcessQuery`, `ProcessMonitorCmd` and the target description of `GdbStub.c`.  `AsciiSPrint`
formats with the platform's base library and cuts the text to the buffer.
-/
namespace UefiDebugger
open HexText ByteString StateEffect

variable {σ : Type}

/-! ## Printing -/

/-- `AsciiSPrint (&mScratch[0], SCRATCH_SIZE, …)` of a text. -/
def printScratch (Text : List UInt8) : StubM σ Unit :=
  modify fun s => { s with mScratch := s.mScratch.writeAll 0 (Text.take (scratchSize - 1) ++ [0]) }

/-- A text stored in `mResponse` at `End`. -/
def printResponse : (End : Nat) → List UInt8 → StubM σ Unit
  | _, [] => pure ()
  | End, c :: cs => do
      writeResponse End c
      printResponse (End + 1) cs

/-- `AsciiSPrint` into `mResponse` at `End` with room for `Remaining` bytes: the number of
characters written. -/
def asciiSPrintResponse (P : Platform σ) (End Remaining : Nat) (Format : String)
    (args : List PrintArg) : StubM σ Nat :=
  if Remaining = 0 then pure 0
  else do
    let Text := (P.baseLib.asciiSPrint (text Format) args).take (Remaining - 1)
    printResponse End (Text ++ [0])
    pure Text.length

/-! ## Monitor commands -/

/-- `EXCEPTION_TYPE_STRINGS`. -/
def exceptionTypeString : ExceptionType → String
  | .debugStep => "ExceptionDebugStep"
  | .breakpoint => "ExceptionBreakpoint"
  | .genericFault => "ExceptionGenericFault"
  | .invalidOp => "ExceptionInvalidOp"
  | .alignment => "ExceptionAlignment"
  | .accessViolation => "ExceptionAccessViolation"

/-- The number of an exception type in its enumeration. -/
def exceptionTypeNumber : ExceptionType → Nat
  | .debugStep => 0
  | .breakpoint => 1
  | .genericFault => 2
  | .invalidOp => 3
  | .alignment => 4
  | .accessViolation => 5

/-- `BREAK_REASON_STRINGS`. -/
def breakReasonString : BreakpointReason → String
  | .none => "N/A"
  | .initial => "Initial Breakpoint"
  | .moduleLoad => "Module Load"
  | .debuggerBreak => "Debugger Break"

/-- The loop of `ProcessMonitorCmd`: the bytes of `n` digit pairs at `CommandHex`. -/
def decodeMonitorCommand : (n CommandHex : Nat) → StubM σ (List UInt8)
  | 0, _ => pure []
  | n + 1, CommandHex => do
      let Byte ← hexToByte CommandHex
      let Command ← decodeMonitorCommand n (CommandHex + 2)
      pure (Byte :: Command)

/-- The size of the local `Command` of `ProcessMonitorCmd`. -/
def monitorCommandSize : Nat := 128

/-- Print a formatted text into the scratch buffer. -/
def asciiSPrintScratch (P : Platform σ) (Format : String) (args : List PrintArg) : StubM σ Unit :=
  printScratch (P.baseLib.asciiSPrint (text Format) args)

/-- The `switch` of `ProcessMonitorCmd` on the decoded command, a C string. -/
def monitorSwitch (P : Platform σ) (Command : List UInt8) : StubM σ Unit := do
  let s ← get
  let info := s.exceptionInfos s.gExceptionInfo
  let Argument := Command.tail
  if Command.head? = some (char '?') then
    asciiSPrintScratch P
      "%a\n\rException Type: %a (%d)\n\rException Address: %llx\n\rArchitecture Exception Code: 0x%llx\n\rBreak Reason: %a\n\r"
      [.text P.gDebuggerInfo, .text (text (exceptionTypeString info.exceptionType)),
        .number (exceptionTypeNumber info.exceptionType), .number info.exceptionAddress,
        .number info.archExceptionCode,
        .text (text (breakReasonString s.debuggerBreakpointReason))]
  else if Command.head? = some (char 'i') then do
    let Text ← modifyGet fun s : Stub σ =>
      ((P.gdbDumpSystemRegisters Argument s.target).1,
        { s with target := (P.gdbDumpSystemRegisters Argument s.target).2 })
    printScratch Text
  else if Command.head? = some (char 'v') then asciiSPrintScratch P "TODO\n\r" []
  else if Command.head? = some (char 'V') then asciiSPrintScratch P "TODO\n\r" []
  else if Command.head? = some (char 'm') then do
    let Text ← modifyGet fun s : Stub σ =>
      ((P.gdbReadMsr Argument s.target).1, { s with target := (P.gdbReadMsr Argument s.target).2 })
    printScratch Text
  else if Command.head? = some (char 'M') then asciiSPrintScratch P "TODO\n\r" []
  else if Command.head? = some (char 'R') then do
    modify fun s => { s with mRebootOnContinue := true }
    asciiSPrintScratch P "Will reboot on continue.\n\r" []
  else if Command.head? = some (char 'b') then do
    let ok ← modifyGet fun s : Stub σ =>
      ((P.dbgSetBreakOnModuleLoad Argument s.target).1,
        { s with target := (P.dbgSetBreakOnModuleLoad Argument s.target).2 })
    if ok = true then asciiSPrintScratch P "Will break on load for %a\n\r" [.text Argument]
    else asciiSPrintScratch P "FAILED to set break on load for %a\n\r" [.text Argument]
  else asciiSPrintScratch P "Unknown command '%a'\n\r" [.text Command]

/-- `ProcessMonitorCmd`. -/
def processMonitorCmd (P : Platform σ) (CommandHex : Nat) : StubM σ Unit := do
  let CommandLen ← asciiStrLen CommandHex
  if CommandLen % 2 ≠ 0 ∨ monitorCommandSize ≤ CommandLen / 2 then sendGdbError gdbErrorBadRequest
  else do
    let Command ← decodeMonitorCommand (CommandLen / 2) CommandHex
    writeScratch 0 0
    monitorSwitch P (Command.takeWhile (· ≠ 0))
    writeResponse 0 (char 'O')
    convertResponseToHex 1 (maxResponseSize - 1)
    sendGdbResponse .mResponse
    sendGdbResponse (.text (text "OK"))

/-! ## The target description -/

/-- `ReadTargetDescription`. -/
def readTargetDescription (P : Platform σ) : StubM σ Unit := do
  let _ ← asciiSPrintResponse P 0 maxResponseSize
    "l<?xml version=\"1.0\"?><!DOCTYPE target SYSTEM \"gdb-target.dtd\"><target><architecture>%a</architecture><xi:include href=\"registers.xml\"/></target>"
    [.text P.gdbTargetInfo.targetArch]
  sendGdbResponse .mResponse

/-- The loop of `ReadTargetRegisters` over the registers from `RegNumber` on: the advanced `End` and
`Remaining`. -/
def printRegisters (P : Platform σ) :
    List RegisterOffsetData → (RegNumber End Remaining : Nat) → StubM σ (Nat × Nat)
  | [], _, End, Remaining => pure (End, Remaining)
  | Register :: rest, RegNumber, End, Remaining =>
      match Register.name with
      | none => printRegisters P rest (RegNumber + 1) End Remaining
      | some Name => do
          let Written ← asciiSPrintResponse P End Remaining
            "<reg name=\"%a\" bitsize=\"%d\" type=\"%a\" regnum=\"%d\"/>"
            [.text Name, .number (Register.size * 8), .text Register.type, .number RegNumber]
          printRegisters P rest (RegNumber + 1) (End + Written) (Remaining - Written)

/-- `ReadTargetRegisters`. -/
def readTargetRegisters (P : Platform σ) : StubM σ Unit := do
  let Written ← asciiSPrintResponse P 0 maxResponseSize
    "l<?xml version=\"1.0\"?><!DOCTYPE target SYSTEM \"gdb-target.dtd\"><feature name=\"%a\">"
    [.text P.gdbTargetInfo.registersFeature]
  let (End, Remaining) ←
    printRegisters P P.gRegisterOffsets 0 Written (maxResponseSize - Written)
  let Written ← asciiSPrintResponse P End Remaining "</feature>" []
  if Remaining - Written = 0 then sendGdbError gdbErrorResponseTooLong
  else sendGdbResponse .mResponse

/-! ## Queries -/

/-- The reply to `qSupported`. -/
def supportedReply : List UInt8 := text "PacketSize=1000;qXfer:features:read+;vContSupported+"

/-- `ProcessQuery`. -/
def processQuery (P : Platform σ) (Command : Nat) : StubM σ Unit := do
  if ← asciiStrnCmpEq Command (text "Supported") 9 then sendGdbResponse (.text supportedReply)
  else if ← asciiStrnCmpEq Command (text "fThreadInfo") 11 then sendGdbResponse (.text (text "m01"))
  else if ← asciiStrnCmpEq Command (text "sThreadInfo") 11 then sendGdbResponse (.text (text "l"))
  else if ← asciiStrnCmpEq Command (text "Xfer:features:read:target.xml") 29 then
    readTargetDescription P
  else if ← asciiStrnCmpEq Command (text "Xfer:features:read:registers.xml") 29 then
    readTargetRegisters P
  else if ← asciiStrnCmpEq Command (text "Rcmd,") 5 then processMonitorCmd P (Command + 5)
  else if ← asciiStrnCmpEq Command (text "Attached") 8 then sendGdbResponse (.text (text "1"))
  else sendGdbResponse (.text [])

end UefiDebugger
