import UefiDebugger.Breakpoint
import UefiDebugger.MemoryCommand
import UefiDebugger.RegisterCommand
import UefiDebugger.QueryCommand

/-!
# Commands

`ProcessVCommand`, `ProcessBreakpoint` and the dispatcher `ExecuteGdbCommand` of `GdbStub.c`.
-/
namespace UefiDebugger
open HexText ByteString StateEffect

variable {σ : Type}

/-! ## `v` commands -/

/-- The delimiter search of `ProcessVCommand` over `n` more characters from `DelimiterIndex`. -/
def findDelimiter (Command : Nat) : (n DelimiterIndex : Nat) → StubM σ Nat
  | 0, DelimiterIndex => pure DelimiterIndex
  | n + 1, DelimiterIndex => do
      let Char ← readRequest (Command + DelimiterIndex)
      if Char = char ';' ∨ Char = char '?' then pure DelimiterIndex
      else findDelimiter Command n (DelimiterIndex + 1)

/-- `AddSingleStep (gSystemContext)`. -/
def addSingleStep (P : Platform σ) : StubM σ Unit :=
  modify fun s =>
    { s.setContext (P.addSingleStep s.context s.target).1 with
      target := (P.addSingleStep s.context s.target).2 }

/-- `gRunning = TRUE`. -/
def setRunning : StubM σ Unit := modify fun s => { s with gRunning := true }

/-- `ProcessVCommand`. -/
def processVCommand (P : Platform σ) (Command CommandLength : Nat) : StubM σ Unit := do
  let DelimiterIndex ← findDelimiter Command CommandLength 0
  let OriginalDelimiter ← readRequest (Command + DelimiterIndex)
  assert .vDelimiter (decide
    (OriginalDelimiter = char ';' ∨ OriginalDelimiter = char '?' ∨ OriginalDelimiter = 0))
  writeRequest (Command + DelimiterIndex) 0
  if ← asciiStrnCmpEq Command (text "Cont") DelimiterIndex then
    if OriginalDelimiter = char ';' then do
      let Action ← readRequest (Command + DelimiterIndex + 1)
      if Action = char 'c' then setRunning
      else if Action = char 's' then do
        addSingleStep P
        setRunning
      else sendGdbResponse (.text [])
    else if OriginalDelimiter = char '?' then sendGdbResponse (.text (text "vCont;c;C;s;S"))
    else sendGdbResponse (.text [])
  else sendGdbResponse (.text [])

/-! ## Breakpoints and watchpoints -/

/-- `AddWatchpoint` or `RemoveWatchpoint`. -/
def changeWatchpoint (P : Platform σ) (Remove : Bool) (Address Length : Nat) (Read Write : Bool) :
    StubM σ Bool :=
  modifyGet fun s =>
    let r := if Remove = true then P.removeWatchpoint Address Length Read Write s.target
      else P.addWatchpoint Address Length Read Write s.target
    (r.1, { s with target := r.2 })

/-- `RemoveSoftwareBreakpoint` or `AddSoftwareBreakpoint`. -/
def changeSoftwareBreakpoint (P : Platform σ) (Remove : Bool) (Address : Nat) : StubM σ Bool :=
  if Remove = true then removeSoftwareBreakpoint P Address else addSoftwareBreakpoint P Address

/-- The reply to a breakpoint command. -/
def sendBreakpointResult (Result : Bool) : StubM σ Unit :=
  if Result = true then sendGdbResponse (.text (text "OK")) else sendGdbError gdbErrorInternal

/-- The part of `ProcessBreakpoint` after its delimiters are terminated. -/
def breakpointRequest (P : Platform σ) (Remove : Bool) (TypeStr AddressStr LengthStr : Nat) :
    StubM σ Unit := do
  let Type' ← asciiStrHexToUintn P TypeStr
  let Address ← asciiStrHexToUintn P AddressStr
  let Length ← asciiStrHexToUintn P LengthStr
  if Type' = 0 then do
    let Result ← changeSoftwareBreakpoint P Remove Address
    sendBreakpointResult Result
  else if 2 ≤ Type' ∧ Type' ≤ 4 then do
    let Result ← changeWatchpoint P Remove Address Length
      (decide (Type' = 3 ∨ Type' = 4)) (decide (Type' = 2 ∨ Type' = 4))
    sendBreakpointResult Result
  else sendGdbError gdbErrorUnsupported

/-- `ProcessBreakpoint`. -/
def processBreakpoint (P : Platform σ) (Remove : Bool) (Command : Nat) : StubM σ Unit := do
  let n ← asciiStrLen Command
  let address ← scanMem8 Command n (char ',')
  match address with
  | none => sendGdbError gdbErrorBadRequest
  | some Comma => do
      writeRequest Comma 0
      let n ← asciiStrLen (Comma + 1)
      let length ← scanMem8 (Comma + 1) n (char ',')
      match length with
      | none => sendGdbError gdbErrorBadRequest
      | some Comma' => do
          writeRequest Comma' 0
          breakpointRequest P Remove Command (Comma + 1) (Comma' + 1)

/-! ## The dispatcher -/

/-- `DebugReboot`: whether it returned. -/
def debugReboot (P : Platform σ) : StubM σ Bool :=
  modifyGet fun s =>
    ((P.debugReboot s.target).1, { s with
      target := (P.debugReboot s.target).2
      halted := !(P.debugReboot s.target).1 })

/-- The `r` and `R` commands: if `DebugReboot` returns then it did not work. -/
def rebootCommand (P : Platform σ) : StubM σ Unit := do
  let returned ← debugReboot P
  if returned = true then sendGdbError gdbErrorUnsupported else pure ()

/-- The `switch` of `ExecuteGdbCommand`, on its first character. -/
def dispatchGdbCommand (P : Platform σ) (Command : UInt8) (GdbCommand GdbCommandLength : Nat) :
    StubM σ Unit :=
  if Command = char 'g' then readGeneralRegisters P
  else if Command = char 'G' then writeGeneralRegisters P (GdbCommand + 1)
  else if Command = char 'p' then readRegister P (GdbCommand + 1)
  else if Command = char 'P' then writeRegister P (GdbCommand + 1)
  else if Command = char 'm' then
    processMemoryCommand P false (GdbCommand + 1) (GdbCommandLength - 1)
  else if Command = char 'M' then
    processMemoryCommand P true (GdbCommand + 1) (GdbCommandLength - 1)
  else if Command = char 'v' then processVCommand P (GdbCommand + 1) (GdbCommandLength - 1)
  else if Command = char 'q' then processQuery P (GdbCommand + 1)
  else if Command = char 'H' then sendGdbResponse (.text (text "OK"))
  else if Command = char '?' then sendStopReply
  else if Command = char '!' then sendGdbResponse (.text (text "OK"))
  else if Command = char 'Z' then processBreakpoint P false (GdbCommand + 1)
  else if Command = char 'z' then processBreakpoint P true (GdbCommand + 1)
  else if Command = char 'r' ∨ Command = char 'R' then rebootCommand P
  else sendGdbError gdbErrorUnkownCmd

/-- `ExecuteGdbCommand`. -/
def executeGdbCommand (P : Platform σ) (GdbCommand GdbCommandLength : Nat) : StubM σ Unit := do
  let Command ← readRequest GdbCommand
  dispatchGdbCommand P Command GdbCommand GdbCommandLength

end UefiDebugger
