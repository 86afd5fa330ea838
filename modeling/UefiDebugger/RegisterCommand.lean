import UefiDebugger.GdbResponse

/-!
# The register commands

`g`, `G`, `p` and `P` of `GdbStub.c`, over the table `gRegisterOffsets` of the architecture.
Registers are byte ranges of the saved context that `gSystemContext` points at.
-/
namespace UefiDebugger
open HexText ByteString StateEffect

variable {σ : Type}

/-- The saved context the stub is working on. -/
def Stub.context (s : Stub σ) : Context := s.contexts s.gSystemContext

/-- Replace the saved context the stub is working on. -/
def Stub.setContext (s : Stub σ) (c : Context) : Stub σ :=
  { s with contexts := Function.update s.contexts s.gSystemContext c }

/-! ## One register -/

/-- The loop of `ReadRegisterFromContext`: `n` bytes of the context from `RegPtr`, spelled at
`Output`. -/
def spellRegister : (n RegPtr Output : Nat) → StubM σ Unit
  | 0, _, _ => pure ()
  | n + 1, RegPtr, Output => do
      let s ← get
      let Byte := s.context RegPtr
      writeResponse Output (hexChar (Byte >>> 4))
      writeResponse (Output + 1) (hexChar (Byte &&& 0xF))
      spellRegister n (RegPtr + 1) (Output + 2)

/-- The loop of `ReadRegisterFromContext` for an absent register. -/
def spellZeros : (n Output : Nat) → StubM σ Unit
  | 0, _ => pure ()
  | n + 1, Output => do
      writeResponse Output (char '0')
      spellZeros n (Output + 1)

/-- `ReadRegisterFromContext`: the end of the output. -/
def readRegisterFromContext (Register : RegisterOffsetData) (Output : Nat) : StubM σ Nat := do
  if Register.offset ≠ regNotPresent then spellRegister Register.size Register.offset Output
  else spellZeros (Register.size * 2) Output
  pure (Output + Register.size * 2)

/-- The loop of `WriteRegisterToContext`: the bytes of `n` digit pairs at `Input`. -/
def decodeRegister : (n Input : Nat) → StubM σ (List UInt8)
  | 0, _ => pure []
  | n + 1, Input => do
      let Byte ← hexToByte Input
      let Value ← decodeRegister n (Input + 2)
      pure (Byte :: Value)

/-- `WriteRegisterToContext`: the end of the input consumed, or `none` when it is too short.  The
input of an absent register is not consumed. -/
def writeRegisterToContext (Register : RegisterOffsetData) (Input : Nat) : StubM σ (Option Nat) :=
  do
  assert .registerSize (decide (Register.size ≤ 10))
  let n ← asciiStrLen Input
  if n < Register.size * 2 then pure none
  else if Register.offset ≠ regNotPresent then do
    let Value ← decodeRegister Register.size Input
    modify fun s => s.setContext (store s.context Register.offset Value)
    pure (some (Input + 2 * Register.size))
  else pure (some Input)

/-! ## The commands -/

/-- The loop of `WriteGeneralRegisters`: whether every register was written. -/
def writeRegisters : List RegisterOffsetData → (Ptr : Nat) → StubM σ Bool
  | [], _ => pure true
  | Register :: rest, Ptr => do
      let next ← writeRegisterToContext Register Ptr
      match next with
      | none => pure false
      | some Ptr => writeRegisters rest Ptr

/-- `WriteGeneralRegisters`. -/
def writeGeneralRegisters (P : Platform σ) (Data : Nat) : StubM σ Unit := do
  let ok ← writeRegisters P.gRegisterOffsets Data
  if ok = true then sendGdbResponse (.text (text "OK"))
  else sendGdbError gdbErrorInternal

/-- The loop of `ReadGeneralRegisters`: the end of the output. -/
def readRegisters : List RegisterOffsetData → (Ptr : Nat) → StubM σ Nat
  | [], Ptr => pure Ptr
  | Register :: rest, Ptr => do
      let Ptr ← readRegisterFromContext Register Ptr
      readRegisters rest Ptr

/-- `ReadGeneralRegisters`. -/
def readGeneralRegisters (P : Platform σ) : StubM σ Unit := do
  let Ptr ← readRegisters P.gRegisterOffsets 0
  writeResponse Ptr 0
  sendGdbResponse .mResponse

/-- `ReadRegister`. -/
def readRegister (P : Platform σ) (Command : Nat) : StubM σ Unit := do
  let RegisterIndex ← asciiStrHexToUintn P Command
  match P.gRegisterOffsets[RegisterIndex]? with
  | none => sendGdbError gdbErrorBadRegIndex
  | some Register => do
      let Ptr ← readRegisterFromContext Register 0
      writeResponse Ptr 0
      sendGdbResponse .mResponse

/-- `WriteRegister`. -/
def writeRegister (P : Platform σ) (Command : Nat) : StubM σ Unit := do
  let n ← asciiStrLen Command
  let value ← scanMem8 Command n (char '=')
  match value with
  | none => sendGdbError gdbErrorBadRequest
  | some ValueStr => do
      writeRequest ValueStr 0
      let RegisterIndex ← asciiStrHexToUintn P Command
      match P.gRegisterOffsets[RegisterIndex]? with
      | none => sendGdbError gdbErrorBadRegIndex
      | some Register => do
          let ptr ← writeRegisterToContext Register (ValueStr + 1)
          match ptr with
          | none => sendGdbError gdbErrorInternal
          | some _ => sendGdbResponse (.text (text "OK"))

end UefiDebugger
