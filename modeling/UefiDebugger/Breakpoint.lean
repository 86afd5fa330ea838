import UefiDebugger.StubState

/-!
# Software breakpoints

`Breakpoint.c`.  An entry of `mBreakpoints` remembers the bytes its breakpoint replaced; both
operations go to memory through the platform and ignore whether that worked.
-/
namespace UefiDebugger
open HexText ByteString StateEffect

variable {σ : Type}

/-- What the scan of `AddSoftwareBreakpoint` ends with. -/
inductive AddScan where
  | duplicate
  | free (Entry : Option (Fin maxBreakpoints))
  deriving DecidableEq

/-- The scan of `AddSoftwareBreakpoint` over the slots still to visit: it stops at an active entry
for the address, and otherwise remembers the first inactive slot. -/
def addScan (t : BreakpointTable) (Address : Nat) :
    List (Fin maxBreakpoints) → Option (Fin maxBreakpoints) → AddScan
  | [], Entry => .free Entry
  | i :: is, Entry =>
      if (t i).active = true ∧ (t i).address = Address then .duplicate
      else addScan t Address is (if (t i).active = false ∧ Entry = none then some i else Entry)

/-- The bytes a breakpoint's entry holds for the length of the breakpoint instruction. -/
def savedBytes (P : Platform σ) (e : BreakpointInfo) : List UInt8 :=
  slice e.originalValue 0 P.mArchBreakpointInstructionSize

/-- Replace an entry of the table. -/
def setBreakpoint (i : Fin maxBreakpoints) (e : BreakpointInfo) : StubM σ Unit :=
  modify fun s => { s with mBreakpoints := Function.update s.mBreakpoints i e }

/-- `AddSoftwareBreakpoint`. -/
def addSoftwareBreakpoint (P : Platform σ) (Address : Nat) : StubM σ Bool := do
  assert .breakpointSize (decide (P.mArchBreakpointInstructionSize ≤ maxBreakpointSize))
  let s ← get
  match addScan s.mBreakpoints Address (List.finRange maxBreakpoints) none with
  | .duplicate => pure true
  | .free none => do
      assert .breakpointTableFull false
      pure false
  | .free (some Entry) => do
      let OriginalValue := (s.mBreakpoints Entry).originalValue
      setBreakpoint Entry ⟨true, Address, OriginalValue⟩
      let (_, Data) ← dbgReadMemory P .saveOriginal Address P.mArchBreakpointInstructionSize
      setBreakpoint Entry ⟨true, Address, store OriginalValue 0 Data⟩
      let _ ← dbgWriteMemory P .plant Address P.mArchBreakpointInstruction
      pure true

/-- The slot `RemoveSoftwareBreakpoint` stops at. -/
def removeScan (t : BreakpointTable) (Address : Nat) : Option (Fin maxBreakpoints) :=
  (List.finRange maxBreakpoints).find? fun i => (t i).active && decide ((t i).address = Address)

/-- `RemoveSoftwareBreakpoint`. -/
def removeSoftwareBreakpoint (P : Platform σ) (Address : Nat) : StubM σ Bool := do
  let s ← get
  match removeScan s.mBreakpoints Address with
  | some i => do
      let _ ← dbgWriteMemory P .restore Address (savedBytes P (s.mBreakpoints i))
      setBreakpoint i { s.mBreakpoints i with active := false }
      pure true
  | none => pure false

end UefiDebugger
