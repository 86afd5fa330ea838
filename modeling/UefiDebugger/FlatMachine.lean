import UefiDebugger.PacketInput
import UefiDebugger.RegisterTables

/-!
# A machine to run the stub on

A `Platform` whose base library follows the documented behaviour of the real one, over a flat memory
the accesses to which succeed or fail as a schedule says.  Concrete runs of the stub are runs on
this platform.
-/
namespace UefiDebugger
open HexText ByteString PatchedMemory StateEffect

/-! ## The base library -/

/-- The digits `AsciiStrHexToUint64S` converts: blanks, leading zeros and one `x` after a zero are
skipped, and the number ends at the first character that is no digit. -/
def hexNumberText (String : List UInt8) : List UInt8 :=
  let str := String.dropWhile fun c => c = char ' ' || c = 9
  let digits := str.dropWhile (· = char '0')
  match digits with
  | [] => []
  | c :: rest =>
      if c = char 'x' ∨ c = char 'X' then
        if digits.length < str.length then rest.takeWhile isDigit else []
      else digits.takeWhile isDigit

/-- The conversions of `AsciiSPrint` that the stub uses. -/
def formatText : List UInt8 → List PrintArg → List UInt8
  | 37 :: 97 :: f, .text s :: args => s ++ formatText f args
  | 37 :: 100 :: f, .number n :: args => (Nat.toDigits 10 n).map char ++ formatText f args
  | 37 :: 108 :: 108 :: 120 :: f, .number n :: args =>
      (Nat.toDigits 16 n).map (char ·.toUpper) ++ formatText f args
  | c :: f, args => c :: formatText f args
  | [], _ => []

theorem value_dropWhile_zero (ds : List UInt8) :
    value (ds.dropWhile (· = char '0')) = value ds := by
  induction ds with
  | nil => rfl
  | cons d ds ih =>
    by_cases hd : d = char '0'
    · subst hd
      rw [List.dropWhile_cons_of_pos (by simp), ih]
      rfl
    · rw [List.dropWhile_cons_of_neg (by simpa using hd)]

theorem value_hexNumberText {ds : List UInt8} (h : ∀ c ∈ ds, isDigit c = true) :
    value (hexNumberText ds) = value ds := by
  have hblank : ds.dropWhile (fun c => c = char ' ' || c = 9) = ds := by
    cases ds with
    | nil => rfl
    | cons d ds =>
      rw [List.dropWhile_cons_of_neg]
      have hd := h d (List.mem_cons_self ..)
      have hdigit : ∀ c : UInt8, isDigit c = true → (c = char ' ' || c = 9) = false :=
        forall_byte (by decide +kernel)
      simp [hdigit d hd]
  have hmem : ∀ c ∈ ds.dropWhile (· = char '0'), isDigit c = true := fun c hc =>
    h c ((List.dropWhile_suffix _).mem hc)
  rw [hexNumberText, hblank, ← value_dropWhile_zero ds]
  generalize ds.dropWhile (· = char '0') = digits at hmem
  cases digits with
  | nil => rfl
  | cons c rest =>
    have hc : isDigit c = true := hmem c (List.mem_cons_self ..)
    have hx : ¬ (c = char 'x' ∨ c = char 'X') := by
      rintro (rfl | rfl)
      · exact absurd hc (by decide)
      · exact absurd hc (by decide)
    dsimp only
    rw [if_neg hx, List.takeWhile_eq_self_iff.mpr hmem]

/-- The base library as documented. -/
def documentedBaseLib : BaseLib where
  asciiStrHexToUint64S str :=
    if value (hexNumberText str) < 2 ^ 64 then some (value (hexNumberText str)) else none
  asciiStrHexToUintn str := min (value (hexNumberText str)) (2 ^ 64 - 1)
  asciiStrHexToBytes str :=
    if str.length % 2 = 0 ∧ str.all isDigit = true then some (readBytes str) else none
  asciiSPrint := formatText
  uint64S_digits ds _ h := by rw [value_hexNumberText h]
  uintn_digits ds _ h hv := by
    rw [value_hexNumberText h]
    exact Nat.min_eq_left (by omega)
  bytes_pair c d := by simp [readBytes]

/-! ## Memory that may fail -/

/-- A flat memory.  `faults` says of each access to come whether it fails; later ones succeed. -/
structure FlatMachine where
  memory : Nat → UInt8
  faults : List Bool

/-- An access is made, and fails if it is its turn to. -/
def FlatMachine.fault (t : FlatMachine) : Bool := t.faults.headD false

/-- `DbgReadMemory` and `DbgWriteMemory` on the flat memory. -/
def flatAccess : MemoryAccess FlatMachine where
  view := FlatMachine.memory
  dbgReadMemory Address Length t :=
    (!t.fault, if t.fault then [] else readBlock (2 ^ 64) t.memory Address Length,
      { t with faults := t.faults.tail })
  dbgWriteMemory Address Data t :=
    (!t.fault, ⟨if t.fault then t.memory else writeBlock (2 ^ 64) t.memory Address Data,
      t.faults.tail⟩)
  read_true a n t h := by
    have h' : t.fault = false := by simpa using h
    simp [h']
  read_false a n t h := by
    have h' : t.fault = true := by simpa using h
    exact ⟨0, Nat.zero_le n, by simp [h', readBlock]⟩
  read_view _ _ _ := rfl
  write_true a bs t h := by
    have h' : t.fault = false := by simpa using h
    simp [h']
  write_false a bs t h := by
    have h' : t.fault = true := by simpa using h
    exact ⟨0, Nat.zero_le _, by simp [h', writeBlock]⟩

/-- The X64 breakpoint on a flat memory, with nothing else behind it. -/
def flatPlatform : Platform FlatMachine where
  toMemoryAccess := flatAccess
  baseLib := documentedBaseLib
  mArchBreakpointInstruction := [0xCC]
  instruction_size := by decide
  gDebuggerInfo := text "DXE UEFI Debugger"
  gRegisterOffsets := []
  gdbTargetInfo := ⟨text "i386:x86-64", text "org.gnu.gdb.i386.core"⟩
  pcdEnableWindbgWorkarounds := false
  addSingleStep c t := (c, t)
  addWatchpoint _ _ _ _ t := (false, t)
  removeWatchpoint _ _ _ _ t := (false, t)
  debugReboot t := (true, t)
  dbgSetBreakOnModuleLoad _ t := (false, t)
  gdbReadMsr _ t := ([], t)
  gdbDumpSystemRegisters _ t := ([], t)

/-- The fields of `EFI_SYSTEM_CONTEXT_X64` that GDB is shown. -/
def x64Fields : List String :=
  ["Rax", "Rbx", "Rcx", "Rdx", "Rsi", "Rdi", "Rbp", "Rsp", "R8", "R9", "R10", "R11", "R12", "R13",
    "R14", "R15", "Rip", "Rflags", "Cs", "Ss", "Ds", "Es", "Fs", "Gs", "Cr0", "Cr2", "Cr3",
    "Cr4", "Cr8"]

/-- A layout of the context with eight bytes for each of them. -/
def x64Layout (n : String) : Nat := 8 * x64Fields.idxOf n

/-- The registers of X64 on a flat memory. -/
def x64Platform : Platform FlatMachine :=
  { flatPlatform with gRegisterOffsets := X64.gRegisterOffsets x64Layout }

/-! ## The stub at start -/

variable {σ : Type}

/-- A buffer of zeros that nothing touched. -/
def ByteBuffer.fresh : ByteBuffer := ⟨fun _ => 0, 0, 0⟩

/-- A request buffer holding the payload of a packet that is about to be executed. -/
def requestOf (payload : List UInt8) : ByteBuffer := ⟨store (fun _ => 0) 1 (payload ++ [0]), 0, 0⟩

/-- The static data of the stub as the image is loaded. -/
def Stub.initial (t : σ) : Stub σ where
  gSystemContext := 0
  gExceptionInfo := 0
  gRunning := true
  mRebootOnContinue := false
  mRequest := .fresh
  mResponseFull := .fresh
  mResponseTop := 0
  mScratch := .fresh
  mResponseAcknowledged := false
  mNextBreakpointTimeout := 0
  mConnectionOccurred := false
  responseLength := 0
  mBreakpoints := fun _ => ⟨false, 0, fun _ => 0⟩
  debuggerBreakpointReason := .none
  contexts := fun _ _ => 0
  exceptionInfos := fun _ => ⟨.genericFault, 0, 0⟩
  target := t
  halted := false
  accesses := []
  failedAsserts := []
  output := []

end UefiDebugger
