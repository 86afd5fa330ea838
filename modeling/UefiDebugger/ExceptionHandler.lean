import UefiDebugger.Breakpoint
import UefiDebugger.DebugRegisters
import UefiDebugger.StoredWords

/-!
# The exception handlers

`DebuggerExceptionHandler` and `AddSingleStep` of `DebugX64.c` and `DebugAarch64.c`.  A handler
works on the saved context in front of its call of `ReportEntryToDebugger` and behind it; what it
keeps across the call, the interrupt type or the exception class, is its cause.  `OFFSET_OF` of the
fields it uses are parameters, of which only that they do not overlap is known.  The watchdog is
left out.
-/
namespace UefiDebugger
open ByteString PatchedMemory StoredWords

/-- What the exception-independent code is told of an architecture's handler.  `armed` says that a
single step is armed, in the context or in the machine. -/
structure ExceptionArch (σ : Type) where
  cause : (InterruptType : Nat) → Context → Nat
  /-- In front of `ReportEntryToDebugger`. -/
  entry : (cause : Nat) → Context → σ → ExceptionInfo × Context × σ
  /-- Behind it, with the memory the session left. -/
  exit : (cause : Nat) → (Nat → UInt8) → Context → Context
  addSingleStep : Context → σ → Context × σ
  pc : Context → UInt64
  breakpointCause : Nat
  stepCause : Nat → Bool
  /-- The breakpoint instruction is at an address. -/
  found : (Nat → UInt8) → Nat → Bool
  size : UInt64
  armed : Context → σ → Bool
  size_ne : size ≠ 0
  exit_pc : ∀ cause memory c, pc (exit cause memory c) =
    if cause = breakpointCause ∧ found memory (pc c).toNat = true then pc c + size else pc c
  entry_armed : ∀ cause c t, armed (entry cause c t).2.1 (entry cause c t).2.2 =
    (armed c t && !stepCause cause)
  exit_armed : ∀ cause memory c t, armed (exit cause memory c) t = armed c t
  step_armed : ∀ c t, armed (addSingleStep c t).1 (addSingleStep c t).2 = true

/-! ## X64 -/

namespace X64

/-- `OFFSET_OF (EFI_SYSTEM_CONTEXT_X64, …)`. -/
structure ContextOffsets where
  rip : Nat
  rflags : Nat
  apart : rip + 8 ≤ rflags ∨ rflags + 8 ≤ rip

/-- `TF_BIT`. -/
def tfBit : UInt64 := 0x00000100

/-- `EXCEPT_X64_DEBUG`. -/
def exceptX64Debug : Nat := 1

/-- `EXCEPT_X64_BREAKPOINT`. -/
def exceptX64Breakpoint : Nat := 3

/-- `EXCEPT_X64_PAGE_FAULT`. -/
def exceptX64PageFault : Nat := 14

variable (O : ContextOffsets)

/-- `DebuggerExceptionHandler` in front of `ReportEntryToDebugger`. -/
def handlerEntry (InterruptType : Nat) (c : Context) : ExceptionInfo × Context :=
  if InterruptType = exceptX64Debug then
    -- The single step is cleared for this exception only.
    let c := setWord c O.rflags (word c O.rflags &&& ~~~tfBit)
    (⟨.debugStep, (word c O.rip).toNat, InterruptType⟩, c)
  else if InterruptType = exceptX64Breakpoint then
    let c := setWord c O.rip (word c O.rip - 1)
    (⟨.breakpoint, (word c O.rip).toNat, InterruptType⟩, c)
  else if InterruptType = exceptX64PageFault then
    (⟨.accessViolation, (word c O.rip).toNat, InterruptType⟩, c)
  else (⟨.genericFault, (word c O.rip).toNat, InterruptType⟩, c)

/-- `DebuggerExceptionHandler` behind it. -/
def handlerExit (InterruptType : Nat) (memory : Nat → UInt8) (c : Context) : Context :=
  if InterruptType = exceptX64Breakpoint then
    if memory (word c O.rip).toNat = 0xCC then setWord c O.rip (word c O.rip + 1) else c
  else c

/-- `AddSingleStep`. -/
def addSingleStep (c : Context) : Context := setWord c O.rflags (word c O.rflags ||| tfBit)

/-- The trap flag. -/
def trapFlag (c : Context) : Bool := (word c O.rflags).toBitVec.getLsbD 8

theorem trapFlag_setRip (c : Context) (v : UInt64) :
    trapFlag O (setWord c O.rip v) = trapFlag O c := by
  have happart := O.apart
  rw [trapFlag, trapFlag, word_setWord_of_apart (by omega)]

theorem clear_tfBit (v : UInt64) : (v &&& ~~~tfBit).toBitVec.getLsbD 8 = false := by
  rw [UInt64.toBitVec_and, BitVec.getLsbD_and]
  have hmask : (~~~tfBit).toBitVec.getLsbD 8 = false := by decide
  rw [hmask, Bool.and_false]

theorem set_tfBit (v : UInt64) : (v ||| tfBit).toBitVec.getLsbD 8 = true := by
  rw [UInt64.toBitVec_or, BitVec.getLsbD_or]
  have hmask : tfBit.toBitVec.getLsbD 8 = true := by decide
  rw [hmask, Bool.or_true]

/-- Only the debug exception clears the flag. -/
theorem trapFlag_handlerEntry (InterruptType : Nat) (c : Context) :
    trapFlag O (handlerEntry O InterruptType c).2 =
    (trapFlag O c && !decide (InterruptType = exceptX64Debug)) := by
  rw [handlerEntry]
  by_cases hdebug : InterruptType = exceptX64Debug
  · rw [if_pos hdebug, decide_eq_true hdebug, Bool.not_true, Bool.and_false, trapFlag, word_setWord,
      clear_tfBit]
  · rw [if_neg hdebug, decide_eq_false hdebug, Bool.not_false, Bool.and_true]
    by_cases hbreak : InterruptType = exceptX64Breakpoint
    · rw [if_pos hbreak, trapFlag_setRip]
    · rw [if_neg hbreak]
      split
      · rfl
      · rfl

theorem rip_handlerExit (InterruptType : Nat) (memory : Nat → UInt8) (c : Context) :
    word (handlerExit O InterruptType memory c) O.rip =
      if InterruptType = exceptX64Breakpoint ∧ memory (word c O.rip).toNat = 0xCC then
        word c O.rip + 1
      else word c O.rip := by
  rw [handlerExit]
  by_cases hbreak : InterruptType = exceptX64Breakpoint
  · by_cases hfound : memory (word c O.rip).toNat = 0xCC
    · rw [if_pos hbreak, if_pos hfound, if_pos ⟨hbreak, hfound⟩, word_setWord]
    · rw [if_pos hbreak, if_neg hfound, if_neg fun h => hfound h.2]
  · rw [if_neg hbreak, if_neg fun h => hbreak h.1]

/-- The handler of X64. -/
def exceptionArch (σ : Type) : ExceptionArch σ where
  cause InterruptType _ := InterruptType
  entry InterruptType c t :=
    ((handlerEntry O InterruptType c).1, (handlerEntry O InterruptType c).2, t)
  exit := handlerExit O
  addSingleStep c t := (addSingleStep O c, t)
  pc c := word c O.rip
  breakpointCause := exceptX64Breakpoint
  stepCause InterruptType := InterruptType = exceptX64Debug
  found memory p := memory p = 0xCC
  size := 1
  armed c _ := trapFlag O c
  size_ne := by decide
  exit_pc InterruptType memory c := by
    rw [rip_handlerExit]
    simp only [decide_eq_true_eq]
  entry_armed InterruptType c _ := trapFlag_handlerEntry O InterruptType c
  exit_armed InterruptType memory c _ := by
    unfold handlerExit
    split
    · split
      · exact trapFlag_setRip O c _
      · rfl
    · rfl
  step_armed c _ := by
    show trapFlag O (addSingleStep O c) = true
    rw [trapFlag, addSingleStep, word_setWord, set_tfBit]

end X64
/-! ## AArch64 -/

namespace AArch64

/-- `OFFSET_OF (EFI_SYSTEM_CONTEXT_AARCH64, …)`. -/
structure ContextOffsets where
  elr : Nat
  spsr : Nat
  esr : Nat
  apart : elr + 8 ≤ spsr ∨ spsr + 8 ≤ elr

/-- `DebugReadMdscrEl1` and `DebugWriteMdscrEl1`. -/
structure MdscrAccess (σ : Type) where
  debugReadMdscrEl1 : σ → UInt64
  debugWriteMdscrEl1 : UInt64 → σ → σ
  read_write : ∀ v t, debugReadMdscrEl1 (debugWriteMdscrEl1 v t) = v

/-- `MDSCR_SS`. -/
def mdscrSs : UInt64 := 0x00000001

/-- The class of a `BRK` instruction. -/
def brkInstruction : Nat := 0x3c

/-- `mArchBreakpointInstruction`. -/
def mArchBreakpointInstruction : List UInt8 := [0x00, 0x00, 0x3E, 0xD4]

variable {σ : Type} (O : ContextOffsets) (M : MdscrAccess σ)

/-- `0x3F & (Context->ESR >> 26)`. -/
def exceptionClass (c : Context) : Nat := ((0x3F : UInt64) &&& (word c O.esr >>> 26)).toNat

/-- The classes of a single step from the lower and from the current level. -/
def isStepClass (ExceptionType : Nat) : Bool := ExceptionType = 0x32 || ExceptionType = 0x33

/-- The `switch` of `DebuggerExceptionHandler`. -/
def exceptionTypeOf (ExceptionType : Nat) : UefiDebugger.ExceptionType :=
  if ExceptionType = 0x00 then .invalidOp
  else if ExceptionType ∈ [0x20, 0x21, 0x24, 0x25] then .accessViolation
  else if ExceptionType ∈ [0x22, 0x26] then .alignment
  else if ExceptionType ∈ [0x30, 0x31, 0x34, 0x35, 0x3c] then .breakpoint
  else if isStepClass ExceptionType = true then .debugStep
  else .genericFault

/-- `DebuggerExceptionHandler` in front of `ReportEntryToDebugger`. -/
def handlerEntry (ExceptionType : Nat) (c : Context) (t : σ) : ExceptionInfo × σ :=
  (⟨exceptionTypeOf ExceptionType, (word c O.elr).toNat, ExceptionType⟩,
    if isStepClass ExceptionType = true then
      M.debugWriteMdscrEl1 (M.debugReadMdscrEl1 t &&& ~~~mdscrSs) t else t)

/-- `DebuggerExceptionHandler` behind it. -/
def handlerExit (ExceptionType : Nat) (memory : Nat → UInt8) (c : Context) : Context :=
  if ExceptionType = brkInstruction ∧
      readBlock (2 ^ 64) memory (word c O.elr).toNat mArchBreakpointInstruction.length =
      mArchBreakpointInstruction then
    setWord c O.elr (word c O.elr + 4)
  else c

/-- `AddSingleStep`. -/
def addSingleStep (c : Context) (t : σ) : Context × σ :=
  -- `BIT9` is the debug mask, `BIT21` the software step bit of `SPSR`.
  (setWord c O.spsr ((word c O.spsr &&& ~~~0x200) ||| 0x200000),
    M.debugWriteMdscrEl1 (M.debugReadMdscrEl1 t ||| (mdscrSs ||| mdscrMde ||| mdscrKde)) t)

/-- `MDSCR_EL1.SS`. -/
def stepEnabled (t : σ) : Bool := (M.debugReadMdscrEl1 t).toBitVec.getLsbD 0

theorem stepEnabled_handlerEntry (ExceptionType : Nat) (c : Context) (t : σ) :
    stepEnabled M (handlerEntry O M ExceptionType c t).2 =
    (stepEnabled M t && !isStepClass ExceptionType) := by
  rw [handlerEntry]
  cases isStepClass ExceptionType with
  | true =>
    rw [if_pos rfl, Bool.not_true, Bool.and_false, stepEnabled, M.read_write, UInt64.toBitVec_and,
      BitVec.getLsbD_and]
    have hmask : (~~~mdscrSs).toBitVec.getLsbD 0 = false := by decide
    rw [hmask, Bool.and_false]
  | false => rw [if_neg Bool.false_ne_true, Bool.not_false, Bool.and_true]

theorem stepEnabled_addSingleStep (c : Context) (t : σ) :
    stepEnabled M (addSingleStep O M c t).2 = true := by
  rw [addSingleStep, stepEnabled, M.read_write, UInt64.toBitVec_or, BitVec.getLsbD_or]
  have hmask : (mdscrSs ||| mdscrMde ||| mdscrKde).toBitVec.getLsbD 0 = true := by decide
  rw [hmask, Bool.or_true]

/-- The handler of AArch64. -/
def exceptionArch : ExceptionArch σ where
  cause _ c := exceptionClass O c
  entry ExceptionType c t :=
    ((handlerEntry O M ExceptionType c t).1, c, (handlerEntry O M ExceptionType c t).2)
  exit := handlerExit O
  addSingleStep := addSingleStep O M
  pc c := word c O.elr
  breakpointCause := brkInstruction
  stepCause := isStepClass
  found memory p :=
    readBlock (2 ^ 64) memory p mArchBreakpointInstruction.length = mArchBreakpointInstruction
  size := 4
  armed _ t := stepEnabled M t
  size_ne := by decide
  exit_pc ExceptionType memory c := by
    simp only [decide_eq_true_eq]
    rw [handlerExit]
    split
    · exact word_setWord
    · rfl
  entry_armed ExceptionType c t := stepEnabled_handlerEntry O M ExceptionType c t
  exit_armed _ _ _ _ := rfl
  step_armed c t := stepEnabled_addSingleStep O M c t

end AArch64
end UefiDebugger
