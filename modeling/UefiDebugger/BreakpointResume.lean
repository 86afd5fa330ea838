import UefiDebugger.ExceptionHandler
import UefiDebugger.ResumedStop

/-!
# Resuming behind a breakpoint

What `DebuggerExceptionHandler` does with the program counter a session leaves.  Behind a breakpoint
exception it looks at the instruction there and steps over a breakpoint instruction, whether the
program has it there or `AddSoftwareBreakpoint` put it there.
-/
namespace UefiDebugger
open HexText StoredWords StateEffect

variable {σ : Type}

/-! ## Handled exceptions -/

/-- An exception as it is raised, with the machine it is raised on. -/
structure Raised (σ : Type) where
  InterruptType : Nat
  InfoAddress : Nat
  ContextAddress : Nat
  context : Context
  target : σ
  now : Nat

/-- What the handler keeps of it across the stop. -/
def Raised.cause (e : Raised σ) (A : ExceptionArch σ) : Nat := A.cause e.InterruptType e.context

namespace Machine

/-- `DebuggerExceptionHandler` up to its call of `ReportEntryToDebugger`, and into it. -/
def raise (A : ExceptionArch σ) (m : Machine σ) (e : Raised σ) : Machine σ :=
  let r := A.entry (e.cause A) e.context e.target
  { m with stub := { m.stub with target := r.2.2 } }.enter e.InfoAddress e.ContextAddress r.1
  r.2.1 e.now

/-- The context as a session left it. -/
def left (m : Machine σ) (e : Raised σ) : Context := m.stub.contexts e.ContextAddress

/-- The context the handler hands back. -/
def handed (P : Platform σ) (A : ExceptionArch σ) (m : Machine σ) (e : Raised σ) : Context :=
  A.exit (e.cause A) (P.view m.stub.target) (m.left e)

/-- `DebuggerExceptionHandler` behind its call. -/
def handBack (P : Platform σ) (A : ExceptionArch σ) (m : Machine σ) (e : Raised σ) : Machine σ :=
  { m with stub :=
    { m.stub with contexts := Function.update m.stub.contexts e.ContextAddress (m.handed P A e) } }

/-- A session of the exception, from the entry to `m'`, where `ReportEntryToDebugger` has
returned. -/
def Session (P : Platform σ) (A : ExceptionArch σ) (e : Raised σ) (m m' : Machine σ) : Prop :=
  ∃ es, Run P (fun k _ => m.frames.length < k.frames.length) (m.raise A e) es m' ∧
  m'.frames = m.frames

/-- The exception is handled. -/
def Handles (P : Platform σ) (A : ExceptionArch σ) (e : Raised σ) (m m₁ : Machine σ) : Prop :=
  ∃ m', Session P A e m m' ∧ m₁ = m'.handBack P A e

/-! ## Planted instructions -/

/-- An active entry of the table is for the address. -/
def Planted (t : BreakpointTable) (a : Nat) : Prop := ∃ i, (t i).active = true ∧ (t i).address = a

/-- Behind a breakpoint exception the handler changes the program counter the session left only if
no active entry planted what is there. -/
def SkipsOwnOnly (P : Platform σ) (A : ExceptionArch σ) (e : Raised σ) (m : Machine σ) : Prop :=
  ∀ m', Session P A e m m' → e.cause A = A.breakpointCause →
  A.pc (m'.handed P A e) ≠ A.pc (m'.left e) →
  ¬ Planted m'.stub.mBreakpoints (A.pc (m'.left e)).toNat

/-- The session does not leave the program counter at an active entry whose instruction is in
place. -/
def ClearOfPlanted (P : Platform σ) (A : ExceptionArch σ) (e : Raised σ) (m : Machine σ) : Prop :=
  ∀ m', Session P A e m m' → e.cause A = A.breakpointCause →
    Planted m'.stub.mBreakpoints (A.pc (m'.left e)).toNat →
      A.found (P.view m'.stub.target) (A.pc (m'.left e)).toNat = false

section Resume
variable {P : Platform σ} {A : ExceptionArch σ} {e : Raised σ} {m m' : Machine σ}

/-- The handler steps over exactly the breakpoint instructions. -/
theorem pc_handed_ne_iff (hcause : e.cause A = A.breakpointCause) :
    A.pc (m'.handed P A e) ≠ A.pc (m'.left e) ↔
      A.found (P.view m'.stub.target) (A.pc (m'.left e)).toNat = true := by
  rw [handed, A.exit_pc]
  by_cases hfound : A.found (P.view m'.stub.target) (A.pc (m'.left e)).toNat = true
  · rw [if_pos ⟨hcause, hfound⟩]
    refine iff_of_true (fun heq => A.size_ne ?_) hfound
    have hcancel : A.pc (m'.left e) + A.size = A.pc (m'.left e) + 0 :=
      heq.trans (UInt64.add_zero _).symm
    exact (UInt64.add_right_inj _).mp hcancel
  · rw [if_neg fun h => hfound h.2]
    exact iff_of_false (fun hne => hne rfl) hfound

/-- A planted instruction that is hit is stepped over, if the session leaves it, its entry and the
program counter alone. -/
theorem hit_is_skipped (hsession : Session P A e m m') (hcause : e.cause A = A.breakpointCause)
    (hplanted : Planted m'.stub.mBreakpoints (A.pc (m'.left e)).toNat)
    (hfound : A.found (P.view m'.stub.target) (A.pc (m'.left e)).toNat = true) :
    ¬ SkipsOwnOnly P A e m := fun h =>
  h m' hsession hcause ((pc_handed_ne_iff hcause).mpr hfound) hplanted

theorem skipsOwnOnly_iff (e : Raised σ) (m : Machine σ) : SkipsOwnOnly P A e m ↔
    ClearOfPlanted P A e m := by
  constructor
  · intro h m' hsession hcause hplanted
    refine Bool.eq_false_of_not_eq_true fun hfound => ?_
    exact hit_is_skipped hsession hcause hplanted hfound h
  · intro h m' hsession hcause hchanged hplanted
    have hfound := (pc_handed_ne_iff hcause).mp hchanged
    rw [h m' hsession hcause hplanted] at hfound
    cases hfound

theorem everySkip_iff (P : Platform σ) (A : ExceptionArch σ) (m : Machine σ)
    (es : List (Raised σ)) :
    Every (Handles P A) (SkipsOwnOnly P A) m es ↔ Every (Handles P A) (ClearOfPlanted P A) m es :=
  every_congr skipsOwnOnly_iff es m

end Resume

/-- **Resuming skips only the program's own breakpoint instructions** in a run of exceptions exactly
when none of its sessions leaves the program counter at an active entry whose instruction is in
place: on X64, and on AArch64. -/
theorem resume_skips_own_iff (P : Platform σ) (O : X64.ContextOffsets) (O' : AArch64.ContextOffsets)
    (M : AArch64.MdscrAccess σ) (m : Machine σ) (es : List (Raised σ)) :
    (Every (Handles P (X64.exceptionArch O σ)) (SkipsOwnOnly P (X64.exceptionArch O σ)) m es ↔
      Every (Handles P (X64.exceptionArch O σ)) (ClearOfPlanted P (X64.exceptionArch O σ)) m es) ∧
    (Every (Handles P (AArch64.exceptionArch O' M))
        (SkipsOwnOnly P (AArch64.exceptionArch O' M)) m es ↔
      Every (Handles P (AArch64.exceptionArch O' M))
        (ClearOfPlanted P (AArch64.exceptionArch O' M)) m es) :=
  ⟨everySkip_iff P _ m es, everySkip_iff P _ m es⟩

/-! ## A breakpoint that is hit -/

/-- The context has `Rip` at its start. -/
def lowOffsets : X64.ContextOffsets := ⟨0, 8, by decide⟩

/-- The handler on a flat memory. -/
def flatArch : ExceptionArch FlatMachine := X64.exceptionArch lowOffsets FlatMachine

/-- A program of `NOP`s stops first with a fault. -/
def firstFault : Raised FlatMachine := ⟨13, 1, 2, fun _ => 0, ⟨fun _ => 0x90, []⟩, 0⟩

/-- Then it runs into the breakpoint at `0x10`. -/
def breakpointHit : Raised FlatMachine :=
  ⟨3, 1, 2, setWord (fun _ => 0) 0 0x11, ⟨fun x => if x = 0x10 then 0xCC else 0x90, []⟩, 0⟩

/-- The image as it is loaded. -/
def loaded : Machine FlatMachine := initial (Stub.initial ⟨fun _ => 0x90, []⟩)

/-- In the first session the breakpoint is inserted and the target resumed. -/
def insertTicks : List (Nat × List UInt8) :=
  (0, text "$Z0,10,1#74$vCont;c#a8") :: (List.replicate 48 (0, []) ++ List.replicate 3 (20, []))

/-- The first session, to its end. -/
def inserted : Machine FlatMachine :=
  (loaded.raise flatArch firstFault).ticks flatPlatform insertTicks

/-- In the second one it is resumed. -/
def resumeOnly : List (Nat × List UInt8) :=
  (0, text "$vCont;c#a8") :: (List.replicate 25 (0, []) ++ List.replicate 3 (20, []))

/-- The second session, to its end. -/
def resumedHit : Machine FlatMachine :=
  ((inserted.handBack flatPlatform flatArch firstFault).raise flatArch breakpointHit).ticks
  flatPlatform resumeOnly

/-- Ticks from the entry of an exception that is raised when nothing is stopped, to the end of its
stop. -/
theorem session_of_ticks {P : Platform σ} {A : ExceptionArch σ} {e : Raised σ} {m : Machine σ}
    {ts : List (Nat × List UInt8)} (hrunning : m.frames = [])
    (hinside : (m.raise A e).ticksInside P 0 ts = true)
    (hreturned : ((m.raise A e).ticks P ts).frames.isEmpty = true) :
    Session P A e m ((m.raise A e).ticks P ts) := by
  have hrun := run_ticks (P := P) 0 ts (m.raise A e) hinside
  refine ⟨_, hrun.mono fun k _ hk => ?_, ?_⟩
  · rw [hrunning]
    exact hk
  · rw [hrunning]
    exact List.isEmpty_iff.mp hreturned

/-- The breakpoint at `0x10` is hit and the target resumed: it goes on at `0x11`, inside of the
instruction that is there without the breakpoint. -/
theorem hit_breakpoint_skipped :
    ¬ Every (Handles flatPlatform flatArch) (SkipsOwnOnly flatPlatform flatArch) loaded
    [firstFault, breakpointHit] := by
  intro h
  have hfirst : Session flatPlatform flatArch firstFault loaded inserted :=
    session_of_ticks rfl (by decide +kernel) (by decide +kernel)
  have hframes : (inserted.handBack flatPlatform flatArch firstFault).frames = [] :=
    List.isEmpty_iff.mp (by decide +kernel)
  have hsecond : Session flatPlatform flatArch breakpointHit
      (inserted.handBack flatPlatform flatArch firstFault) resumedHit :=
    session_of_ticks hframes (by decide +kernel) (by decide +kernel)
  have hskips := (h.2 _ ⟨inserted, hfirst, rfl⟩).1 resumedHit hsecond rfl
  refine hskips ?_ ⟨⟨0, by decide⟩, ?_⟩
  · decide +kernel
  · decide +kernel

end Machine
end UefiDebugger
