import UefiDebugger.BreakpointTable

/-!
# Breakpoints on memory that fails

`AddSoftwareBreakpoint` and `RemoveSoftwareBreakpoint` discard the results of their memory accesses,
so their own results are right only when no access that failed was needed.  The condition on a call
is about the state before it and what memory does with its accesses.  It is exact for the single
call (`addTruthful_iff`, `removeTruthful_iff`), and a run whose calls all meet it never restores
anything but the bytes that a breakpoint replaced (`Faithful.along`).

The bytes that a breakpoint really replaced are kept in a ghost map from addresses, `originals`,
filled from the memory itself when a breakpoint is set.
-/
namespace UefiDebugger
open HexText ByteString PatchedMemory StateEffect

variable {σ : Type}

/-- The bytes at an address, for the length of the breakpoint instruction. -/
def bytesAt (P : Platform σ) (a : Nat) (t : σ) : List UInt8 :=
  readBlock (2 ^ 64) (P.view t) a P.mArchBreakpointInstructionSize

/-- The stub, and what was in memory at each address when its last breakpoint was set. -/
structure BreakpointHistory (σ : Type) where
  stub : Stub σ
  originals : Nat → List UInt8

namespace BreakpointHistory

/-- What the ghost knows after a call: a call that sets a new breakpoint makes history. -/
def record (P : Platform σ) (h : BreakpointHistory σ) : BreakpointCall → Nat → List UInt8
  | .add a => match freeSlot h.stub.mBreakpoints a with
      | some _ => Function.update h.originals a (bytesAt P a h.stub.target)
      | none => h.originals
  | .remove _ => h.originals

theorem record_of_none (P : Platform σ) {h : BreakpointHistory σ} {a : Nat}
    (hfree : freeSlot h.stub.mBreakpoints a = none) : h.record P (.add a) = h.originals := by
  rw [record, hfree]

theorem record_of_some (P : Platform σ) {h : BreakpointHistory σ} {a : Nat} {e : Fin maxBreakpoints}
    (hfree : freeSlot h.stub.mBreakpoints a = some e) : h.record P (.add a) =
      Function.update h.originals a (bytesAt P a h.stub.target) := by
  rw [record, hfree]

end BreakpointHistory

/-! ## What the results should mean -/

section Calls
variable (P : Platform σ) (h : BreakpointHistory σ) (a : Nat)

/-- The entry for `a` holds `original a`. -/
def Saved (t : BreakpointTable) (original : Nat → List UInt8) : Prop :=
  ∃ i, (t i).active = true ∧ (t i).address = a ∧ savedBytes P (t i) = original a

/-- A result of `AddSoftwareBreakpoint` tells the truth: on `TRUE` the breakpoint instruction is in
memory and the entry holds the bytes it replaced, on `FALSE` nothing changed. -/
def AddTruthful : Prop :=
  let r := (addSoftwareBreakpoint P a).run h.stub
  (r.1 = true → bytesAt P a r.2.target = P.mArchBreakpointInstruction ∧
    Saved P a r.2.mBreakpoints (h.record P (.add a))) ∧
  (r.1 = false → r.2.mBreakpoints = h.stub.mBreakpoints ∧ P.view r.2.target = P.view h.stub.target)

/-- A result of `RemoveSoftwareBreakpoint` tells the truth: on `TRUE` the bytes saved for the
address are back in memory, on `FALSE` the entries are kept. -/
def RemoveTruthful : Prop :=
  let r := (removeSoftwareBreakpoint P a).run h.stub
  (r.1 = true → ∃ i, removeScan h.stub.mBreakpoints a = some i ∧
    bytesAt P a r.2.target = savedBytes P (h.stub.mBreakpoints i)) ∧
  (r.1 = false → r.2.mBreakpoints = h.stub.mBreakpoints)

/-! ## When they do -/

/-- If the read of the bytes at `a` fails, what it left of slot `e` behind its partial transfer was
equal to them before. -/
def ReadNotNeeded (e : Fin maxBreakpoints) (s : Stub σ) : Prop :=
  let r := P.dbgReadMemory a P.mArchBreakpointInstructionSize s.target
  r.1 = false → slice (store (s.mBreakpoints e).originalValue 0 r.2.1) 0
    P.mArchBreakpointInstructionSize = bytesAt P a s.target

/-- If the write of `Data` to `a` fails, what it left behind its partial transfer was equal to it
before. -/
def WriteNotNeeded (Data : List UInt8) (t : σ) : Prop :=
  let w := P.dbgWriteMemory a Data t
  w.1 = false → bytesAt P a w.2 = Data

/-- The condition on a call of `AddSoftwareBreakpoint`: an address that has a breakpoint already has
a good one, and for a new one no access fails that was needed. -/
def AddCondition : Prop :=
  (a ∈ activeAddresses h.stub.mBreakpoints →
    bytesAt P a h.stub.target = P.mArchBreakpointInstruction ∧
      Saved P a h.stub.mBreakpoints h.originals) ∧
  ∀ e, freeSlot h.stub.mBreakpoints a = some e → ReadNotNeeded P a e h.stub ∧
    WriteNotNeeded P a P.mArchBreakpointInstruction
      (P.dbgReadMemory a P.mArchBreakpointInstructionSize h.stub.target).2.2

/-- The condition on a call of `RemoveSoftwareBreakpoint`: its write does not fail if it is
needed. -/
def RemoveCondition : Prop :=
  ∀ i, removeScan h.stub.mBreakpoints a = some i →
    WriteNotNeeded P a (savedBytes P (h.stub.mBreakpoints i)) h.stub.target

variable {P h a}

/-- A read that succeeds saves the bytes at the address. -/
theorem readNotNeeded_iff {e : Fin maxBreakpoints} {s : Stub σ} : ReadNotNeeded P a e s ↔
    slice (store (s.mBreakpoints e).originalValue 0
      (P.dbgReadMemory a P.mArchBreakpointInstructionSize s.target).2.1) 0
        P.mArchBreakpointInstructionSize = bytesAt P a s.target := by
  constructor
  · intro hneeded
    cases hr : (P.dbgReadMemory a P.mArchBreakpointInstructionSize s.target).1 with
    | false => exact hneeded hr
    | true =>
      rw [P.read_true _ _ _ hr]
      have hslice :=
        (holds_store (s.mBreakpoints e).originalValue 0 (bytesAt P a s.target)).slice_eq
      rwa [bytesAt, readBlock_length] at hslice
  · exact fun hsaved _ => hsaved

/-- A write that succeeds leaves its data in memory. -/
theorem writeNotNeeded_iff {Data : List UInt8} {t : σ}
    (hlen : Data.length = P.mArchBreakpointInstructionSize) :
    WriteNotNeeded P a Data t ↔ bytesAt P a (P.dbgWriteMemory a Data t).2 = Data := by
  constructor
  · intro hneeded
    cases hw : (P.dbgWriteMemory a Data t).1 with
    | false => exact hneeded hw
    | true =>
      rw [bytesAt, P.write_true _ _ _ hw, ← hlen]
      refine readBlock_writeBlock ?_
      rw [hlen]
      exact P.instruction_size.trans (by decide)
  · exact fun hdata _ => hdata

theorem savedBytes_planted {e : Fin maxBreakpoints} {s : Stub σ} :
    savedBytes P ((planted P a e s).mBreakpoints e) =
    slice (store (s.mBreakpoints e).originalValue 0
      (P.dbgReadMemory a P.mArchBreakpointInstructionSize s.target).2.1) 0
        P.mArchBreakpointInstructionSize := by
  show savedBytes P (Function.update s.mBreakpoints e _ e) = _
  rw [Function.update_self, savedBytes]

/-- Only the new entry is for a new address. -/
theorem saved_planted_iff {e : Fin maxBreakpoints} {s : Stub σ} {original : Nat → List UInt8}
    (hnew : a ∉ activeAddresses s.mBreakpoints) :
    Saved P a (planted P a e s).mBreakpoints original ↔
      savedBytes P ((planted P a e s).mBreakpoints e) = original a := by
  have hself : (planted P a e s).mBreakpoints e =
      ⟨true, a, store (s.mBreakpoints e).originalValue 0
        (P.dbgReadMemory a P.mArchBreakpointInstructionSize s.target).2.1⟩ :=
    Function.update_self ..
  constructor
  · rintro ⟨i, hi, ha, hsaved⟩
    have hie : i = e := by
      by_contra hie
      have hother : (planted P a e s).mBreakpoints i = s.mBreakpoints i :=
        Function.update_of_ne hie ..
      rw [hother] at hi ha
      exact hnew (mem_activeAddresses.mpr ⟨i, hi, ha⟩)
    rwa [hie] at hsaved
  · intro hsaved
    exact ⟨e, by rw [hself], by rw [hself], hsaved⟩

/-- **When `AddSoftwareBreakpoint` tells the truth.** -/
theorem addTruthful_iff : AddTruthful P h a ↔ AddCondition P h a := by
  rw [AddTruthful, AddCondition]
  rcases addSoftwareBreakpoint_cases P a h.stub with
    ⟨hmem, hfree, hrun⟩ | ⟨hnew, -, hfree, hrun⟩ | ⟨hnew, e, -, hfree, hrun⟩
  · rw [hrun, h.record_of_none P hfree, hfree]
    constructor
    · exact fun htruth => ⟨fun _ => htruth.1 rfl, fun _ he => (nomatch he)⟩
    · exact fun hcond => ⟨fun _ => hcond.1 hmem, fun hfalse => (nomatch hfalse)⟩
  · rw [hrun, hfree]
    constructor
    · exact fun _ => ⟨fun hmem => absurd hmem hnew, fun _ he => (nomatch he)⟩
    · exact fun _ => ⟨fun htrue => (nomatch htrue), fun _ => ⟨rfl, rfl⟩⟩
  · rw [hrun, h.record_of_some P hfree, hfree]
    have hsaved : Saved P a (planted P a e h.stub).mBreakpoints
        (Function.update h.originals a (bytesAt P a h.stub.target)) ↔
        ReadNotNeeded P a e h.stub := by
      rw [saved_planted_iff hnew, Function.update_self, readNotNeeded_iff, savedBytes_planted]
    have hplanted : bytesAt P a (planted P a e h.stub).target = P.mArchBreakpointInstruction ↔
        WriteNotNeeded P a P.mArchBreakpointInstruction
          (P.dbgReadMemory a P.mArchBreakpointInstructionSize h.stub.target).2.2 :=
      (writeNotNeeded_iff rfl).symm
    constructor
    · intro htruth
      obtain ⟨hinstruction, hentry⟩ := htruth.1 rfl
      refine ⟨fun hmem => absurd hmem hnew, fun e' he => ?_⟩
      cases he
      exact ⟨hsaved.mp hentry, hplanted.mp hinstruction⟩
    · intro hcond
      obtain ⟨hread, hwrite⟩ := hcond.2 e rfl
      exact ⟨fun _ => ⟨hplanted.mpr hwrite, hsaved.mpr hread⟩, fun hfalse => (nomatch hfalse)⟩

/-- **When `RemoveSoftwareBreakpoint` tells the truth.** -/
theorem removeTruthful_iff : RemoveTruthful P h a ↔ RemoveCondition P h a := by
  rw [RemoveTruthful, RemoveCondition]
  rcases removeSoftwareBreakpoint_cases P a h.stub with ⟨-, hscan, hrun⟩ | ⟨i, -, -, hscan, hrun⟩
  · rw [hrun, hscan]
    constructor
    · exact fun _ _ hi => (nomatch hi)
    · exact fun _ => ⟨fun htrue => (nomatch htrue), fun _ => rfl⟩
  · rw [hrun, hscan]
    have hlen : (savedBytes P (h.stub.mBreakpoints i)).length = P.mArchBreakpointInstructionSize :=
      slice_length ..
    constructor
    · intro htruth j hj
      obtain ⟨k, hk, hback⟩ := htruth.1 rfl
      cases hj
      cases hk
      exact (writeNotNeeded_iff hlen).mpr hback
    · intro hcond
      exact ⟨fun _ => ⟨i, rfl, (writeNotNeeded_iff hlen).mp (hcond i rfl)⟩,
        fun hfalse => (nomatch hfalse)⟩

/-- Successful accesses are all it takes. -/
theorem addCondition_of_success (hnew : a ∉ activeAddresses h.stub.mBreakpoints)
    (hread : (P.dbgReadMemory a P.mArchBreakpointInstructionSize h.stub.target).1 = true)
    (hwrite : (P.dbgWriteMemory a P.mArchBreakpointInstruction
      (P.dbgReadMemory a P.mArchBreakpointInstructionSize h.stub.target).2.2).1 = true) :
    AddCondition P h a := by
  refine ⟨fun hmem => absurd hmem hnew, fun e _ => ⟨fun hfailed => ?_, fun hfailed => ?_⟩⟩
  · rw [hread] at hfailed
    cases hfailed
  · rw [hwrite] at hfailed
    cases hfailed

theorem removeCondition_of_success (hwrite : ∀ i, removeScan h.stub.mBreakpoints a = some i →
    (P.dbgWriteMemory a (savedBytes P (h.stub.mBreakpoints i)) h.stub.target).1 = true) :
    RemoveCondition P h a := by
  intro i hi hfailed
  rw [hwrite i hi] at hfailed
  cases hfailed

end Calls

/-! ## Runs -/

/-- A call, or the machine going on to another state: the target runs, pages come and go. -/
inductive BreakpointEvent (σ : Type) where
  | call (c : BreakpointCall)
  | machine (t : σ)

namespace BreakpointHistory
variable (P : Platform σ)

def step (h : BreakpointHistory σ) : BreakpointEvent σ → BreakpointHistory σ
  | .call c => ⟨((c.make P).run h.stub).2, h.record P c⟩
  | .machine t => ⟨{ h.stub with target := t }, h.originals⟩

/-- The condition on an event. -/
def Meets (h : BreakpointHistory σ) : BreakpointEvent σ → Prop
  | .call (.add a) => AddCondition P h a
  | .call (.remove a) => RemoveCondition P h a
  | .machine _ => True

/-- The result of a call tells the truth. -/
def Truthful (h : BreakpointHistory σ) : BreakpointEvent σ → Prop
  | .call (.add a) => AddTruthful P h a
  | .call (.remove a) => RemoveTruthful P h a
  | .machine _ => True

/-- What an event restores is what was in memory when the breakpoint was set. -/
def RestoresOriginals (h : BreakpointHistory σ) (e : BreakpointEvent σ) : Prop :=
  ∀ x ∈ (h.step P e).stub.accesses.drop h.stub.accesses.length, x.site = .restore →
    x.data = h.originals x.address

/-- `Q` holds of every event of a run. -/
def Along (Q : BreakpointHistory σ → BreakpointEvent σ → Prop) :
    BreakpointHistory σ → List (BreakpointEvent σ) → Prop
  | _, [] => True
  | h, e :: es => Q h e ∧ Along Q (h.step P e) es

/-- Every entry in use holds what was in memory when its breakpoint was set. -/
def Faithful (h : BreakpointHistory σ) : Prop :=
  ∀ i, (h.stub.mBreakpoints i).active = true →
    savedBytes P (h.stub.mBreakpoints i) = h.originals (h.stub.mBreakpoints i).address

variable {P} {h : BreakpointHistory σ}

theorem truthful_iff (e : BreakpointEvent σ) : h.Truthful P e ↔ h.Meets P e := by
  cases e with
  | call c =>
    cases c with
    | add a => exact addTruthful_iff
    | remove a => exact removeTruthful_iff
  | machine t => exact Iff.rfl

/-- A new breakpoint whose read did its work. -/
theorem Faithful.plant (hf : h.Faithful P) {a : Nat}
    (hnew : a ∉ activeAddresses h.stub.mBreakpoints) {e : Fin maxBreakpoints}
    (hfree : freeSlot h.stub.mBreakpoints a = some e) (hread : ReadNotNeeded P a e h.stub) :
    Faithful P ⟨planted P a e h.stub, h.record P (.add a)⟩ := by
  intro i hi
  rw [h.record_of_some P hfree]
  by_cases hie : i = e
  · subst hie
    have haddress : ((planted P a i h.stub).mBreakpoints i).address = a := by
      show (Function.update h.stub.mBreakpoints i _ i).address = a
      rw [Function.update_self]
    dsimp only
    rw [haddress, Function.update_self, savedBytes_planted]
    exact readNotNeeded_iff.mp hread
  · have hother : (planted P a e h.stub).mBreakpoints i = h.stub.mBreakpoints i :=
      Function.update_of_ne hie ..
    dsimp only at hi ⊢
    rw [hother] at hi ⊢
    have hne : (h.stub.mBreakpoints i).address ≠ a := fun ha =>
      hnew (mem_activeAddresses.mpr ⟨i, hi, ha⟩)
    rw [Function.update_of_ne hne]
    exact hf i hi

theorem Faithful.release (hf : h.Faithful P) (a : Nat) (i : Fin maxBreakpoints) :
    Faithful P ⟨restored P a i h.stub, h.originals⟩ := by
  intro j hj
  obtain ⟨hji, hj⟩ := releaseSlot_active.mp hj
  show savedBytes P (releaseSlot h.stub.mBreakpoints i j) =
    h.originals (releaseSlot h.stub.mBreakpoints i j).address
  rw [releaseSlot_of_ne hji]
  exact hf j hj

/-- An event that meets its condition keeps the entries faithful, and restores from a faithful
entry. -/
theorem Faithful.step (hf : h.Faithful P) {e : BreakpointEvent σ} (hmeets : h.Meets P e) :
    (h.step P e).Faithful P ∧ h.RestoresOriginals P e := by
  cases e with
  | machine t =>
    refine ⟨hf, fun x hx => ?_⟩
    rw [show (h.step P (.machine t)).stub.accesses = h.stub.accesses from rfl,
      List.drop_length] at hx
    cases hx
  | call c =>
    cases c with
    | add a =>
      rw [RestoresOriginals, BreakpointHistory.step, BreakpointCall.make]
      rcases addSoftwareBreakpoint_cases P a h.stub with
        ⟨-, hfree, hrun⟩ | ⟨-, -, hfree, hrun⟩ | ⟨hnew, k, -, hfree, hrun⟩
      · rw [hrun, h.record_of_none P hfree]
        refine ⟨hf, fun x hx => ?_⟩
        rw [List.drop_length] at hx
        cases hx
      · rw [hrun, h.record_of_none P hfree]
        refine ⟨hf, fun x hx => ?_⟩
        rw [List.drop_length] at hx
        cases hx
      · rw [hrun]
        refine ⟨hf.plant hnew hfree (hmeets.2 k hfree).1, fun x hx hsite => ?_⟩
        -- The two accesses of a new breakpoint restore nothing.
        rw [show (planted P a k h.stub).accesses = h.stub.accesses ++ [_, _] from rfl,
          List.drop_left] at hx
        rcases List.mem_cons.mp hx with rfl | hx
        · cases hsite
        · rw [List.mem_singleton.mp hx] at hsite
          cases hsite
    | remove a =>
      rw [RestoresOriginals, BreakpointHistory.step, BreakpointCall.make]
      rcases removeSoftwareBreakpoint_cases P a h.stub with ⟨-, -, hrun⟩ | ⟨i, hi, ha, -, hrun⟩
      · rw [hrun]
        refine ⟨hf, fun x hx => ?_⟩
        rw [List.drop_length] at hx
        cases hx
      · rw [hrun]
        refine ⟨hf.release a i, fun x hx _ => ?_⟩
        rw [show (restored P a i h.stub).accesses = h.stub.accesses ++ [_] from rfl,
          List.drop_left] at hx
        rw [List.mem_singleton.mp hx, ← ha]
        exact hf i hi

/-- A run meets the conditions when its calls tell the truth, and then restores original bytes
only. -/
theorem Faithful.along : ∀ (es : List (BreakpointEvent σ)) {h : BreakpointHistory σ}, h.Faithful P →
    (Along P (fun h e => h.Truthful P e ∧ h.RestoresOriginals P e) h es ↔ Along P (Meets P) h es)
  | [], _, _ => Iff.rfl
  | e :: es, h, hf => by
      constructor
      · rintro ⟨⟨htruth, -⟩, hrest⟩
        have hmeets : h.Meets P e := (truthful_iff e).mp htruth
        exact ⟨hmeets, (Faithful.along es (hf.step hmeets).1).mp hrest⟩
      · rintro ⟨hmeets, hrest⟩
        obtain ⟨hnext, hrestores⟩ := hf.step hmeets
        exact ⟨⟨(truthful_iff e).mpr hmeets, hrestores⟩, (Faithful.along es hnext).mpr hrest⟩

end BreakpointHistory

open BreakpointHistory in
/-- **Breakpoints tell the truth exactly when no access that fails was needed.**  The result of a
call is right exactly when the call meets its condition, from any state; and a run from an empty
table whose calls all meet it restores nothing but what was in memory when a breakpoint was set. -/
theorem breakpoints_truthful_iff (P : Platform σ) :
    (∀ (h : BreakpointHistory σ) (a : Nat), (AddTruthful P h a ↔ AddCondition P h a) ∧
      (RemoveTruthful P h a ↔ RemoveCondition P h a)) ∧
    ∀ (h : BreakpointHistory σ) (es : List (BreakpointEvent σ)),
      (∀ i, (h.stub.mBreakpoints i).active = false) →
        (Along P (fun h e => h.Truthful P e ∧ h.RestoresOriginals P e) h es ↔
          Along P (Meets P) h es) := by
  refine ⟨fun h a => ⟨addTruthful_iff, removeTruthful_iff⟩, fun h es hempty => ?_⟩
  refine Faithful.along es fun i hi => ?_
  rw [hempty i] at hi
  cases hi

open BreakpointHistory in
/-- A breakpoint set and removed while the target changes other memory. -/
theorem breakpoints_truthful_iff_success :
    let h : BreakpointHistory FlatMachine := ⟨Stub.initial ⟨fun _ => 0x90, []⟩, fun _ => []⟩
    Along flatPlatform (fun h e => h.Truthful flatPlatform e ∧ h.RestoresOriginals flatPlatform e) h
      [.call (.add 16), .machine ⟨fun x => if x = 16 then 0xCC else 0, []⟩,
        .call (.remove 16)] := by
  intro h
  refine ((breakpoints_truthful_iff flatPlatform).2 h _ fun _ => rfl).mpr ⟨?_, trivial, ?_, trivial⟩
  · exact addCondition_of_success (by decide +kernel) rfl rfl
  · exact removeCondition_of_success fun _ _ => rfl

open BreakpointHistory in
/-- A read that fails, with writes that work: the reply is `TRUE` without the bytes at the address,
and the removal writes a byte there that never was there. -/
theorem failed_read_restores_other_bytes :
    let h : BreakpointHistory FlatMachine := ⟨Stub.initial ⟨fun _ => 0x90, [true]⟩, fun _ => []⟩
    let h' := h.step flatPlatform (.call (.add 16))
    ¬ AddTruthful flatPlatform h 16 ∧
      ((removeSoftwareBreakpoint flatPlatform 16).run h'.stub).2.target.memory 16 = 0 ∧
      ¬ h'.RestoresOriginals flatPlatform (.call (.remove 16)) := by
  intro h h'
  refine ⟨fun htruth => ?_, by decide +kernel, fun hrestores => ?_⟩
  · obtain ⟨-, i, hi, ha, hsaved⟩ := htruth.1 (by decide +kernel)
    have hnone : ∀ i,
        (((addSoftwareBreakpoint flatPlatform 16).run h.stub).2.mBreakpoints i).active = true →
        savedBytes flatPlatform
        (((addSoftwareBreakpoint flatPlatform 16).run h.stub).2.mBreakpoints i) ≠
        h.record flatPlatform (.add 16) 16 := by decide +kernel
    exact hnone i hi hsaved
  · have hall : (((h'.step flatPlatform (.call (.remove 16))).stub.accesses.drop
        h'.stub.accesses.length).all fun x =>
        x.site != .restore || x.data == h'.originals x.address) =
        false := by decide +kernel
    refine absurd (List.all_eq_true.mpr fun x hx => ?_) (Bool.eq_false_iff.mp hall)
    by_cases hsite : x.site = .restore
    · rw [hrestores x hx hsite, beq_self_eq_true, Bool.or_true]
    · rw [bne_iff_ne.mpr hsite, Bool.true_or]

end UefiDebugger
