import UefiDebugger.Breakpoint
import UefiDebugger.FlatMachine
import Mathlib.Data.Finset.Card
import Mathlib.Data.Fintype.Card

/-!
# The breakpoint table

What one call of `AddSoftwareBreakpoint` or `RemoveSoftwareBreakpoint` can do is said once
(`addSoftwareBreakpoint_cases`, `removeSoftwareBreakpoint_cases`), whether or not its memory
accesses succeed.  `Tracks` ties the table to the machine's memory and a *shadow*, the memory as it
would be without breakpoints; calls whose accesses succeed keep it (`Tracks.add`, `Tracks.remove`),
and so does every run of them.
-/
namespace UefiDebugger
open HexText ByteString PatchedMemory StateEffect

variable {σ : Type}

/-! ## The active entries -/

/-- The slots in use. -/
def activeSlots (t : BreakpointTable) : Finset (Fin maxBreakpoints) :=
  Finset.univ.filter fun i => (t i).active = true

/-- The addresses with a breakpoint. -/
def activeAddresses (t : BreakpointTable) : Finset Nat :=
  (activeSlots t).image fun i => (t i).address

theorem mem_activeSlots {t : BreakpointTable} {i : Fin maxBreakpoints} :
    i ∈ activeSlots t ↔ (t i).active = true := by simp [activeSlots]

theorem mem_activeAddresses {t : BreakpointTable} {a : Nat} :
    a ∈ activeAddresses t ↔ ∃ i, (t i).active = true ∧ (t i).address = a := by
  simp [activeAddresses, mem_activeSlots]

theorem activeAddresses_eq_empty {t : BreakpointTable} (h : ∀ i, (t i).active = false) :
    activeAddresses t = ∅ := by
  refine Finset.eq_empty_of_forall_notMem fun a ha => ?_
  obtain ⟨i, hi, -⟩ := mem_activeAddresses.mp ha
  rw [h i] at hi
  cases hi

/-- No two active entries share an address. -/
def Distinct (t : BreakpointTable) : Prop :=
  ∀ i j, (t i).active = true → (t j).active = true → (t i).address = (t j).address → i = j

theorem card_activeAddresses {t : BreakpointTable} (h : Distinct t) :
    (activeAddresses t).card = (activeSlots t).card :=
  Finset.card_image_of_injOn fun i hi j hj hij =>
    h i j (mem_activeSlots.mp hi) (mem_activeSlots.mp hj) hij

section Update
variable {t : BreakpointTable} {e : Fin maxBreakpoints} {a : Nat} {o : Nat → UInt8}

/-- Taking a free slot into use. -/
theorem activeAddresses_plant (he : (t e).active = false) :
    activeAddresses (Function.update t e ⟨true, a, o⟩) = insert a (activeAddresses t) := by
  ext x
  rw [Finset.mem_insert, mem_activeAddresses, mem_activeAddresses]
  constructor
  · rintro ⟨i, hi, hx⟩
    by_cases hie : i = e
    · subst hie
      rw [Function.update_self] at hx
      exact Or.inl hx.symm
    · rw [Function.update_of_ne hie] at hi hx
      exact Or.inr ⟨i, hi, hx⟩
  · rintro (rfl | ⟨i, hi, hx⟩)
    · exact ⟨e, by rw [Function.update_self], by rw [Function.update_self]⟩
    · have hie : i ≠ e := fun h => by rw [h, he] at hi; cases hi
      exact ⟨i, by rw [Function.update_of_ne hie]; exact hi,
        by rw [Function.update_of_ne hie]; exact hx⟩

theorem Distinct.plant (h : Distinct t) (hnew : a ∉ activeAddresses t) :
    Distinct (Function.update t e ⟨true, a, o⟩) := by
  intro i j hi hj hij
  by_cases hie : i = e <;> by_cases hje : j = e
  · rw [hie, hje]
  · subst hie
    rw [Function.update_self, Function.update_of_ne hje] at hij
    rw [Function.update_of_ne hje] at hj
    exact absurd (mem_activeAddresses.mpr ⟨j, hj, hij.symm⟩) hnew
  · subst hje
    rw [Function.update_self, Function.update_of_ne hie] at hij
    rw [Function.update_of_ne hie] at hi
    exact absurd (mem_activeAddresses.mpr ⟨i, hi, hij⟩) hnew
  · rw [Function.update_of_ne hie] at hi hij
    rw [Function.update_of_ne hje] at hj hij
    exact h i j hi hj hij

/-- The table after a removal from a slot. -/
def releaseSlot (t : BreakpointTable) (i : Fin maxBreakpoints) : BreakpointTable :=
  Function.update t i { t i with active := false }

theorem releaseSlot_active {i j : Fin maxBreakpoints} :
    (releaseSlot t i j).active = true ↔ j ≠ i ∧ (t j).active = true := by
  by_cases hji : j = i
  · subst hji
    simp [releaseSlot]
  · simp [releaseSlot, hji]

theorem releaseSlot_of_ne {i j : Fin maxBreakpoints} (h : j ≠ i) : releaseSlot t i j = t j :=
  Function.update_of_ne h ..

theorem activeAddresses_release (h : Distinct t) {i : Fin maxBreakpoints} (hi : (t i).active = true)
    (ha : (t i).address = a) : activeAddresses (releaseSlot t i) = (activeAddresses t).erase a := by
  ext x
  rw [Finset.mem_erase, mem_activeAddresses, mem_activeAddresses]
  constructor
  · rintro ⟨j, hj, hx⟩
    obtain ⟨hji, hj⟩ := releaseSlot_active.mp hj
    rw [releaseSlot_of_ne hji] at hx
    refine ⟨fun hxa => hji (h j i hj hi ?_), j, hj, hx⟩
    rw [hx, hxa, ha]
  · rintro ⟨hxa, j, hj, hx⟩
    have hji : j ≠ i := fun he => hxa (by rw [← hx, he, ha])
    exact ⟨j, releaseSlot_active.mpr ⟨hji, hj⟩, by rw [releaseSlot_of_ne hji]; exact hx⟩

theorem Distinct.release (h : Distinct t) (i : Fin maxBreakpoints) :
    Distinct (releaseSlot t i) := by
  intro j k hj hk hjk
  obtain ⟨hji, hj⟩ := releaseSlot_active.mp hj
  obtain ⟨hki, hk⟩ := releaseSlot_active.mp hk
  rw [releaseSlot_of_ne hji, releaseSlot_of_ne hki] at hjk
  exact h j k hj hk hjk

end Update

/-! ## What one call can do -/

/-- What the scan of `AddSoftwareBreakpoint` finds out. -/
theorem addScan_spec (t : BreakpointTable) (a : Nat) :
    ∀ (l : List (Fin maxBreakpoints)) (e₀ : Option (Fin maxBreakpoints)),
      match addScan t a l e₀ with
      | .duplicate => ∃ i ∈ l, (t i).active = true ∧ (t i).address = a
      | .free e => (∀ i ∈ l, ¬ ((t i).active = true ∧ (t i).address = a)) ∧
          (e = none → e₀ = none ∧ ∀ i ∈ l, (t i).active = true) ∧
          ∀ k, e = some k → e₀ = some k ∨ (t k).active = false
  | [], e₀ =>
      ⟨fun _ h => absurd h List.not_mem_nil, fun h => ⟨h, fun _ h => absurd h List.not_mem_nil⟩,
      fun _ h => Or.inl h⟩
  | i :: l, e₀ => by
      rw [addScan]
      by_cases hi : (t i).active = true ∧ (t i).address = a
      · rw [if_pos hi]
        exact ⟨i, List.mem_cons_self .., hi⟩
      · rw [if_neg hi]
        have ih := addScan_spec t a l (if (t i).active = false ∧ e₀ = none then some i else e₀)
        generalize addScan t a l _ = r at ih
        cases r with
        | duplicate =>
          obtain ⟨j, hj, h⟩ := ih
          exact ⟨j, List.mem_cons_of_mem _ hj, h⟩
        | free e =>
          obtain ⟨hnone, hfull, hfree⟩ := ih
          refine ⟨?_, ?_, ?_⟩
          · intro j hj
            rcases List.mem_cons.mp hj with rfl | hj
            · exact hi
            · exact hnone j hj
          · -- No entry is free: neither this one, nor one behind it, nor one found in front.
            intro he
            obtain ⟨h0, hrest⟩ := hfull he
            split at h0
            · cases h0
            · rename_i hguard
              refine ⟨h0, fun j hj => ?_⟩
              rcases List.mem_cons.mp hj with rfl | hj
              · by_contra hinactive
                exact hguard ⟨Bool.eq_false_of_not_eq_true hinactive, h0⟩
              · exact hrest j hj
          · intro k he
            rcases hfree k he with h | h
            · split at h
              · rename_i hguard
                cases h
                exact Or.inr hguard.1
              · exact Or.inl h
            · exact Or.inr h

/-- The free slot `AddSoftwareBreakpoint` takes. -/
def freeSlot (t : BreakpointTable) (a : Nat) : Option (Fin maxBreakpoints) :=
  match addScan t a (List.finRange maxBreakpoints) none with
  | .duplicate => none
  | .free e => e

/-- The state after a breakpoint at `a` was put into slot `e`. -/
def planted (P : Platform σ) (a : Nat) (e : Fin maxBreakpoints) (s : Stub σ) : Stub σ :=
  let r := P.dbgReadMemory a P.mArchBreakpointInstructionSize s.target
  let w := P.dbgWriteMemory a P.mArchBreakpointInstruction r.2.2
  { s with
    mBreakpoints := Function.update s.mBreakpoints e
      ⟨true, a, store (s.mBreakpoints e).originalValue 0 r.2.1⟩
    target := w.2
    accesses := s.accesses ++ [⟨.saveOriginal, false, a, r.2.1, r.1⟩,
      ⟨.plant, true, a, P.mArchBreakpointInstruction, w.1⟩] }

/-- **What `AddSoftwareBreakpoint` can do**: find a duplicate, find no slot, or plant. -/
theorem addSoftwareBreakpoint_cases (P : Platform σ) (a : Nat) (s : Stub σ) :
    (a ∈ activeAddresses s.mBreakpoints ∧ freeSlot s.mBreakpoints a = none ∧
      (addSoftwareBreakpoint P a).run s = (true, s)) ∨
    (a ∉ activeAddresses s.mBreakpoints ∧ activeSlots s.mBreakpoints = Finset.univ ∧
      freeSlot s.mBreakpoints a = none ∧ (addSoftwareBreakpoint P a).run s = (false, { s with
        failedAsserts := s.failedAsserts ++ [.breakpointTableFull] })) ∨
    (a ∉ activeAddresses s.mBreakpoints ∧ ∃ e, (s.mBreakpoints e).active = false ∧
      freeSlot s.mBreakpoints a = some e ∧
      (addSoftwareBreakpoint P a).run s = (true, planted P a e s)) := by
  have hsize : decide (P.mArchBreakpointInstructionSize ≤ maxBreakpointSize) = true :=
    decide_eq_true P.instruction_size
  have hscan := addScan_spec s.mBreakpoints a (List.finRange maxBreakpoints) none
  rw [addSoftwareBreakpoint, run_bind, assert_run, hsize, if_pos rfl, run_bind, run_get, freeSlot]
  cases hr : addScan s.mBreakpoints a (List.finRange maxBreakpoints) none with
  | duplicate =>
    rw [hr] at hscan
    obtain ⟨i, -, hi⟩ := hscan
    exact Or.inl ⟨mem_activeAddresses.mpr ⟨i, hi⟩, rfl, rfl⟩
  | free e =>
    rw [hr] at hscan
    obtain ⟨hnone, hfull, hfree⟩ := hscan
    have hnew : a ∉ activeAddresses s.mBreakpoints := fun h => by
      obtain ⟨i, hi⟩ := mem_activeAddresses.mp h
      exact hnone i (List.mem_finRange i) hi
    right
    cases e with
    | none =>
      refine Or.inl ⟨hnew, ?_, rfl, rfl⟩
      exact Finset.eq_univ_of_forall fun i =>
        mem_activeSlots.mpr ((hfull rfl).2 i (List.mem_finRange i))
    | some e =>
      have he : (s.mBreakpoints e).active = false := by
        rcases hfree e rfl with h | h
        · cases h
        · exact h
      refine Or.inr ⟨hnew, e, he, rfl, ?_⟩
      simp [setBreakpoint, dbgReadMemory, dbgWriteMemory, planted]

/-- The state after the breakpoint in slot `i` at `a` was removed. -/
def restored (P : Platform σ) (a : Nat) (i : Fin maxBreakpoints) (s : Stub σ) : Stub σ :=
  let w := P.dbgWriteMemory a (savedBytes P (s.mBreakpoints i)) s.target
  { s with
    mBreakpoints := releaseSlot s.mBreakpoints i
    target := w.2
    accesses := s.accesses ++ [⟨.restore, true, a, savedBytes P (s.mBreakpoints i), w.1⟩] }

/-- **What `RemoveSoftwareBreakpoint` can do**: find nothing, or restore. -/
theorem removeSoftwareBreakpoint_cases (P : Platform σ) (a : Nat) (s : Stub σ) :
    (a ∉ activeAddresses s.mBreakpoints ∧ removeScan s.mBreakpoints a = none ∧
      (removeSoftwareBreakpoint P a).run s = (false, s)) ∨
    (∃ i, (s.mBreakpoints i).active = true ∧ (s.mBreakpoints i).address = a ∧
      removeScan s.mBreakpoints a = some i ∧
      (removeSoftwareBreakpoint P a).run s = (true, restored P a i s)) := by
  rw [removeSoftwareBreakpoint, run_bind, run_get]
  dsimp only
  cases hr : removeScan s.mBreakpoints a with
  | none =>
    refine Or.inl ⟨fun h => ?_, rfl, rfl⟩
    obtain ⟨i, hi, ha⟩ := mem_activeAddresses.mp h
    have := List.find?_eq_none.mp hr i (List.mem_finRange i)
    simp [hi, ha] at this
  | some i =>
    have hi := List.find?_some hr
    simp only [Bool.and_eq_true, decide_eq_true_eq] at hi
    exact Or.inr ⟨i, hi.1, hi.2, rfl, rfl⟩

/-! ## Accesses that succeed -/

/-- The accesses made from `s` to `t` all succeeded. -/
def AccessesSucceed (s t : Stub σ) : Prop :=
  ∃ made, t.accesses = s.accesses ++ made ∧ ∀ a ∈ made, a.success = true

/-- What succeeds as a whole succeeds in its parts. -/
theorem AccessesSucceed.split {s u t : Stub σ} (h : AccessesSucceed s t)
    (h1 : s.accesses <+: u.accesses) (h2 : u.accesses <+: t.accesses) :
    AccessesSucceed s u ∧ AccessesSucceed u t := by
  obtain ⟨made, hmade, hall⟩ := h
  obtain ⟨as, has⟩ := h1
  obtain ⟨bs, hbs⟩ := h2
  have hsplit : made = as ++ bs := by
    rw [← has, List.append_assoc, hmade] at hbs
    exact (List.append_cancel_left hbs).symm
  exact ⟨⟨as, has.symm, fun a ha => hall a (hsplit ▸ List.mem_append_left _ ha)⟩,
    ⟨bs, hbs.symm, fun a ha => hall a (hsplit ▸ List.mem_append_right _ ha)⟩⟩

/-- The accesses of one step are the ones it added. -/
theorem AccessesSucceed.all {s t : Stub σ} (h : AccessesSucceed s t) {made : List Access}
    (hmade : t.accesses = s.accesses ++ made) : ∀ a ∈ made, a.success = true := by
  obtain ⟨made', h', hall⟩ := h
  rwa [List.append_cancel_left (h'.symm.trans hmade)] at hall

/-! ## The invariant -/

section Invariant
variable (P : Platform σ)

/-- The breakpoints are at addresses in `S`, their entries hold what the shadow has there, and off
the breakpoints the memory is the shadow. -/
structure Tracks (S : Set Nat) (shadow : Nat → UInt8) (s : Stub σ) : Prop where
  within : ∀ a ∈ activeAddresses s.mBreakpoints, a ∈ S
  distinct : Distinct s.mBreakpoints
  saved : ∀ i, (s.mBreakpoints i).active = true → savedBytes P (s.mBreakpoints i) =
    readBlock (2 ^ 64) shadow (s.mBreakpoints i).address P.mArchBreakpointInstructionSize
  agree : AgreeOff (2 ^ 64) P.mArchBreakpointInstructionSize (activeAddresses s.mBreakpoints)
    (P.view s.target) shadow

/-- The breakpoint instruction is in place at every breakpoint. -/
def InPlace (s : Stub σ) : Prop :=
  ∀ a ∈ activeAddresses s.mBreakpoints,
    readBlock (2 ^ 64) (P.view s.target) a P.mArchBreakpointInstructionSize =
      P.mArchBreakpointInstruction

variable {P} {S : Set Nat} {shadow : Nat → UInt8} {s : Stub σ} {a : Nat}

/-- Planting with both accesses successful. -/
theorem planted_view {e : Fin maxBreakpoints} (hok : AccessesSucceed s (planted P a e s)) :
    P.view (planted P a e s).target =
        writeBlock (2 ^ 64) (P.view s.target) a P.mArchBreakpointInstruction ∧
      (P.dbgReadMemory a P.mArchBreakpointInstructionSize s.target).2.1 =
        readBlock (2 ^ 64) (P.view s.target) a P.mArchBreakpointInstructionSize := by
  have hall := hok.all rfl
  have hread := hall _ (List.mem_cons_self ..)
  have hwrite := hall _ (List.mem_cons_of_mem _ (List.mem_singleton_self _))
  refine ⟨?_, P.read_true _ _ _ hread⟩
  rw [← P.read_view a P.mArchBreakpointInstructionSize s.target]
  exact P.write_true _ _ _ hwrite

/-- A new breakpoint saves what the shadow has at its address. -/
theorem Tracks.plant (h : Tracks P S shadow s)
    (hS : Apart (2 ^ 64) P.mArchBreakpointInstructionSize S) (ha : a ∈ S)
    (hnew : a ∉ activeAddresses s.mBreakpoints) {e : Fin maxBreakpoints}
    (he : (s.mBreakpoints e).active = false) (hok : AccessesSucceed s (planted P a e s)) :
    Tracks P S shadow (planted P a e s) := by
  obtain ⟨hview, hdata⟩ := planted_view hok
  have haddresses : activeAddresses (planted P a e s).mBreakpoints =
      insert a (activeAddresses s.mBreakpoints) := activeAddresses_plant he
  refine ⟨?_, h.distinct.plant hnew, ?_, ?_⟩
  · intro b hb
    rw [haddresses] at hb
    rcases Finset.mem_insert.mp hb with rfl | hb
    · exact ha
    · exact h.within b hb
  · intro i hi
    by_cases hie : i = e
    · subst hie
      show savedBytes P (Function.update s.mBreakpoints i _ i) =
        readBlock _ _ (Function.update s.mBreakpoints i _ i).address _
      rw [Function.update_self, savedBytes, hdata]
      have hslice := (holds_store (s.mBreakpoints i).originalValue 0 (readBlock (2 ^ 64)
        (P.view s.target) a P.mArchBreakpointInstructionSize)).slice_eq
      rw [readBlock_length] at hslice
      exact hslice.trans (h.agree.readBlock hS h.within ha hnew)
    · have hother : (planted P a e s).mBreakpoints i = s.mBreakpoints i :=
        Function.update_of_ne hie ..
      rw [hother] at hi ⊢
      exact h.saved i hi
  · rw [haddresses, hview]
    exact h.agree.plant rfl

theorem InPlace.plant (h : InPlace P s) (hS : Apart (2 ^ 64) P.mArchBreakpointInstructionSize S)
    (hwithin : ∀ b ∈ activeAddresses s.mBreakpoints, b ∈ S) (ha : a ∈ S) {e : Fin maxBreakpoints}
    (he : (s.mBreakpoints e).active = false) (hok : AccessesSucceed s (planted P a e s)) :
    InPlace P (planted P a e s) := by
  obtain ⟨hview, -⟩ := planted_view hok
  intro b hb
  rw [show activeAddresses (planted P a e s).mBreakpoints = _ from activeAddresses_plant he] at hb
  rw [hview]
  by_cases hba : b = a
  · rw [hba]
    refine readBlock_writeBlock ?_
    exact P.instruction_size.trans (by decide)
  · have hb' : b ∈ activeAddresses s.mBreakpoints := Finset.mem_of_mem_insert_of_ne hb hba
    rw [readBlock_writeBlock_apart hS (hwithin b hb') ha hba rfl]
    exact h b hb'

theorem restored_view {i : Fin maxBreakpoints} (hok : AccessesSucceed s (restored P a i s)) :
    P.view (restored P a i s).target =
      writeBlock (2 ^ 64) (P.view s.target) a (savedBytes P (s.mBreakpoints i)) :=
  P.write_true _ _ _ (hok.all rfl _ (List.mem_singleton_self _))

/-- A removed breakpoint gives back what the shadow has at its address. -/
theorem Tracks.restore (h : Tracks P S shadow s) {i : Fin maxBreakpoints}
    (hi : (s.mBreakpoints i).active = true) (ha : (s.mBreakpoints i).address = a)
    (hok : AccessesSucceed s (restored P a i s)) : Tracks P S shadow (restored P a i s) := by
  have haddresses : activeAddresses (restored P a i s).mBreakpoints =
      (activeAddresses s.mBreakpoints).erase a := activeAddresses_release h.distinct hi ha
  refine ⟨?_, h.distinct.release i, ?_, ?_⟩
  · intro b hb
    rw [haddresses] at hb
    exact h.within b (Finset.mem_of_mem_erase hb)
  · intro j hj
    obtain ⟨hji, hj⟩ := releaseSlot_active.mp hj
    show savedBytes P (releaseSlot s.mBreakpoints i j) =
      readBlock _ _ (releaseSlot s.mBreakpoints i j).address _
    rw [releaseSlot_of_ne hji]
    exact h.saved j hj
  · rw [haddresses, restored_view hok, h.saved i hi, ha]
    exact h.agree.restore a

theorem InPlace.restore (h : InPlace P s)
    (hS : Apart (2 ^ 64) P.mArchBreakpointInstructionSize S)
    (htracks : Tracks P S shadow s) {i : Fin maxBreakpoints}
    (hi : (s.mBreakpoints i).active = true) (ha : (s.mBreakpoints i).address = a)
    (hok : AccessesSucceed s (restored P a i s)) : InPlace P (restored P a i s) := by
  have haS : a ∈ S := htracks.within a (mem_activeAddresses.mpr ⟨i, hi, ha⟩)
  intro b hb
  rw [show activeAddresses (restored P a i s).mBreakpoints = _ from
    activeAddresses_release htracks.distinct hi ha] at hb
  obtain ⟨hba, hb⟩ := Finset.mem_erase.mp hb
  have hlen : (savedBytes P (s.mBreakpoints i)).length = P.mArchBreakpointInstructionSize :=
    slice_length ..
  rw [restored_view hok, readBlock_writeBlock_apart hS (htracks.within b hb) haS hba hlen]
  exact h b hb

/-- An empty table tracks the memory as it is. -/
theorem tracks_empty (S : Set Nat) (hempty : ∀ i, (s.mBreakpoints i).active = false) :
    Tracks P S (P.view s.target) s := by
  have hnone : activeAddresses s.mBreakpoints = ∅ := activeAddresses_eq_empty hempty
  refine ⟨?_, ?_, ?_, ?_⟩
  · rw [hnone]
    exact fun b hb => absurd hb (Finset.notMem_empty b)
  · intro i j hi
    rw [hempty i] at hi
    cases hi
  · intro i hi
    rw [hempty i] at hi
    cases hi
  · exact fun _ _ => rfl

end Invariant

/-! ## Runs of calls -/

/-- A call of `AddSoftwareBreakpoint` or of `RemoveSoftwareBreakpoint`. -/
inductive BreakpointCall where
  | add (Address : Nat)
  | remove (Address : Nat)

def BreakpointCall.address : BreakpointCall → Nat
  | .add Address => Address
  | .remove Address => Address

/-- The call. -/
def BreakpointCall.make (P : Platform σ) : BreakpointCall → StubM σ Bool
  | .add Address => addSoftwareBreakpoint P Address
  | .remove Address => removeSoftwareBreakpoint P Address

/-- Calls one after the other. -/
def makeCalls (P : Platform σ) : List BreakpointCall → StubM σ Unit
  | [] => pure ()
  | c :: cs => do
      let _ ← c.make P
      makeCalls P cs

section Runs
variable (P : Platform σ)

/-- No call takes accesses back. -/
theorem extends_call (c : BreakpointCall) (base : List Access) :
    Ensures (fun s => base <+: s.accesses) (c.make P) fun _ s => base <+: s.accesses := by
  intro s hs
  cases c with
  | add a =>
    rcases addSoftwareBreakpoint_cases P a s with ⟨-, -, h⟩ | ⟨-, -, -, h⟩ | ⟨-, e, -, -, h⟩
    · rw [BreakpointCall.make, h]
      exact hs
    · rw [BreakpointCall.make, h]
      exact hs
    · rw [BreakpointCall.make, h]
      exact hs.trans (List.prefix_append ..)
  | remove a =>
    rcases removeSoftwareBreakpoint_cases P a s with ⟨-, -, h⟩ | ⟨i, -, -, -, h⟩
    · rw [BreakpointCall.make, h]
      exact hs
    · rw [BreakpointCall.make, h]
      exact hs.trans (List.prefix_append ..)

theorem extends_calls (base : List Access) : ∀ cs : List BreakpointCall,
    Ensures (fun s => base <+: s.accesses) (makeCalls P cs) fun _ s => base <+: s.accesses
  | [] => ensures_pure fun _ hs => hs
  | c :: cs => ensures_bind (extends_call P c base) fun _ => extends_calls base cs

variable {P} {S : Set Nat} {shadow : Nat → UInt8}

/-- One call whose accesses succeed. -/
theorem tracks_call (hS : Apart (2 ^ 64) P.mArchBreakpointInstructionSize S) {s : Stub σ}
    (h : Tracks P S shadow s) (hplace : InPlace P s) (c : BreakpointCall) (hc : c.address ∈ S)
    (hok : AccessesSucceed s ((c.make P).run s).2) :
    Tracks P S shadow ((c.make P).run s).2 ∧ InPlace P ((c.make P).run s).2 := by
  cases c with
  | add a =>
    rcases addSoftwareBreakpoint_cases P a s with
      ⟨-, -, hrun⟩ | ⟨-, -, -, hrun⟩ | ⟨hnew, e, he, -, hrun⟩
    · rw [BreakpointCall.make, hrun]
      exact ⟨h, hplace⟩
    · rw [BreakpointCall.make, hrun]
      exact ⟨⟨h.within, h.distinct, h.saved, h.agree⟩, hplace⟩
    · rw [BreakpointCall.make, hrun] at hok ⊢
      exact ⟨h.plant hS hc hnew he hok, hplace.plant hS h.within hc he hok⟩
  | remove a =>
    rcases removeSoftwareBreakpoint_cases P a s with ⟨-, -, hrun⟩ | ⟨i, hi, ha, -, hrun⟩
    · rw [BreakpointCall.make, hrun]
      exact ⟨h, hplace⟩
    · rw [BreakpointCall.make, hrun] at hok ⊢
      exact ⟨h.restore hi ha hok, hplace.restore hS h hi ha hok⟩

/-- A run of calls whose accesses succeed. -/
theorem tracks_calls (hS : Apart (2 ^ 64) P.mArchBreakpointInstructionSize S) :
    ∀ (cs : List BreakpointCall) {s : Stub σ}, Tracks P S shadow s → InPlace P s →
      (∀ c ∈ cs, c.address ∈ S) → AccessesSucceed s ((makeCalls P cs).run s).2 →
      Tracks P S shadow ((makeCalls P cs).run s).2 ∧ InPlace P ((makeCalls P cs).run s).2
  | [], _, h, hplace, _, _ => ⟨h, hplace⟩
  | c :: cs, s, h, hplace, hcs, hok => by
      obtain ⟨hfirst, hrest⟩ := hok.split (extends_call P c s.accesses s (List.prefix_refl _))
        (extends_calls P _ cs _ (List.prefix_refl _))
      obtain ⟨h1, hplace1⟩ := tracks_call hS h hplace c (hcs c (List.mem_cons_self ..)) hfirst
      exact tracks_calls hS cs h1 hplace1 (fun d hd => hcs d (List.mem_cons_of_mem _ hd)) hrest

end Runs

/-! ## The replies -/

theorem mem_activeAddresses_planted (P : Platform σ) {s : Stub σ} {a : Nat} {e : Fin maxBreakpoints}
    (he : (s.mBreakpoints e).active = false) :
    a ∈ activeAddresses (planted P a e s).mBreakpoints := by
  show a ∈ activeAddresses (Function.update s.mBreakpoints e _)
  rw [activeAddresses_plant he]
  exact Finset.mem_insert_self ..

/-- `AddSoftwareBreakpoint` fails exactly when the table is full of other addresses. -/
theorem add_reply (P : Platform σ) (a : Nat) (s : Stub σ) :
    let r := (addSoftwareBreakpoint P a).run s
    (r.1 = false ↔ (activeSlots s.mBreakpoints).card = maxBreakpoints ∧
      a ∉ activeAddresses s.mBreakpoints) ∧
    (r.1 = true → a ∈ activeAddresses r.2.mBreakpoints) := by
  rcases addSoftwareBreakpoint_cases P a s with
    ⟨hmem, -, hrun⟩ | ⟨hnew, hfull, -, hrun⟩ | ⟨hnew, e, he, -, hrun⟩
  · rw [hrun]
    exact ⟨⟨(nomatch ·), fun h => absurd hmem h.2⟩, fun _ => hmem⟩
  · rw [hrun]
    refine ⟨⟨fun _ => ⟨?_, hnew⟩, fun _ => rfl⟩, (nomatch ·)⟩
    rw [hfull, Finset.card_univ, Fintype.card_fin]
  · rw [hrun]
    refine ⟨⟨(nomatch ·), fun h => ?_⟩, fun _ => mem_activeAddresses_planted P he⟩
    have hall : activeSlots s.mBreakpoints = Finset.univ :=
      Finset.card_eq_iff_eq_univ _ |>.mp (by rw [h.1, Fintype.card_fin])
    have := mem_activeSlots.mp (hall ▸ Finset.mem_univ e)
    rw [he] at this
    cases this

/-- `RemoveSoftwareBreakpoint` succeeds exactly on the active addresses. -/
theorem remove_reply (P : Platform σ) (a : Nat) {s : Stub σ} (h : Distinct s.mBreakpoints) :
    let r := (removeSoftwareBreakpoint P a).run s
    (r.1 = true ↔ a ∈ activeAddresses s.mBreakpoints) ∧ a ∉ activeAddresses r.2.mBreakpoints := by
  rcases removeSoftwareBreakpoint_cases P a s with ⟨hnone, -, hrun⟩ | ⟨i, hi, ha, -, hrun⟩
  · rw [hrun]
    exact ⟨⟨(nomatch ·), fun h => absurd h hnone⟩, hnone⟩
  · rw [hrun]
    refine ⟨⟨fun _ => mem_activeAddresses.mpr ⟨i, hi, ha⟩, fun _ => rfl⟩, ?_⟩
    show a ∉ activeAddresses (releaseSlot s.mBreakpoints i)
    rw [activeAddresses_release h hi ha]
    exact Finset.notMem_erase _ _

/-- The table and the memory are the original memory with breakpoints on it. -/
structure Overlaid (P : Platform σ) (M₀ : Nat → UInt8) (t : Stub σ) : Prop where
  distinct : Distinct t.mBreakpoints
  bounded : (activeSlots t.mBreakpoints).card ≤ maxBreakpoints
  saved : ∀ i, (t.mBreakpoints i).active = true → savedBytes P (t.mBreakpoints i) =
    readBlock (2 ^ 64) M₀ (t.mBreakpoints i).address P.mArchBreakpointInstructionSize
  inPlace : ∀ a ∈ activeAddresses t.mBreakpoints,
    readBlock (2 ^ 64) (P.view t.target) a P.mArchBreakpointInstructionSize =
      P.mArchBreakpointInstruction
  elsewhere : ∀ x, Exposed (2 ^ 64) P.mArchBreakpointInstructionSize
    (activeAddresses t.mBreakpoints) x → P.view t.target x = M₀ x
  restored : activeAddresses t.mBreakpoints = ∅ → P.view t.target = M₀

/-- **The breakpoint table is an overlay.**  From an empty table, after any calls at addresses at
least an instruction apart whose accesses all succeed, the memory is the original memory with the
breakpoint instruction at exactly the active addresses, each entry holds the original bytes, and the
next call replies as the table says. -/
theorem breakpoints_overlay (P : Platform σ) {s : Stub σ} (cs : List BreakpointCall)
    (hempty : ∀ i, (s.mBreakpoints i).active = false)
    (hwrap : ∀ c ∈ cs, c.address + P.mArchBreakpointInstructionSize ≤ 2 ^ 64)
    (hapart : ∀ c ∈ cs, ∀ d ∈ cs, c.address ≠ d.address →
      c.address + P.mArchBreakpointInstructionSize ≤ d.address ∨
        d.address + P.mArchBreakpointInstructionSize ≤ c.address)
    (hok : AccessesSucceed s ((makeCalls P cs).run s).2) :
    let t := ((makeCalls P cs).run s).2
    Overlaid P (P.view s.target) t ∧
      (∀ a, let r := (addSoftwareBreakpoint P a).run t
        (r.1 = false ↔ (activeSlots t.mBreakpoints).card = maxBreakpoints ∧
          a ∉ activeAddresses t.mBreakpoints) ∧
        (r.1 = true → a ∈ activeAddresses r.2.mBreakpoints)) ∧
      ∀ a, let r := (removeSoftwareBreakpoint P a).run t
        (r.1 = true ↔ a ∈ activeAddresses t.mBreakpoints) ∧
        a ∉ activeAddresses r.2.mBreakpoints := by
  set S : Set Nat := {a | ∃ c ∈ cs, c.address = a} with hSdef
  have hS : Apart (2 ^ 64) P.mArchBreakpointInstructionSize S := by
    refine apart_of_le ?_ ?_
    · rintro a ⟨c, hc, rfl⟩
      exact hwrap c hc
    · rintro a ⟨c, hc, rfl⟩ b ⟨d, hd, rfl⟩ hne
      exact hapart c hc d hd hne
  have hstart : Tracks P S (P.view s.target) s := tracks_empty S hempty
  have hplace : InPlace P s := by
    intro a ha
    obtain ⟨i, hi, -⟩ := mem_activeAddresses.mp ha
    rw [hempty i] at hi
    cases hi
  obtain ⟨htracks, hplace'⟩ :=
    tracks_calls hS cs hstart hplace (fun c hc => ⟨c, hc, rfl⟩) hok
  intro t
  refine ⟨⟨htracks.distinct, ?_, htracks.saved, hplace', htracks.agree, fun hnone => ?_⟩,
    fun a => add_reply P a t, fun a => remove_reply P a htracks.distinct⟩
  · exact (Finset.card_le_univ _).trans_eq (Fintype.card_fin _)
  · have hagree := htracks.agree
    rw [show activeAddresses ((makeCalls P cs).run s).2.mBreakpoints = ∅ from hnone] at hagree
    exact agreeOff_empty.mp hagree

/-- Two breakpoints, one of them set twice, with a removal in between. -/
theorem breakpoints_overlay_two :
    Overlaid flatPlatform (fun _ => 0x90) ((makeCalls flatPlatform
      [.add 16, .add 32, .add 16, .remove 16, .remove 16]).run
        (Stub.initial ⟨fun _ => 0x90, []⟩)).2 := by
  have hall : ((makeCalls flatPlatform [.add 16, .add 32, .add 16, .remove 16, .remove 16]).run
      (Stub.initial ⟨fun _ => 0x90, []⟩)).2.accesses.all Access.success = true := by
    decide +kernel
  exact (breakpoints_overlay flatPlatform (s := Stub.initial ⟨fun _ => 0x90, []⟩)
    [.add 16, .add 32, .add 16, .remove 16, .remove 16] (fun _ => rfl) (by decide)
    (by decide) ⟨_, (List.nil_append _).symm, List.all_eq_true.mp hall⟩).1

end UefiDebugger
