import UefiDebugger.SlotTable

/-!
# Watchpoints

What the debug registers of both architectures are for: four slots, each with an address, an enable,
a condition and a length, and two operations on them.  A `DebugUnit` is one architecture's registers
with its `AddWatchpoint` and `RemoveWatchpoint`, and what one call of these does; over any run of
calls the enabled slots are a `SlotTable`.
-/
namespace UefiDebugger
open SlotTable

/-! ## Slots -/

/-- What a request is encoded as: an address, a condition and a length, the last two as the
registers have them. -/
structure WatchKey where
  address : UInt64
  condition : Nat
  length : Nat
  deriving DecidableEq

/-- What the registers hold for one slot. -/
structure SlotContents where
  enabled : Bool
  key : WatchKey

/-- The keys of the enabled slots. -/
def slotTable (contents : Fin 4 → SlotContents) : Table 4 WatchKey := fun i =>
  if (contents i).enabled = true then some (contents i).key else none

/-- Between two states of the registers only one slot may have changed: the contents of the others
are the same, and so is what belongs to no slot (`rest`). -/
structure SlotFrame {ρ τ : Type} (contents : ρ → Fin 4 → SlotContents) (rest : Fin 4 → ρ → τ)
    (i : Fin 4) (s s' : ρ) : Prop where
  others : ∀ j, j ≠ i → contents s' j = contents s j
  rest : rest i s' = rest i s

/-- One architecture's debug registers `ρ`.  `rest i` is everything in them outside of slot `i` that
a call may not touch. -/
structure DebugUnit (ρ : Type) where
  contents : ρ → Fin 4 → SlotContents
  /-- What of the registers lies outside of a slot. -/
  Rest : Type
  rest : Fin 4 → ρ → Rest
  debugArchInit : ρ → ρ
  /-- The lengths that are not refused. -/
  accepts : (Length : UInt64) → Bool
  key : (Address Length : UInt64) → (Read Write : Bool) → WatchKey
  addWatchpoint : (Address Length : UInt64) → (Read Write : Bool) → ρ → Bool × ρ
  removeWatchpoint : (Address Length : UInt64) → (Read Write : Bool) → ρ → Bool × ρ
  init_disabled : ∀ s i, (contents (debugArchInit s) i).enabled = false
  refused : ∀ a l r w s, accepts l = false → addWatchpoint a l r w s = (false, s) ∧
    removeWatchpoint a l r w s = (false, s)
  add_duplicate : ∀ a l r w s, accepts l = true → Holds (slotTable (contents s)) (key a l r w) →
    addWatchpoint a l r w s = (true, s)
  add_free : ∀ a l r w s i, accepts l = true → ¬ Holds (slotTable (contents s)) (key a l r w) →
    lowest (slotTable (contents s)) none = some i →
      (addWatchpoint a l r w s).1 = true ∧
      contents (addWatchpoint a l r w s).2 i = ⟨true, key a l r w⟩ ∧
      SlotFrame contents rest i s (addWatchpoint a l r w s).2
  add_full : ∀ a l r w s, accepts l = true → ¬ Holds (slotTable (contents s)) (key a l r w) →
    (∀ i, slotTable (contents s) i ≠ none) → addWatchpoint a l r w s = (false, s)
  remove_held : ∀ a l r w s i, accepts l = true →
    lowest (slotTable (contents s)) (some (key a l r w)) = some i →
      (removeWatchpoint a l r w s).1 = true ∧
      (contents (removeWatchpoint a l r w s).2 i).enabled = false ∧
      SlotFrame contents rest i s (removeWatchpoint a l r w s).2
  remove_absent : ∀ a l r w s, accepts l = true → ¬ Holds (slotTable (contents s)) (key a l r w) →
    removeWatchpoint a l r w s = (false, s)

namespace DebugUnit
variable {ρ : Type} (U : DebugUnit ρ)

/-- The keys of the enabled slots. -/
def table (s : ρ) : Table 4 WatchKey := slotTable (U.contents s)

/-- Some enabled slot carries the key. -/
def Armed (s : ρ) (k : WatchKey) : Prop := Holds (U.table s) k

/-- The states any sequence of calls leads to, from what `DebugArchInit` leaves. -/
inductive Reachable : ρ → Prop
  | init (s : ρ) : Reachable (U.debugArchInit s)
  | add {s : ρ} (h : Reachable s) (a l : UInt64)
      (r w : Bool) : Reachable (U.addWatchpoint a l r w s).2
  | remove {s : ρ} (h : Reachable s) (a l : UInt64)
      (r w : Bool) : Reachable (U.removeWatchpoint a l r w s).2

/-- Only slot `i` changed. -/
abbrev Frame (i : Fin 4) (s s' : ρ) : Prop := SlotFrame U.contents U.rest i s s'

variable {U} {s s' : ρ} {i : Fin 4} {k : WatchKey} {a l : UInt64} {r w : Bool}

theorem table_of_disabled (h : (U.contents s i).enabled = false) : U.table s i = none := by
  rw [table, slotTable, h]
  rfl

theorem table_of_enabled (h : U.contents s i = ⟨true, k⟩) : U.table s i = some k := by
  rw [table, slotTable, h]
  rfl

/-- What one slot's change does to the table. -/
theorem table_of_frame {v : Option WatchKey} (h : U.Frame i s s') (hi : U.table s' i = v) :
    U.table s' = Function.update (U.table s) i v := by
  funext j
  by_cases hj : j = i
  · subst hj
    rw [hi, Function.update_self]
  · rw [Function.update_of_ne hj, table, table, slotTable, slotTable, h.others j hj]

/-! ## The calls are the operations of the set -/

/-- `AddWatchpoint` inserts the key. -/
theorem addWatchpoint_refines (hl : U.accepts l = true) :
    insert (U.table s) (U.key a l r w) =
    ((U.addWatchpoint a l r w s).1, U.table (U.addWatchpoint a l r w s).2) := by
  rcases insert_cases (U.table s) (U.key a l r w) with ⟨hold, heq⟩ | ⟨hnew, i, hfree, heq⟩ | ⟨hnew,
    hfull, heq⟩
  · rw [heq, U.add_duplicate a l r w s hl hold]
  · obtain ⟨hresult, hslot, hframe⟩ := U.add_free a l r w s i hl hnew hfree
    rw [heq, hresult, table_of_frame hframe (table_of_enabled hslot)]
  · rw [heq, U.add_full a l r w s hl hnew hfull]

/-- `RemoveWatchpoint` removes it. -/
theorem removeWatchpoint_refines (hl : U.accepts l = true) :
    erase (U.table s) (U.key a l r w) =
      ((U.removeWatchpoint a l r w s).1, U.table (U.removeWatchpoint a l r w s).2) := by
  by_cases hold : Holds (U.table s) (U.key a l r w)
  · obtain ⟨i, hi⟩ := holds_iff_lowest.mp hold
    obtain ⟨hresult, hslot, hframe⟩ := U.remove_held a l r w s i hl hi
    rw [erase_lowest hi, hresult, table_of_frame hframe (table_of_disabled hslot)]
  · rw [erase_of_not_holds hold, U.remove_absent a l r w s hl hold]

/-- No key is held twice in a state that calls lead to. -/
theorem Reachable.distinct (h : U.Reachable s) : SlotTable.Distinct (U.table s) := by
  induction h with
  | init s =>
    have hempty : U.table (U.debugArchInit s) = fun _ => none :=
      funext fun i => table_of_disabled (U.init_disabled s i)
    rw [hempty]
    exact distinct_empty
  | add hs a l r w ih =>
    cases hl : U.accepts l with
    | false => rwa [(U.refused a l r w _ hl).1]
    | true =>
      have hinsert := ih.insert (U.key a l r w)
      rwa [addWatchpoint_refines hl] at hinsert
  | remove hs a l r w ih =>
    cases hl : U.accepts l with
    | false => rwa [(U.refused a l r w _ hl).2]
    | true =>
      have herase := ih.erase (U.key a l r w)
      rwa [removeWatchpoint_refines hl] at herase

/-! ## The set -/

variable (U)

/-- What `AddWatchpoint` does in the state `s`. -/
structure AddsTo (s : ρ) (a l : UInt64) (r w : Bool) : Prop where
  duplicate : U.Armed s (U.key a l r w) → U.addWatchpoint a l r w s = (true, s)
  free : ¬ U.Armed s (U.key a l r w) → ∀ i, U.table s i = none → (∀ j < i, U.table s j ≠ none) →
    (U.addWatchpoint a l r w s).1 = true ∧
      U.contents (U.addWatchpoint a l r w s).2 i = ⟨true, U.key a l r w⟩ ∧
      U.Frame i s (U.addWatchpoint a l r w s).2
  full : ¬ U.Armed s (U.key a l r w) → (∀ i, U.table s i ≠ none) →
    U.addWatchpoint a l r w s = (false, s)

/-- What `RemoveWatchpoint` does in the state `s`. -/
structure RemovesFrom (s : ρ) (a l : UInt64) (r w : Bool) : Prop where
  result : (U.removeWatchpoint a l r w s).1 = true ↔ U.Armed s (U.key a l r w)
  gone : ¬ U.Armed (U.removeWatchpoint a l r w s).2 (U.key a l r w)
  held : ∀ i, U.table s i = some (U.key a l r w) → U.Frame i s (U.removeWatchpoint a l r w s).2
  absent : ¬ U.Armed s (U.key a l r w) → (U.removeWatchpoint a l r w s).2 = s

/-- The debug registers are a set of at most four keys. -/
structure IsBoundedSet (s : ρ) : Prop where
  distinct : SlotTable.Distinct (U.table s)
  bounded : (keys (U.table s)).card ≤ 4
  adds : ∀ a l r w, U.accepts l = true → U.AddsTo s a l r w
  removes : ∀ a l r w, U.accepts l = true → U.RemovesFrom s a l r w
  refuses : ∀ a l r w, U.accepts l = false →
    U.addWatchpoint a l r w s = (false, s) ∧ U.removeWatchpoint a l r w s = (false, s)

variable {U}

theorem addsTo (hl : U.accepts l = true) : U.AddsTo s a l r w where
  duplicate := U.add_duplicate a l r w s hl
  free hnew i hi hleast := U.add_free a l r w s i hl hnew (lowest_of_least hi hleast)
  full := U.add_full a l r w s hl

theorem removesFrom (hs : SlotTable.Distinct (U.table s)) (hl : U.accepts l = true) :
    U.RemovesFrom s a l r w where
  result := by
    constructor
    · intro h
      by_contra hnot
      rw [U.remove_absent a l r w s hl hnot] at h
      cases h
    · intro h
      obtain ⟨i, hi⟩ := holds_iff_lowest.mp h
      exact (U.remove_held a l r w s i hl hi).1
  gone := by
    have hgone := hs.not_holds_erase (U.key a l r w)
    rwa [removeWatchpoint_refines hl] at hgone
  held i hi := by
    obtain ⟨j, hj⟩ := holds_iff_lowest.mp ⟨i, hi⟩
    obtain rfl := hs i j _ hi (lowest_eq_some hj)
    exact (U.remove_held a l r w s i hl hj).2.2
  absent h := by rw [U.remove_absent a l r w s hl h]

/-- **The debug registers of any unit are a bounded set** in every state its calls lead to. -/
theorem Reachable.isBoundedSet (h : U.Reachable s) : U.IsBoundedSet s where
  distinct := h.distinct
  bounded := card_keys_le _
  adds _ _ _ _ hl := addsTo hl
  removes _ _ _ _ hl := removesFrom h.distinct hl
  refuses a l r w hl := U.refused a l r w s hl

end DebugUnit
end UefiDebugger
