import Mathlib.Data.List.FinRange
import Mathlib.Data.Finset.Card

/-!
# A set in a fixed number of slots

Each of `n` slots is free or holds a key.  Insertion looks for the key first and otherwise takes the
lowest free slot; removal empties the lowest slot with the key.  Started without duplicates, the
table is a set of at most `n` keys.
-/
namespace SlotTable

variable {n : Nat} {κ : Type} [DecidableEq κ]

/-- A table of `n` slots. -/
abbrev Table (n : Nat) (κ : Type) := Fin n → Option κ

/-- Some slot holds the key. -/
def Holds (t : Table n κ) (k : κ) : Prop := ∃ i, t i = some k

/-- No key is held twice. -/
def Distinct (t : Table n κ) : Prop := ∀ i j k, t i = some k → t j = some k → i = j

/-- The lowest slot that contains `v`. -/
def lowest (t : Table n κ) (v : Option κ) : Option (Fin n) := (List.finRange n).find? (t · = v)

/-- Inserts a key; whether it is held afterwards. -/
def insert (t : Table n κ) (k : κ) : Bool × Table n κ :=
  match lowest t (some k) with
  | some _ => (true, t)
  | none =>
      match lowest t none with
      | some i => (true, Function.update t i (some k))
      | none => (false, t)

/-- Removes a key; whether it was held. -/
def erase (t : Table n κ) (k : κ) : Bool × Table n κ :=
  match lowest t (some k) with
  | some i => (true, Function.update t i none)
  | none => (false, t)

variable {t : Table n κ} {k k' : κ} {v : Option κ} {i : Fin n}

/-! ## The search -/

theorem lowest_eq_none : lowest t v = none ↔ ∀ i, t i ≠ v := by
  rw [lowest, List.find?_eq_none]
  simp

theorem lowest_eq_some (h : lowest t v = some i) : t i = v := by
  simpa using List.find?_some h

/-- Below the slot found there is none. -/
theorem lowest_least (h : lowest t v = some i) {j : Fin n} (hj : j < i) : t j ≠ v := by
  obtain ⟨-, as, bs, hsplit, hfront⟩ := List.find?_eq_some_iff_append.mp h
  have hsorted : (as ++ i :: bs).Pairwise (· < ·) := hsplit ▸ List.pairwise_lt_finRange n
  have hmem : j ∈ as ++ i :: bs := hsplit ▸ List.mem_finRange j
  rw [List.pairwise_append] at hsorted
  rcases List.mem_append.mp hmem with hj' | hj'
  · simpa using hfront j hj'
  · rcases List.mem_cons.mp hj' with rfl | hj'
    · exact absurd hj (lt_irrefl _)
    · exact absurd hj (lt_asymm ((List.pairwise_cons.mp hsorted.2.1).1 j hj'))

/-- The lowest slot is the one below which there is none. -/
theorem lowest_of_least (h : t i = v) (hleast : ∀ j < i, t j ≠ v) : lowest t v = some i := by
  cases hl : lowest t v with
  | none => exact absurd h (lowest_eq_none.mp hl i)
  | some j =>
    rcases lt_trichotomy i j with hij | rfl | hij
    · exact absurd h (lowest_least hl hij)
    · rfl
    · exact absurd (lowest_eq_some hl) (hleast j hij)

theorem holds_iff_lowest : Holds t k ↔ ∃ i, lowest t (some k) = some i := by
  constructor
  · rintro ⟨i, hi⟩
    cases hl : lowest t (some k) with
    | none => exact absurd hi (lowest_eq_none.mp hl i)
    | some j => exact ⟨j, rfl⟩
  · rintro ⟨i, hi⟩
    exact ⟨i, lowest_eq_some hi⟩

theorem not_holds_iff_lowest : ¬ Holds t k ↔ lowest t (some k) = none := by
  rw [lowest_eq_none, Holds, not_exists]

/-! ## The operations -/

/-- A key that is held is not inserted again. -/
theorem insert_of_holds (h : Holds t k) : insert t k = (true, t) := by
  obtain ⟨i, hi⟩ := holds_iff_lowest.mp h
  rw [insert, hi]

theorem insert_free (h : ¬ Holds t k) (hi : lowest t none = some i) :
    insert t k = (true, Function.update t i (some k)) := by
  rw [insert, not_holds_iff_lowest.mp h, hi]

theorem insert_full (h : ¬ Holds t k) (hfull : lowest t none = none) : insert t k = (false, t) := by
  rw [insert, not_holds_iff_lowest.mp h, hfull]

theorem erase_lowest (hi : lowest t (some k) = some i) :
    erase t k = (true, Function.update t i none) := by
  rw [erase, hi]

theorem erase_of_not_holds (h : ¬ Holds t k) : erase t k = (false, t) := by
  rw [erase, not_holds_iff_lowest.mp h]

/-- What an insertion does, by cases. -/
theorem insert_cases (t : Table n κ) (k : κ) :
    (Holds t k ∧ insert t k = (true, t)) ∨
    (¬ Holds t k ∧ ∃ i, lowest t none = some i ∧
      insert t k = (true, Function.update t i (some k))) ∨
    (¬ Holds t k ∧ (∀ i, t i ≠ none) ∧ insert t k = (false, t)) := by
  by_cases h : Holds t k
  · exact Or.inl ⟨h, insert_of_holds h⟩
  · cases hfree : lowest t none with
    | some i => exact Or.inr (Or.inl ⟨h, i, rfl, insert_free h hfree⟩)
    | none => exact Or.inr (Or.inr ⟨h, lowest_eq_none.mp hfree, insert_full h hfree⟩)

/-- What a removal does, by cases. -/
theorem erase_cases (t : Table n κ) (k : κ) :
    (∃ i, t i = some k ∧ erase t k = (true, Function.update t i none)) ∨
    (¬ Holds t k ∧ erase t k = (false, t)) := by
  by_cases h : Holds t k
  · obtain ⟨i, hi⟩ := holds_iff_lowest.mp h
    exact Or.inl ⟨i, lowest_eq_some hi, erase_lowest hi⟩
  · exact Or.inr ⟨h, erase_of_not_holds h⟩

/-! ## No duplicates -/

omit [DecidableEq κ] in
theorem distinct_empty : Distinct (fun _ => none : Table n κ) := by
  intro i j k h
  cases h

/-- An insertion keeps the keys apart. -/
theorem Distinct.insert (h : Distinct t) (k : κ) : Distinct (insert t k).2 := by
  rcases insert_cases t k with ⟨-, heq⟩ | ⟨hnew, i, -, heq⟩ | ⟨-, -, heq⟩
  · rwa [heq]
  · rw [heq]
    intro a b k' ha hb
    simp only [Function.update_apply] at ha hb
    split at ha
    · split at hb
      · subst a b
        rfl
      · obtain rfl := Option.some.inj ha
        exact absurd ⟨b, hb⟩ hnew
    · split at hb
      · obtain rfl := Option.some.inj hb
        exact absurd ⟨a, ha⟩ hnew
      · exact h a b k' ha hb
  · rwa [heq]

/-- A removal keeps the keys apart. -/
theorem Distinct.erase (h : Distinct t) (k : κ) : Distinct (erase t k).2 := by
  rcases erase_cases t k with ⟨i, -, heq⟩ | ⟨-, heq⟩
  · rw [heq]
    intro a b k' ha hb
    simp only [Function.update_apply] at ha hb
    split at ha
    · cases ha
    · split at hb
      · cases hb
      · exact h a b k' ha hb
  · rwa [heq]

/-- Without duplicates a removed key is gone. -/
theorem Distinct.not_holds_erase (h : Distinct t) (k : κ) : ¬ Holds (SlotTable.erase t k).2 k := by
  rcases erase_cases t k with ⟨i, hi, heq⟩ | ⟨hnot, heq⟩
  · rw [heq]
    rintro ⟨j, hj⟩
    simp only [Function.update_apply] at hj
    split at hj
    · cases hj
    · rename_i hne
      exact hne (h j i k hj hi)
  · rwa [heq]

/-! ## What the other keys see -/

/-- An insertion takes no key away. -/
theorem Holds.insert (h : Holds t k) (k' : κ) : Holds (insert t k').2 k := by
  obtain ⟨j, hj⟩ := h
  rcases insert_cases t k' with ⟨-, heq⟩ | ⟨-, i, hfree, heq⟩ | ⟨-, -, heq⟩
  · exact heq ▸ ⟨j, hj⟩
  · have hne : j ≠ i := by
      rintro rfl
      rw [lowest_eq_some hfree] at hj
      cases hj
    exact heq ▸ ⟨j, (Function.update_of_ne hne ..).trans hj⟩
  · exact heq ▸ ⟨j, hj⟩

/-- An insertion that says so leaves its key in the table. -/
theorem holds_insert (h : (SlotTable.insert t k).1 = true) : Holds (SlotTable.insert t k).2 k := by
  rcases insert_cases t k with ⟨hold, heq⟩ | ⟨-, i, -, heq⟩ | ⟨-, -, heq⟩
  · rwa [heq]
  · exact heq ▸ ⟨i, Function.update_self ..⟩
  · rw [heq] at h
    cases h

/-- An insertion fails when all slots are taken by other keys. -/
theorem insert_eq_false_iff : (SlotTable.insert t k).1 = false ↔ ¬ Holds t k ∧ ∀ i, t i ≠ none := by
  rcases insert_cases t k with ⟨hold, heq⟩ | ⟨-, i, hfree, heq⟩ | ⟨hnew, hfull, heq⟩
  · rw [heq]
    exact iff_of_false (Bool.noConfusion ·) fun h => h.1 hold
  · rw [heq]
    exact iff_of_false (Bool.noConfusion ·) fun h => h.2 i (lowest_eq_some hfree)
  · rw [heq]
    exact iff_of_true rfl ⟨hnew, hfull⟩

/-- A removal takes no other key away. -/
theorem Holds.erase (h : Holds t k) (hne : k ≠ k') : Holds (erase t k').2 k := by
  obtain ⟨j, hj⟩ := h
  rcases erase_cases t k' with ⟨i, hi, heq⟩ | ⟨-, heq⟩
  · have hji : j ≠ i := by
      rintro rfl
      exact hne (Option.some.inj (hj.symm.trans hi))
    exact heq ▸ ⟨j, (Function.update_of_ne hji ..).trans hj⟩
  · exact heq ▸ ⟨j, hj⟩

/-- The keys held. -/
def keys (t : Table n κ) : Finset κ := ((List.finRange n).filterMap t).toFinset

/-- There are no more keys than slots. -/
theorem card_keys_le (t : Table n κ) : (keys t).card ≤ n := by
  have hlength := List.length_filterMap_le t (List.finRange n)
  rw [List.length_finRange] at hlength
  exact (List.toFinset_card_le _).trans hlength

end SlotTable
