import Mathlib.Logic.Basic
import Mathlib.Data.List.Basic

/-!
# Self-delimiting encodings

An encoding of items by strings is self-delimiting when the end of an item can be seen from its
front: no two items can begin the same stream, and what follows an item is determined.  A stream of
such items then has only one decoding, however long it is.
-/
namespace SelfDelimiting

variable {α β : Type}

/-- On the items that are `ok`, `encode` is self-delimiting. -/
structure Code (encode : α → List β) (ok : α → Prop) : Prop where
  nonempty : ∀ a, ok a → encode a ≠ []
  split : ∀ a b, ok a → ok b → ∀ xs ys, encode a ++ xs = encode b ++ ys → a = b ∧ xs = ys

/-- **A stream decodes uniquely.** -/
theorem Code.flatMap_inj {encode : α → List β} {ok : α → Prop} (h : Code encode ok) {as : List α} :
    ∀ {bs : List α}, (∀ a ∈ as, ok a) → (∀ b ∈ bs, ok b) → as.flatMap encode = bs.flatMap encode →
    as = bs := by
  induction as with
  | nil =>
    intro bs _ hbs heq
    cases bs with
    | nil => rfl
    | cons b bs =>
      rw [List.flatMap_nil, List.flatMap_cons] at heq
      exact absurd (List.append_eq_nil_iff.mp heq.symm).1 (h.nonempty b (hbs b List.mem_cons_self))
  | cons a as ih =>
    intro bs has hbs heq
    have ha := has a List.mem_cons_self
    cases bs with
    | nil =>
      rw [List.flatMap_nil, List.flatMap_cons] at heq
      exact absurd (List.append_eq_nil_iff.mp heq).1 (h.nonempty a ha)
    | cons b bs =>
      rw [List.flatMap_cons, List.flatMap_cons] at heq
      obtain ⟨rfl, hrest⟩ := h.split a b ha (hbs b List.mem_cons_self) _ _ heq
      have htail := ih (fun x hx => has x (List.mem_cons_of_mem a hx))
        (fun x hx => hbs x (List.mem_cons_of_mem a hx)) hrest
      rw [htail]

/-- What ends at the first separator is determined. -/
theorem separator_inj {sep : β} {p : List β} : ∀ {q xs ys : List β}, sep ∉ p → sep ∉ q →
    p ++ sep :: xs = q ++ sep :: ys → p = q ∧ xs = ys := by
  induction p with
  | nil =>
    intro q xs ys _ hq heq
    cases q with
    | nil => exact ⟨rfl, (List.cons.inj heq).2⟩
    | cons b q => exact absurd ((List.cons.inj heq).1 ▸ List.mem_cons_self) hq
  | cons a p ih =>
    intro q xs ys hp hq heq
    cases q with
    | nil => exact absurd ((List.cons.inj heq).1.symm ▸ List.mem_cons_self) hp
    | cons b q =>
      obtain ⟨rfl, hrest⟩ := List.cons.inj heq
      obtain ⟨rfl, hxs⟩ :=
        ih (fun h => hp (List.mem_cons_of_mem a h)) (fun h => hq (List.mem_cons_of_mem a h)) hrest
      exact ⟨rfl, hxs⟩

end SelfDelimiting
