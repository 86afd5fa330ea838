import Mathlib.Data.List.Basic

/-!
# Records one behind the other

A store of cells, some of which cannot be read, holds records; each says how long it is, so the next
one is found behind it.  `walk` reads at most so many of them.  What it reads is a chain of records
from the address it starts at, and it stops for a reason: the count is used up, or nothing is found
where it is.  Records that are laid out one behind the other are read back, up to the count.
-/
namespace RecordChain

/-! ## Cells -/

section Cells
variable {γ : Type} {memory : Nat → Option γ} {p n : Nat} {cs ds : List γ}

/-- The cells from `p` on are `cs`. -/
def Lies (memory : Nat → Option γ) (p : Nat) (cs : List γ) : Prop :=
  ∀ i < cs.length, memory (p + i) = cs[i]?

/-- The `n` cells from `p` on, if all can be read. -/
def cells (memory : Nat → Option γ) : (p n : Nat) → Option (List γ)
  | _, 0 => some []
  | p, n + 1 =>
      match memory p, cells memory (p + 1) n with
      | some c, some cs => some (c :: cs)
      | _, _ => none

theorem lies_nil (memory : Nat → Option γ) (p : Nat) : Lies memory p [] :=
  fun _ h => absurd h (Nat.not_lt_zero _)

theorem lies_cons {c : γ} :
    Lies memory p (c :: cs) ↔ memory p = some c ∧ Lies memory (p + 1) cs := by
  constructor
  · intro h
    refine ⟨h 0 (Nat.succ_pos _), fun i hi => ?_⟩
    have hnext := h (i + 1) (Nat.succ_lt_succ hi)
    rwa [← Nat.add_assoc, Nat.add_right_comm, List.getElem?_cons_succ] at hnext
  · rintro ⟨hfirst, hrest⟩ i hi
    cases i with
    | zero => exact hfirst
    | succ i =>
      rw [← Nat.add_assoc, Nat.add_right_comm, List.getElem?_cons_succ]
      exact hrest i (Nat.lt_of_succ_lt_succ hi)

theorem lies_append :
    Lies memory p (cs ++ ds) ↔ Lies memory p cs ∧ Lies memory (p + cs.length) ds := by
  induction cs generalizing p with
  | nil => exact ⟨fun h => ⟨lies_nil memory p, h⟩, And.right⟩
  | cons c cs ih =>
    rw [List.cons_append, lies_cons, lies_cons, ih, List.length_cons, Nat.add_right_comm,
      Nat.add_assoc p, and_assoc]

/-- What is read is what lies there. -/
theorem cells_eq_some : cells memory p n = some cs ↔ cs.length = n ∧ Lies memory p cs := by
  induction n generalizing p cs with
  | zero =>
    rw [cells, Option.some.injEq, List.length_eq_zero_iff]
    constructor
    · rintro rfl
      exact ⟨rfl, lies_nil memory p⟩
    · exact fun h => h.1.symm
  | succ n ih =>
    cases cs with
    | nil =>
      cases hfirst : memory p <;> cases hrest : cells memory (p + 1) n <;>
        simp [cells, hfirst, hrest]
    | cons c cs =>
      rw [lies_cons, List.length_cons, Nat.add_right_cancel_iff]
      cases hfirst : memory p with
      | none => simp [cells, hfirst]
      | some c' =>
        cases hrest : cells memory (p + 1) n with
        | none =>
          have hnone : ¬ (cs.length = n ∧ Lies memory (p + 1) cs) := fun h => by
            rw [ih.mpr h] at hrest
            cases hrest
          simp only [cells, hfirst, hrest, reduceCtorEq, Option.some.injEq, false_iff]
          exact fun h => hnone ⟨h.1, h.2.2⟩
        | some cs' =>
          have hcells : cs.length = n ∧ Lies memory (p + 1) cs ↔ cells memory (p + 1) n = some cs :=
            ih.symm
          rw [hrest, Option.some.injEq] at hcells
          simp only [cells, hfirst, hrest, Option.some.injEq, List.cons.injEq]
          constructor
          · rintro ⟨rfl, rfl⟩
            obtain ⟨hlength, hlies⟩ := hcells.mpr rfl
            exact ⟨hlength, rfl, hlies⟩
          · rintro ⟨hlength, rfl, hlies⟩
            exact ⟨rfl, hcells.mp ⟨hlength, hlies⟩⟩

theorem Lies.eq (h : Lies memory p cs) (h' : Lies memory p ds) (hlength : cs.length = ds.length) :
    cs = ds :=
  Option.some.inj ((cells_eq_some.mpr ⟨hlength, h⟩).symm.trans (cells_eq_some.mpr ⟨rfl, h'⟩))

end Cells

/-! ## Records -/

section Records
variable {α β γ : Type} {R R' : Nat → α → Nat → Prop} {next : Nat → Option (α × Nat)}
  {as bs : List α} {p q r : Nat}

/-- The records from `p` on, at most `n` of them, and where no more is found if there are fewer;
`next` gives a record and where the one behind it is. -/
def walk (next : Nat → Option (α × Nat)) : (n p : Nat) → List α × Option Nat
  | 0, _ => ([], none)
  | n + 1, p =>
      match next p with
      | none => ([], some p)
      | some (a, q) => (a :: (walk next n q).1, (walk next n q).2)

/-- The records `as` stand one behind the other, from `p` up to `q`. -/
inductive Chain (R : Nat → α → Nat → Prop) : Nat → List α → Nat → Prop
  | nil (p : Nat) : Chain R p [] p
  | cons {p q r : Nat} {a : α} {as : List α} (here : R p a q)
      (rest : Chain R q as r) : Chain R p (a :: as) r

theorem Chain.append (h : Chain R p as q) (h' : Chain R q bs r) : Chain R p (as ++ bs) r := by
  induction h with
  | nil => exact h'
  | cons here rest ih => exact .cons here (ih h')

theorem Chain.imp (h : Chain R p as q) (himp : ∀ p a q, R p a q → R' p a q) : Chain R' p as q := by
  induction h with
  | nil p => exact .nil p
  | cons here rest ih => exact .cons (himp _ _ _ here) ih

/-- `next` finds the record `a` at `p`, and the one behind it at `q`. -/
def Found (next : Nat → Option (α × Nat)) (p : Nat) (a : α) (q : Nat) : Prop := next p = some (a, q)

theorem walk_none {n : Nat} (h : next p = none) :
    walk next (n + 1) p = ([], some p) := by rw [walk, h]

theorem walk_some {n : Nat} {a : α} (h : Found next p a q) :
    walk next (n + 1) p = (a :: (walk next n q).1, (walk next n q).2) := by
  have hnext : next p = some (a, q) := h
  rw [walk, hnext]

/-- A record that has itself behind it is read until the count is used up. -/
theorem walk_self {a : α} (h : Found next p a p) (n : Nat) :
    walk next n p = (List.replicate n a, none) := by
  induction n with
  | zero => rfl
  | succ n ih => rw [walk_some h, ih, List.replicate_succ]

/-- What is read is a chain.  Where it ends the count is used up, or nothing is found. -/
theorem chain_walk (next : Nat → Option (α × Nat)) (n p : Nat) :
    ∃ q, Chain (Found next) p (walk next n p).1 q ∧
      (((walk next n p).1.length = n ∧ (walk next n p).2 = none) ∨
        ((walk next n p).1.length < n ∧ (walk next n p).2 = some q ∧ next q = none)) := by
  induction n generalizing p with
  | zero => exact ⟨p, .nil p, Or.inl ⟨rfl, rfl⟩⟩
  | succ n ih =>
    cases hfound : next p with
    | none =>
      rw [walk_none hfound]
      exact ⟨p, .nil p, Or.inr ⟨Nat.succ_pos n, rfl, hfound⟩⟩
    | some found =>
      obtain ⟨q, hchain, hend⟩ := ih found.2
      rw [walk_some hfound]
      refine ⟨q, .cons hfound hchain, ?_⟩
      rcases hend with ⟨hlength, hstop⟩ | ⟨hlength, hstop⟩
      · exact Or.inl ⟨congrArg Nat.succ hlength, hstop⟩
      · exact Or.inr ⟨Nat.succ_lt_succ hlength, hstop⟩

/-- A chain behind which nothing is found is read, up to the count. -/
theorem walk_of_chain (h : Chain (Found next) p as q) (hend : next q = none) (n : Nat) :
    walk next n p = (as.take n, if as.length < n then some q else none) := by
  induction h generalizing n with
  | nil p =>
    cases n with
    | zero => rfl
    | succ n =>
      rw [walk_none hend, List.take_nil]
      rfl
  | cons here rest ih =>
    cases n with
    | zero => rfl
    | succ n =>
      rw [walk_some here, ih hend n, List.take_succ_cons, List.length_cons]
      simp only [Nat.add_lt_add_iff_right]

/-- Records that are laid out one behind the other are a chain, if each stands where it lies. -/
theorem chain_laid {memory : Nat → Option γ} {encode : β → List γ} {image : β → α} :
    ∀ (bs : List β) (p : Nat),
      (∀ b ∈ bs, ∀ p, Lies memory p (encode b) → R p (image b) (p + (encode b).length)) →
      Lies memory p (bs.flatMap encode) →
      Chain R p (bs.map image) (p + (bs.flatMap encode).length) := by
  intro bs
  induction bs with
  | nil => exact fun p _ _ => .nil p
  | cons b bs ih =>
    intro p hstands hlies
    rw [List.flatMap_cons, lies_append] at hlies
    rw [List.map_cons, List.flatMap_cons, List.length_append, ← Nat.add_assoc]
    exact .cons (hstands b (List.mem_cons_self ..) p hlies.1)
      (ih _ (fun b' hb => hstands b' (List.mem_cons_of_mem _ hb)) hlies.2)

end Records
end RecordChain
