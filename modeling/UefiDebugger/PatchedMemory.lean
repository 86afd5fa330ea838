import Mathlib.Logic.Function.Basic
import Mathlib.Data.List.Basic
import Mathlib.Data.Nat.ModEq
import Mathlib.Data.Finset.Basic

/-! # Byte-addressed memory with wrapping addresses

A memory is a function from addresses below `N`; a block access at `a` touches `a, a + 1, …`, each
taken modulo `N`.  Blocks are read and written one cell at a time, so overlapping and wrapping
accesses mean what the hardware makes of them.

A memory is *patched* at a set of addresses when a block of `n` cells at each of them was replaced
and the cells that were there are kept elsewhere.  `AgreeOff` compares it with its shadow, the
memory as it would be without the patches.

-/
namespace PatchedMemory

variable {β : Type} {N : Nat} {m m' : Nat → β}

/-- The block of `n` cells at `a`. -/
def readBlock (N : Nat) (m : Nat → β) : Nat → Nat → List β
  | _, 0 => []
  | a, n + 1 => m (a % N) :: readBlock N m (a + 1) n

/-- `m` with the block `bs` stored at `a`. -/
def writeBlock (N : Nat) : (Nat → β) → Nat → List β → Nat → β
  | m, _, [] => m
  | m, a, b :: bs => writeBlock N (Function.update m (a % N) b) (a + 1) bs

/-- The cell `x` belongs to the block of `n` cells at `a`. -/
def Covers (N a n x : Nat) : Prop := ∃ i < n, x = (a + i) % N

instance (N a n x : Nat) : Decidable (Covers N a n x) :=
  inferInstanceAs (Decidable (∃ i < n, x = (a + i) % N))

theorem covers_succ {a n x : Nat} : Covers N a (n + 1) x ↔ x = a % N ∨ Covers N (a + 1) n x := by
  constructor
  · rintro ⟨i, hi, rfl⟩
    cases i with
    | zero => exact Or.inl rfl
    | succ i => exact Or.inr ⟨i, by omega, by rw [show a + 1 + i = a + (i + 1) from by omega]⟩
  · rintro (rfl | ⟨i, hi, rfl⟩)
    · exact ⟨0, by omega, rfl⟩
    · exact ⟨i + 1, by omega, by rw [show a + 1 + i = a + (i + 1) from by omega]⟩

/-- Without wrapping, a block covers an interval. -/
theorem covers_iff {a n x : Nat} (h : a + n ≤ N) : Covers N a n x ↔ a ≤ x ∧ x < a + n := by
  constructor
  · rintro ⟨i, hi, rfl⟩
    rw [Nat.mod_eq_of_lt (by omega)]
    omega
  · rintro ⟨h1, h2⟩
    exact ⟨x - a, by omega, by rw [Nat.mod_eq_of_lt (by omega)]; omega⟩

@[simp] theorem readBlock_length (a n : Nat) : (readBlock N m a n).length = n := by
  induction n generalizing a with
  | zero => rfl
  | succ n ih => simp [readBlock, ih]

theorem getElem?_readBlock {a n k : Nat} (hk : k < n) :
    (readBlock N m a n)[k]? = some (m ((a + k) % N)) := by
  induction n generalizing a k with
  | zero => omega
  | succ n ih =>
    cases k with
    | zero => rfl
    | succ k =>
      rw [readBlock, List.getElem?_cons_succ, ih (by omega),
        show a + 1 + k = a + (k + 1) from by omega]

theorem readBlock_congr {a n : Nat} (h : ∀ x, Covers N a n x → m x = m' x) :
    readBlock N m a n = readBlock N m' a n := by
  induction n generalizing a with
  | zero => rfl
  | succ n ih =>
    rw [readBlock, readBlock, h _ (covers_succ.mpr (Or.inl rfl)),
      ih (fun x hx => h x (covers_succ.mpr (Or.inr hx)))]

theorem readBlock_add (a n k : Nat) :
    readBlock N m a (n + k) = readBlock N m a n ++ readBlock N m (a + n) k := by
  induction n generalizing a with
  | zero => simp [readBlock]
  | succ n ih =>
    rw [show n + 1 + k = (n + k) + 1 from by omega, readBlock, readBlock, ih,
      show a + (n + 1) = a + 1 + n from by omega, List.cons_append]

/-- A block access only sees its address modulo `N`. -/
theorem readBlock_mod (a n : Nat) : readBlock N m (a % N) n = readBlock N m a n := by
  induction n generalizing a with
  | zero => rfl
  | succ n ih =>
    rw [readBlock, readBlock, Nat.mod_mod, ← ih (a % N + 1), ← ih (a + 1), Nat.mod_add_mod]

/-- Outside the block nothing changes. -/
theorem writeBlock_of_not_covers {a x : Nat} {bs : List β} (h : ¬ Covers N a bs.length x) :
    writeBlock N m a bs x = m x := by
  induction bs generalizing a m with
  | nil => rfl
  | cons b bs ih =>
    rw [List.length_cons, covers_succ, not_or] at h
    rw [writeBlock, ih h.2, Function.update_of_ne h.1]

/-- Storing a block read from `m'` makes the two memories agree there. -/
theorem writeBlock_readBlock (a n x : Nat) :
    writeBlock N m a (readBlock N m' a n) x = if Covers N a n x then m' x else m x := by
  induction n generalizing a m with
  | zero => rw [if_neg (fun ⟨_, h, _⟩ => by omega)]; rfl
  | succ n ih =>
    rw [readBlock, writeBlock, ih]
    by_cases h1 : Covers N (a + 1) n x
    · rw [if_pos h1, if_pos (covers_succ.mpr (Or.inr h1))]
    · rw [if_neg h1]
      by_cases h0 : x = a % N
      · subst h0
        rw [if_pos (covers_succ.mpr (Or.inl rfl)), Function.update_self]
      · rw [Function.update_of_ne h0, if_neg]
        rw [covers_succ]
        exact not_or.mpr ⟨h0, h1⟩

theorem writeBlock_append (a : Nat) (bs cs : List β) :
    writeBlock N m a (bs ++ cs) = writeBlock N (writeBlock N m a bs) (a + bs.length) cs := by
  induction bs generalizing a m with
  | nil => rfl
  | cons b bs ih =>
    rw [List.cons_append, writeBlock, ih, writeBlock, List.length_cons,
      show a + (bs.length + 1) = a + 1 + bs.length from by omega]

theorem writeBlock_mod (a : Nat) (bs : List β) :
    writeBlock N m (a % N) bs = writeBlock N m a bs := by
  induction bs generalizing a m with
  | nil => rfl
  | cons b bs ih =>
    rw [writeBlock, writeBlock, Nat.mod_mod, ← ih (a % N + 1), ← ih (a + 1), Nat.mod_add_mod]

/-- A block that does not go round the address space reads back as it was stored. -/
theorem readBlock_writeBlock {a : Nat} {bs : List β} (h : bs.length ≤ N) :
    readBlock N (writeBlock N m a bs) a bs.length = bs := by
  induction bs generalizing a m with
  | nil => rfl
  | cons b bs ih =>
    rw [List.length_cons] at h
    rw [List.length_cons, writeBlock, readBlock, ih (by omega), writeBlock_of_not_covers,
      Function.update_self]
    rintro ⟨i, hi, he⟩
    have hN : 0 < N := by omega
    have h1 : (a + (1 + i)) % N = (a + 0) % N := by
      rw [Nat.add_zero, he, Nat.add_assoc]
    have h2 : (1 + i) % N = 0 % N := Nat.ModEq.add_left_cancel' a h1
    rw [Nat.mod_eq_of_lt (by omega), Nat.zero_mod] at h2
    omega

/-! ## Patches and their shadow -/

section Patches
variable {n : Nat} {A : Finset Nat} {shadow : Nat → β}

/-- No patch of length `n` at an address in `A` covers the cell. -/
def Exposed (N n : Nat) (A : Finset Nat) (x : Nat) : Prop := ∀ a ∈ A, ¬ Covers N a n x

instance (N n : Nat) (A : Finset Nat) (x : Nat) : Decidable (Exposed N n A x) :=
  inferInstanceAs (Decidable (∀ a ∈ A, ¬ Covers N a n x))

/-- Off the patches, the memory is its shadow. -/
def AgreeOff (N n : Nat) (A : Finset Nat) (m shadow : Nat → β) : Prop :=
  ∀ x, Exposed N n A x → m x = shadow x

/-- Patches at different addresses of `S` do not overlap. -/
def Apart (N n : Nat) (S : Set Nat) : Prop :=
  ∀ a ∈ S, ∀ b ∈ S, a ≠ b → ∀ x, Covers N a n x → ¬ Covers N b n x

theorem apart_of_le {S : Set Nat} (hwrap : ∀ a ∈ S, a + n ≤ N)
    (h : ∀ a ∈ S, ∀ b ∈ S, a ≠ b → a + n ≤ b ∨ b + n ≤ a) : Apart N n S := by
  intro a ha b hb hne x hax hbx
  rw [covers_iff (hwrap a ha)] at hax
  rw [covers_iff (hwrap b hb)] at hbx
  rcases h a ha b hb hne with h | h <;> omega

/-- A block that is apart from another block reads the same after it was written. -/
theorem readBlock_writeBlock_apart {S : Set Nat} (h : Apart N n S) {a b : Nat} (ha : a ∈ S)
    (hb : b ∈ S) (hne : a ≠ b) {bs : List β} (hlen : bs.length = n) :
    readBlock N (writeBlock N m b bs) a n = readBlock N m a n :=
  readBlock_congr fun x hx =>
    writeBlock_of_not_covers (hlen ▸ h a ha b hb hne x hx)

/-- A new patch may replace its block by anything. -/
theorem AgreeOff.plant (h : AgreeOff N n A m shadow) {a : Nat} {bs : List β}
    (hlen : bs.length = n) :
    AgreeOff N n (insert a A) (writeBlock N m a bs) shadow := by
  intro x hx
  rw [writeBlock_of_not_covers (hlen ▸ hx a (Finset.mem_insert_self a A))]
  exact h x fun b hb => hx b (Finset.mem_insert_of_mem hb)

/-- A block apart from the patches reads as in the shadow. -/
theorem AgreeOff.readBlock {S : Set Nat} (h : AgreeOff N n A m shadow) (hS : Apart N n S)
    (hA : ∀ a ∈ A, a ∈ S) {a : Nat} (ha : a ∈ S) (hnew : a ∉ A) :
    readBlock N m a n = readBlock N shadow a n :=
  readBlock_congr fun x hx => h x fun b hb =>
    hS a ha b (hA b hb) (fun he => hnew (he ▸ hb)) x hx

/-- Putting back what the shadow has takes a patch away. -/
theorem AgreeOff.restore (h : AgreeOff N n A m shadow) (a : Nat) :
    AgreeOff N n (A.erase a) (writeBlock N m a (PatchedMemory.readBlock N shadow a n)) shadow := by
  intro x hx
  rw [writeBlock_readBlock]
  split
  · rfl
  · rename_i hcovers
    refine h x fun b hb => ?_
    by_cases hba : b = a
    · rwa [hba]
    · exact hx b (Finset.mem_erase.mpr ⟨hba, hb⟩)

theorem agreeOff_empty : AgreeOff N n ∅ m shadow ↔ m = shadow :=
  ⟨fun h => funext fun x => h x fun _ ha => absurd ha (Finset.notMem_empty _),
    fun h x _ => congrFun h x⟩

/-- A block written past the patches reaches the shadow where no patch covers it. -/
def shadowWrite (N n : Nat) (A : Finset Nat) (shadow : Nat → β) (a : Nat) (bs : List β)
    (x : Nat) : β :=
  if Exposed N n A x then writeBlock N shadow a bs x else shadow x

theorem writeBlock_congr {a x : Nat} {bs : List β} (h : m x = m' x) :
    writeBlock N m a bs x = writeBlock N m' a bs x := by
  induction bs generalizing a m m' with
  | nil => exact h
  | cons b bs ih =>
    refine ih ?_
    by_cases hx : x = a % N
    · rw [hx, Function.update_self, Function.update_self]
    · rw [Function.update_of_ne hx, Function.update_of_ne hx, h]

theorem AgreeOff.write (h : AgreeOff N n A m shadow) (a : Nat) (bs : List β) :
    AgreeOff N n A (writeBlock N m a bs) (shadowWrite N n A shadow a bs) := by
  intro x hx
  rw [shadowWrite, if_pos hx]
  exact writeBlock_congr (h x hx)

/-- Under a patch the shadow is out of reach. -/
theorem readBlock_shadowWrite {a : Nat} (ha : a ∈ A) (b : Nat) (bs : List β) :
    PatchedMemory.readBlock N (shadowWrite N n A shadow b bs) a n =
      PatchedMemory.readBlock N shadow a n :=
  readBlock_congr fun x hx => by
    rw [shadowWrite, if_neg fun hexposed => hexposed a ha hx]

end Patches
end PatchedMemory
