import Mathlib.Logic.Function.Basic
import Mathlib.Data.List.Basic
import Mathlib.Data.List.TakeWhile

/-! # Byte strings laid out in memory

A block of C memory is a function from offsets to bytes.  `slice f i n` is the `n` bytes from offset
`i`; `Holds f i bs` says that the bytes `bs` are laid out from `i` on.  The scanners of the C
library (`strlen`, `memchr`, `strncmp`) walk the function one offset at a time, and each has one
lemma giving its result on a block that holds a known list.

-/
namespace ByteString

/-! ## Slices -/

/-- The `n` bytes from offset `i`. -/
def slice (f : Nat → UInt8) : Nat → Nat → List UInt8
  | _, 0 => []
  | i, n + 1 => f i :: slice f (i + 1) n

/-- The block `f` holds the bytes `bs` from offset `i` on. -/
def Holds (f : Nat → UInt8) : Nat → List UInt8 → Prop
  | _, [] => True
  | i, b :: bs => f i = b ∧ Holds f (i + 1) bs

variable {f g : Nat → UInt8}

@[simp] theorem slice_length (i n : Nat) : (slice f i n).length = n := by
  induction n generalizing i with
  | zero => rfl
  | succ n ih => simp [slice, ih]

theorem slice_congr {i n : Nat} (h : ∀ j, i ≤ j → j < i + n → f j = g j) :
    slice f i n = slice g i n := by
  induction n generalizing i with
  | zero => rfl
  | succ n ih =>
    rw [slice, slice, h i (Nat.le_refl i) (by omega),
      ih (fun j hj hjn => h j (by omega) (by omega))]

theorem slice_add (i m n : Nat) : slice f i (m + n) = slice f i m ++ slice f (i + m) n := by
  induction m generalizing i with
  | zero => simp [slice]
  | succ m ih =>
    rw [show m + 1 + n = (m + n) + 1 from by omega, slice, slice, ih,
      show i + (m + 1) = i + 1 + m from by omega, List.cons_append]

theorem getElem?_slice {i n k : Nat} (hk : k < n) : (slice f i n)[k]? = some (f (i + k)) := by
  induction n generalizing i k with
  | zero => omega
  | succ n ih =>
    cases k with
    | zero => rfl
    | succ k =>
      rw [slice, List.getElem?_cons_succ, ih (by omega), show i + 1 + k = i + (k + 1) from by omega]

theorem holds_iff_slice {i : Nat} {bs : List UInt8} :
    Holds f i bs ↔ slice f i bs.length = bs := by
  induction bs generalizing i with
  | nil => simp [Holds, slice]
  | cons b bs ih => simp [Holds, slice, ih]

theorem Holds.slice_eq {i : Nat} {bs : List UInt8} (h : Holds f i bs) :
    slice f i bs.length = bs := holds_iff_slice.mp h

theorem holds_slice (f : Nat → UInt8) (i n : Nat) : Holds f i (slice f i n) := by
  rw [holds_iff_slice, slice_length]

theorem holds_append {i : Nat} {as bs : List UInt8} :
    Holds f i (as ++ bs) ↔ Holds f i as ∧ Holds f (i + as.length) bs := by
  induction as generalizing i with
  | nil => simp [Holds]
  | cons a as ih =>
    simp only [List.cons_append, Holds, ih, List.length_cons, and_assoc]
    rw [show i + (as.length + 1) = i + 1 + as.length from by omega]

theorem holds_congr {i : Nat} {bs : List UInt8}
    (h : ∀ j, i ≤ j → j < i + bs.length → f j = g j) : Holds f i bs ↔ Holds g i bs := by
  rw [holds_iff_slice, holds_iff_slice, slice_congr h]

theorem Holds.get {i k : Nat} {bs : List UInt8} (h : Holds f i bs) (hk : k < bs.length) :
    f (i + k) = bs[k] := by
  induction bs generalizing i k with
  | nil => simp at hk
  | cons b bs ih =>
    cases k with
    | zero => exact h.1
    | succ k =>
      rw [show i + (k + 1) = i + 1 + k from by omega]
      exact ih h.2 (by simpa using hk)

/-- Overwriting one held byte changes that entry of the list. -/
theorem Holds.set {i k : Nat} {bs : List UInt8} (h : Holds f i bs) (v : UInt8) :
    Holds (Function.update f (i + k) v) i (bs.set k v) := by
  induction bs generalizing i k with
  | nil => trivial
  | cons b bs ih =>
    cases k with
    | zero =>
      refine ⟨Function.update_self .., (holds_congr fun j hj _ => ?_).mp h.2⟩
      exact (Function.update_of_ne (by omega) ..).symm
    | succ k =>
      refine ⟨(Function.update_of_ne (by omega) ..).trans h.1, ?_⟩
      rw [show i + (k + 1) = i + 1 + k from by omega]
      exact ih h.2

theorem holds_snoc {i : Nat} {bs : List UInt8} (h : Holds f i bs) (v : UInt8) :
    Holds (Function.update f (i + bs.length) v) i (bs ++ [v]) := by
  rw [holds_append]
  refine ⟨(holds_congr fun j _ hj => ?_).mp h, Function.update_self .., trivial⟩
  exact (Function.update_of_ne (by omega) ..).symm

/-! ## Storing a block -/

/-- `f` with the block `bs` stored at offset `i`. -/
def store (f : Nat → UInt8) : Nat → List UInt8 → Nat → UInt8
  | _, [] => f
  | i, b :: bs => store (Function.update f i b) (i + 1) bs

theorem store_of_lt {i k : Nat} {bs : List UInt8} (h : k < i) : store f i bs k = f k := by
  induction bs generalizing i f with
  | nil => rfl
  | cons b bs ih => rw [store, ih (by omega), Function.update_of_ne (by omega)]

theorem store_of_ge {i k : Nat} {bs : List UInt8} (h : i + bs.length ≤ k) :
    store f i bs k = f k := by
  induction bs generalizing i f with
  | nil => rfl
  | cons b bs ih =>
    rw [List.length_cons] at h
    rw [store, ih (by omega), Function.update_of_ne (by omega)]

theorem store_append (f : Nat → UInt8) (i : Nat) (as bs : List UInt8) :
    store f i (as ++ bs) = store (store f i as) (i + as.length) bs := by
  induction as generalizing i f with
  | nil => rfl
  | cons a as ih =>
    rw [List.cons_append, store, ih, store, List.length_cons, Nat.add_assoc, Nat.add_comm 1]

theorem holds_store (f : Nat → UInt8) (i : Nat) (bs : List UInt8) : Holds (store f i bs) i bs := by
  induction bs generalizing i f with
  | nil => trivial
  | cons b bs ih =>
    refine ⟨?_, ih _ _⟩
    rw [store, store_of_lt (Nat.lt_succ_self i), Function.update_self]

/-- A block is what is stored there and what was outside. -/
theorem store_eq {i : Nat} {bs : List UInt8} (hin : Holds g i bs)
    (hout : ∀ k, k < i ∨ i + bs.length ≤ k → g k = f k) : store f i bs = g := by
  funext k
  rcases Nat.lt_or_ge k i with hk | hk
  · rw [store_of_lt hk, hout k (Or.inl hk)]
  rcases Nat.lt_or_ge k (i + bs.length) with hlast | hlast
  · obtain ⟨j, rfl⟩ := Nat.exists_eq_add_of_le hk
    have hj : j < bs.length := by omega
    rw [(holds_store f i bs).get hj, hin.get hj]
  · rw [store_of_ge hlast, hout k (Or.inr hlast)]

/-- Storing what is there changes nothing. -/
theorem store_slice (f : Nat → UInt8) (i n : Nat) : store f i (slice f i n) = f :=
  store_eq (holds_slice f i n) fun _ _ => rfl

/-- The second of two stores at one place wins. -/
theorem store_store {i : Nat} {as bs : List UInt8} (h : as.length = bs.length) :
    store (store f i as) i bs = store f i bs := by
  refine store_eq (holds_store f i bs) fun k hk => ?_
  rcases hk with hk | hk
  · rw [store_of_lt hk, store_of_lt hk]
  · rw [store_of_ge hk, store_of_ge (h ▸ hk)]

/-- The byte found at an offset of what was stored. -/
theorem store_apply {i k : Nat} {bs : List UInt8} (h : i ≤ k) :
    store f i bs k = bs[k - i]?.getD (f k) := by
  obtain ⟨j, rfl⟩ := Nat.exists_eq_add_of_le h
  rw [Nat.add_sub_cancel_left]
  by_cases hj : j < bs.length
  · rw [(holds_store f i bs).get hj, List.getElem?_eq_getElem hj, Option.getD_some]
  · rw [store_of_ge (by omega), List.getElem?_eq_none (by omega), Option.getD_none]

/-! ## The C scanners -/

/-- `strlen`, giving up after `limit` bytes. -/
def strLen (f : Nat → UInt8) : (limit : Nat) → Nat → Nat
  | 0, _ => 0
  | n + 1, i => if f i = 0 then 0 else strLen f n (i + 1) + 1

/-- The C string at offset `i`. -/
def cString (f : Nat → UInt8) (limit i : Nat) : List UInt8 := slice f i (strLen f limit i)

/-- `memchr`: the first offset of `i .. i + n` holding `v`. -/
def findByte (f : Nat → UInt8) (v : UInt8) : Nat → Nat → Option Nat
  | _, 0 => none
  | i, n + 1 => if f i = v then some i else findByte f v (i + 1) n

/-- `strncmp (…) == 0` against the literal `str`, with the number of bytes it looked at. -/
def strNEq (f : Nat → UInt8) : Nat → List UInt8 → Nat → Bool × Nat
  | _, _, 0 => (true, 0)
  | i, str, n + 1 =>
      if f i ≠ str.headD 0 then (false, 1)
      else if f i = 0 then (true, 1)
      else ((strNEq f (i + 1) str.tail n).1, (strNEq f (i + 1) str.tail n).2 + 1)

/-- On a NUL-terminated layout, the C string is what precedes the first NUL. -/
theorem strLen_of_holds {limit i : Nat} {bs : List UInt8} (h : Holds f i (bs ++ [0]))
    (hl : bs.length < limit) : strLen f limit i = (bs.takeWhile (· ≠ 0)).length := by
  induction bs generalizing i limit with
  | nil =>
    obtain ⟨n, rfl⟩ : ∃ n, limit = n + 1 := ⟨limit - 1, by simp at hl; omega⟩
    simp [strLen, h.1]
  | cons b bs ih =>
    obtain ⟨n, rfl⟩ : ∃ n, limit = n + 1 := ⟨limit - 1, by simp at hl; omega⟩
    obtain ⟨hb, hbs⟩ := h
    rw [strLen, hb]
    by_cases h0 : b = 0
    · simp [h0]
    · rw [if_neg h0, ih hbs (by simpa using hl)]
      simp [h0]

theorem cString_of_holds {limit i : Nat} {bs : List UInt8} (h : Holds f i (bs ++ [0]))
    (hl : bs.length < limit) : cString f limit i = bs.takeWhile (· ≠ 0) := by
  rw [cString, strLen_of_holds h hl]
  have hsplit : Holds f i (bs.takeWhile (· ≠ 0) ++ bs.dropWhile (· ≠ 0)) := by
    rw [List.takeWhile_append_dropWhile]
    exact (holds_append.mp h).1
  exact (holds_append.mp hsplit).1.slice_eq

theorem takeWhile_ne {v : UInt8} {bs : List UInt8} (h : v ∉ bs) : bs.takeWhile (· ≠ v) = bs := by
  refine List.takeWhile_eq_self_iff.mpr fun c hc => ?_
  simpa using fun he : c = v => h (he ▸ hc)

/-- A string is what precedes its terminator. -/
theorem strLen_of_string {limit i : Nat} {bs : List UInt8} (h : Holds f i (bs ++ [0]))
    (hstring : (0 : UInt8) ∉ bs) (hl : bs.length < limit) : strLen f limit i = bs.length := by
  rw [strLen_of_holds h hl, takeWhile_ne hstring]

theorem cString_of_string {limit i : Nat} {bs : List UInt8} (h : Holds f i (bs ++ [0]))
    (hstring : (0 : UInt8) ∉ bs) (hl : bs.length < limit) : cString f limit i = bs := by
  rw [cString_of_holds h hl, takeWhile_ne hstring]

/-- `memchr` over a held list finds its first occurrence. -/
theorem findByte_of_holds {v : UInt8} {i : Nat} {bs : List UInt8} (h : Holds f i bs) :
    findByte f v i bs.length = if v ∈ bs then some (i + bs.idxOf v) else none := by
  induction bs generalizing i with
  | nil => rfl
  | cons b bs ih =>
    rw [List.length_cons, findByte, h.1, ih h.2]
    by_cases hb : b = v
    · subst b; simp
    · have hv : ¬ v = b := fun e => hb e.symm
      simp only [hb, if_false, List.mem_cons, hv, false_or, List.idxOf_cons_ne _ hb]
      split
      · exact congrArg some (by omega)
      · rfl

theorem findByte_some {v : UInt8} {i n j : Nat} (h : findByte f v i n = some j) :
    i ≤ j ∧ j < i + n ∧ f j = v := by
  induction n generalizing i with
  | zero => cases h
  | succ n ih =>
    rw [findByte] at h
    split at h
    · cases h
      exact ⟨Nat.le_refl _, by omega, ‹_›⟩
    · obtain ⟨h1, h2, h3⟩ := ih h
      exact ⟨by omega, by omega, h3⟩

end ByteString
