import UefiDebugger.ByteString
import Mathlib.Algebra.GroupWithZero.Nat

/-! # Records packed into strings

A record is laid out twice.  In a block of memory each of its fields has a place of its own, or
none; in a string the fields follow each other in the order of the record.  A field without a place
shows as zeros.

`RecordField.get` and `RecordField.set` obey the laws of a lens, and fields that share no byte do
not interfere. `pack` writes all fields down.  `load` takes them from a string with a cursor that
may move by something else than the size of the field it was at, which is where a reader of strings
goes wrong.

-/
namespace PackedFields
open ByteString

/-- A field: its place in the block, and its size. -/
structure RecordField where
  place : Option Nat
  size : Nat

/-! ## One field -/

namespace RecordField

/-- The byte at `x` belongs to the field. -/
def Covers (f : RecordField) (x : Nat) : Prop := ∃ a, f.place = some a ∧ a ≤ x ∧ x < a + f.size

/-- The fields share no byte. -/
def Apart (f g : RecordField) : Prop := ∀ x, f.Covers x → ¬ g.Covers x

/-- The one field ends where the other begins, or before. -/
def Separate (f g : RecordField) : Prop :=
  ∀ a ∈ f.place, ∀ b ∈ g.place, a + f.size ≤ b ∨ b + g.size ≤ a

instance (f g : RecordField) : Decidable (Separate f g) :=
  inferInstanceAs (Decidable (∀ a ∈ f.place, ∀ b ∈ g.place, a + f.size ≤ b ∨ b + g.size ≤ a))

theorem Separate.apart {f g : RecordField} (h : f.Separate g) : f.Apart g := by
  rintro x ⟨a, ha, hax, hxa⟩ ⟨b, hb, hbx, hxb⟩
  have hends := h a ha b hb
  omega

theorem Apart.symm {f g : RecordField} (h : f.Apart g) : g.Apart f := fun x hg hf => h x hf hg

/-- The bytes of the field. -/
def get (f : RecordField) (m : Nat → UInt8) : List UInt8 :=
  match f.place with
  | none => List.replicate f.size 0
  | some a => slice m a f.size

/-- The block with the bytes of the field replaced. -/
def set (f : RecordField) (bs : List UInt8) (m : Nat → UInt8) : Nat → UInt8 :=
  match f.place with
  | none => m
  | some a => store m a bs

/-- What `set` puts at `x`. -/
def byteAt (f : RecordField) (bs : List UInt8) (x : Nat) : Option UInt8 :=
  match f.place with
  | none => none
  | some a => if a ≤ x then bs[x - a]? else none

variable {f g : RecordField} {m m' : Nat → UInt8} {as bs : List UInt8} {a : Nat}

theorem get_absent (h : f.place = none) : f.get m = List.replicate f.size 0 := by rw [get, h]

theorem get_present (h : f.place = some a) : f.get m = slice m a f.size := by rw [get, h]

theorem set_absent (h : f.place = none) : f.set bs m = m := by rw [set, h]

theorem set_present (h : f.place = some a) : f.set bs m = store m a bs := by rw [set, h]

@[simp] theorem get_length (f : RecordField) (m : Nat → UInt8) : (f.get m).length = f.size := by
  cases h : f.place with
  | none => rw [get_absent h, List.length_replicate]
  | some a => rw [get_present h, slice_length]

/-- The field is read where it is. -/
theorem get_congr (h : ∀ x, f.Covers x → m x = m' x) : f.get m = f.get m' := by
  cases hplace : f.place with
  | none => rw [get_absent hplace, get_absent hplace]
  | some a =>
    rw [get_present hplace, get_present hplace]
    exact slice_congr fun x hx hlast => h x ⟨a, hplace, hx, hlast⟩

theorem set_of_not_covers (hbs : bs.length ≤ f.size) {x : Nat} (hx : ¬ f.Covers x) :
    f.set bs m x = m x := by
  cases hplace : f.place with
  | none => rw [set_absent hplace]
  | some a =>
    rw [set_present hplace]
    rcases Nat.lt_or_ge x a with hfront | hbehind
    · exact store_of_lt hfront
    · refine store_of_ge (Nat.le_of_not_lt fun hlast => hx ⟨a, hplace, hbehind, ?_⟩)
      omega

theorem set_apply (f : RecordField) (bs : List UInt8) (m : Nat → UInt8) (x : Nat) :
    f.set bs m x = (f.byteAt bs x).getD (m x) := by
  cases hplace : f.place with
  | none => rw [set_absent hplace, byteAt, hplace, Option.getD_none]
  | some a =>
    rw [set_present hplace, byteAt, hplace]
    dsimp only
    split
    · exact store_apply ‹_›
    · exact store_of_lt (by omega)

/-! ### The laws of a lens -/

/-- What was set is got. -/
theorem get_set (h : f.place = some a) (hbs : bs.length = f.size) : f.get (f.set bs m) = bs := by
  rw [get_present h, set_present h, ← hbs]
  exact (holds_store m a bs).slice_eq

/-- Setting what is there changes nothing. -/
theorem set_get (f : RecordField) (m : Nat → UInt8) : f.set (f.get m) m = m := by
  cases hplace : f.place with
  | none => exact set_absent hplace
  | some a => rw [set_present hplace, get_present hplace, store_slice]

/-- The second of two sets wins. -/
theorem set_set (h : as.length = bs.length) : f.set bs (f.set as m) = f.set bs m := by
  cases hplace : f.place with
  | none => rw [set_absent hplace, set_absent hplace, set_absent hplace]
  | some a => rw [set_present hplace, set_present hplace, set_present hplace, store_store h]

/-- Fields that share no byte do not interfere. -/
theorem get_set_of_apart (h : f.Apart g) (hbs : bs.length ≤ f.size) :
    g.get (f.set bs m) = g.get m :=
  get_congr fun x hx => set_of_not_covers hbs fun hf => h x hf hx

end RecordField

/-! ## All fields of a record -/

section Records
variable {fs : List RecordField} {f : RecordField} {bs : List UInt8} {m : Nat → UInt8} {i : Nat}

/-- The bytes the fields take in a string. -/
def width (fs : List RecordField) : Nat := (fs.map RecordField.size).sum

/-- The record as a string. -/
def pack (fs : List RecordField) (m : Nat → UInt8) : List UInt8 := fs.flatMap fun f => f.get m

theorem pack_cons (f : RecordField) (fs : List RecordField) (m : Nat → UInt8) :
    pack (f :: fs) m = f.get m ++ pack fs m :=
  List.flatMap_cons

theorem width_cons (f : RecordField) (fs : List RecordField) :
    width (f :: fs) = f.size + width fs := List.sum_cons

@[simp] theorem pack_length (fs : List RecordField) (m : Nat → UInt8) :
    (pack fs m).length = width fs := by
  induction fs with
  | nil => rfl
  | cons f fs ih => rw [pack_cons, List.length_append, RecordField.get_length, ih, width_cons]

/-- The bytes of a field are at the width of what is in front of it. -/
theorem pack_field (h : fs[i]? = some f) :
    ((pack fs m).drop (width (fs.take i))).take f.size = f.get m := by
  induction fs generalizing i with
  | nil => cases h
  | cons g fs ih =>
    rw [pack_cons]
    cases i with
    | zero =>
      obtain rfl : g = f := by simpa using h
      exact List.take_left' (RecordField.get_length g m)
    | succ i =>
      rw [List.take_succ_cons, width_cons, ← List.drop_drop,
        List.drop_left' (RecordField.get_length g m)]
      exact ih (by simpa using h)

theorem pack_append (fs gs : List RecordField) (m : Nat → UInt8) :
    pack (fs ++ gs) m = pack fs m ++ pack gs m :=
  List.flatMap_append

/-- The record in front of a field, the field, and the record behind it. -/
theorem pack_split (h : fs[i]? = some f) (m : Nat → UInt8) :
    pack fs m = pack (fs.take i) m ++ (f.get m ++ pack (fs.drop (i + 1)) m) := by
  obtain ⟨hi, rfl⟩ := List.getElem?_eq_some_iff.mp h
  rw [← pack_cons, ← pack_append, List.getElem_cons_drop, List.take_append_drop]

theorem pack_congr {m' : Nat → UInt8} (h : ∀ f ∈ fs, f.get m = f.get m') :
    pack fs m = pack fs m' := by
  induction fs with
  | nil => rfl
  | cons f fs ih =>
    rw [pack_cons, pack_cons, h f List.mem_cons_self, ih fun g hg =>
      h g (List.mem_cons_of_mem f hg)]

/-- Fields at different places of a record share no byte. -/
theorem apart_of_ne (hapart : fs.Pairwise RecordField.Apart) {j : Nat} {g : RecordField}
    (hf : fs[i]? = some f) (hg : fs[j]? = some g) (hne : i ≠ j) : f.Apart g := by
  obtain ⟨hi, rfl⟩ := List.getElem?_eq_some_iff.mp hf
  obtain ⟨hj, rfl⟩ := List.getElem?_eq_some_iff.mp hg
  rcases Nat.lt_or_gt_of_ne hne with hlt | hgt
  · exact List.pairwise_iff_getElem.mp hapart i j hi hj hlt
  · exact (List.pairwise_iff_getElem.mp hapart j i hj hi hgt).symm

/-- Setting a field changes its own bytes of the string. -/
theorem pack_set (hapart : fs.Pairwise RecordField.Apart) (h : fs[i]? = some f)
    (hbs : bs.length ≤ f.size) (m : Nat → UInt8) :
    pack fs (f.set bs m) = pack (fs.take i) m ++
    (f.get (f.set bs m) ++ pack (fs.drop (i + 1)) m) := by
  have hfront : pack (fs.take i) (f.set bs m) = pack (fs.take i) m := by
    refine pack_congr fun g hg => ?_
    obtain ⟨j, hj⟩ := List.mem_iff_getElem?.mp hg
    rw [List.getElem?_take] at hj
    split at hj
    · exact RecordField.get_set_of_apart (apart_of_ne hapart h hj (by omega)) hbs
    · cases hj
  have hbehind : pack (fs.drop (i + 1)) (f.set bs m) = pack (fs.drop (i + 1)) m := by
    refine pack_congr fun g hg => ?_
    obtain ⟨j, hj⟩ := List.mem_iff_getElem?.mp hg
    rw [List.getElem?_drop] at hj
    exact RecordField.get_set_of_apart (apart_of_ne hapart h hj (by omega)) hbs
  rw [pack_split h, hfront, hbehind]

end Records

/-! ## Cursors -/

section Cursors
variable (advance advance' : RecordField → Nat)

/-- Where a cursor that moves by `advance` at each field is at a field. -/
def cursor (fs : List RecordField) (i : Nat) : Nat := ((fs.take i).map advance).sum

variable {advance advance'} {fs : List RecordField} {f : RecordField} {i j : Nat}

theorem cursor_zero (fs : List RecordField) : cursor advance fs 0 = 0 := rfl

theorem cursor_cons (f : RecordField) (fs : List RecordField) (i : Nat) :
    cursor advance (f :: fs) (i + 1) = advance f + cursor advance fs i := List.sum_cons

theorem cursor_step (h : fs[i]? = some f) :
    cursor advance fs (i + 1) = cursor advance fs i + advance f := by
  induction fs generalizing i with
  | nil => cases h
  | cons g fs ih =>
    cases i with
    | zero =>
      obtain rfl : g = f := by simpa using h
      rw [cursor_cons, cursor_zero, cursor_zero, Nat.add_comm]
    | succ i =>
      have hrest : fs[i]? = some f := by simpa using h
      rw [cursor_cons, cursor_cons, ih hrest, Nat.add_assoc]

theorem cursor_le (h : i ≤ j) : cursor advance fs i ≤ cursor advance fs j := by
  induction fs generalizing i j with
  | nil => exact Nat.le_of_eq (by simp [cursor])
  | cons f fs ih =>
    cases i with
    | zero => exact Nat.zero_le _
    | succ i =>
      obtain ⟨j, rfl⟩ : ∃ k, j = k + 1 := ⟨j - 1, by omega⟩
      rw [cursor_cons, cursor_cons]
      exact Nat.add_le_add_left (ih (by omega)) _

theorem cursor_length (fs : List RecordField) :
    cursor RecordField.size fs fs.length = width fs := by
  rw [cursor, List.take_length, width]

/-- The end of a field is inside the width. -/
theorem cursor_add_size_le (h : fs[i]? = some f) :
    cursor RecordField.size fs i + f.size ≤ width fs := by
  obtain ⟨hi, -⟩ := List.getElem?_eq_some_iff.mp h
  have hend : cursor RecordField.size fs (i + 1) = cursor RecordField.size fs i + f.size :=
    cursor_step h
  rw [← hend, ← cursor_length]
  exact cursor_le hi

/-- A slower cursor falls behind, and further with each field. -/
theorem cursor_behind (hslower : ∀ f, advance f ≤ advance' f) (h : i ≤ j) :
    cursor advance fs j + cursor advance' fs i ≤ cursor advance' fs j + cursor advance fs i := by
  induction fs generalizing i j with
  | nil => exact Nat.le_of_eq (by simp [cursor])
  | cons f fs ih =>
    cases j with
    | zero =>
      obtain rfl : i = 0 := by omega
      exact Nat.le_refl _
    | succ j =>
      have hf := hslower f
      cases i with
      | zero =>
        have hrest := ih (i := 0) (j := j) (Nat.zero_le j)
        rw [cursor_zero, cursor_zero] at hrest
        rw [cursor_cons, cursor_cons, cursor_zero, cursor_zero]
        omega
      | succ i =>
        have hrest := ih (i := i) (j := j) (by omega)
        rw [cursor_cons, cursor_cons, cursor_cons, cursor_cons]
        omega

end Cursors

/-! ## Loading -/

section Loading
variable (advance : RecordField → Nat)

/-- Set the fields from a string, as long as it has the bytes of the next one; `advance` is how far
the cursor moves.  The flag says whether all fields were set. -/
def load : List RecordField → List UInt8 → (Nat → UInt8) → Bool × (Nat → UInt8)
  | [], _, m => (true, m)
  | f :: fs, bs, m =>
      if bs.length < f.size then (false, m)
      else load fs (bs.drop (advance f)) (f.set (bs.take f.size) m)

/-- The byte that a string has for `x`: that of the last field at `x` in front of the first one the
string is too short for. -/
def latest : List RecordField → List UInt8 → Nat → Option UInt8
  | [], _, _ => none
  | f :: fs, bs, x =>
      if bs.length < f.size then none
      else (latest fs (bs.drop (advance f)) x).or (f.byteAt (bs.take f.size) x)

variable {advance} {fs : List RecordField} {f : RecordField} {bs : List UInt8}
  {m : Nat → UInt8} {i : Nat}

theorem load_short (h : bs.length < f.size) : load advance (f :: fs) bs m = (false, m) := by
  rw [load, if_pos h]

theorem load_long (h : f.size ≤ bs.length) :
    load advance (f :: fs) bs m = load advance fs (bs.drop (advance f))
    (f.set (bs.take f.size) m) := by
  rw [load, if_neg (Nat.not_lt.mpr h)]

/-- **All fields are set if the string has the bytes of each behind the cursor.** -/
theorem load_complete_iff (hadvance : ∀ f, advance f ≤ f.size) (fs : List RecordField)
    (bs : List UInt8) (m : Nat → UInt8) : (load advance fs bs m).1 = true ↔ ∀ i f, fs[i]? = some f →
    cursor advance fs i + f.size ≤ bs.length := by
  induction fs generalizing bs m with
  | nil => exact ⟨fun _ i f h => (nomatch h), fun _ => rfl⟩
  | cons g fs ih =>
    rcases Nat.lt_or_ge bs.length g.size with hshort | hlong
    · rw [load_short hshort]
      refine ⟨fun h => (nomatch h), fun h => ?_⟩
      have hfirst := h 0 g rfl
      rw [cursor_zero] at hfirst
      omega
    · have hle := hadvance g
      rw [load_long hlong, ih, List.length_drop]
      constructor
      · intro h i f hi
        cases i with
        | zero =>
          obtain rfl : g = f := by simpa using hi
          rw [cursor_zero]
          omega
        | succ i =>
          have hrest := h i f (by simpa using hi)
          rw [cursor_cons]
          omega
      · intro h i f hi
        have hrest := h (i + 1) f (by simpa using hi)
        rw [cursor_cons] at hrest
        omega

/-- Bytes outside the fields stay. -/
theorem load_of_not_covers {x : Nat} (h : ∀ f ∈ fs, ¬ f.Covers x) :
    (load advance fs bs m).2 x = m x := by
  induction fs generalizing bs m with
  | nil => rfl
  | cons f fs ih =>
    rcases Nat.lt_or_ge bs.length f.size with hshort | hlong
    · rw [load_short hshort]
    · rw [load_long hlong, ih fun g hg => h g (List.mem_cons_of_mem f hg)]
      exact RecordField.set_of_not_covers (List.length_take_le ..) (h f List.mem_cons_self)

/-- **Each field gets the bytes behind the cursor.** -/
theorem load_get (hapart : fs.Pairwise RecordField.Apart)
    (hcomplete : (load advance fs bs m).1 = true) (h : fs[i]? = some f) {a : Nat}
    (hplace : f.place = some a) :
    f.get (load advance fs bs m).2 = (bs.drop (cursor advance fs i)).take f.size := by
  induction fs generalizing bs m i with
  | nil => cases h
  | cons g fs ih =>
    obtain ⟨hfirst, hrest⟩ := List.pairwise_cons.mp hapart
    rcases Nat.lt_or_ge bs.length g.size with hshort | hlong
    · rw [load_short hshort] at hcomplete
      cases hcomplete
    rw [load_long hlong] at hcomplete ⊢
    cases i with
    | zero =>
      obtain rfl : g = f := by simpa using h
      -- the fields behind it do not touch it
      have hstays : g.get (load advance fs (bs.drop (advance g)) (g.set (bs.take g.size) m)).2 =
          g.get (g.set (bs.take g.size) m) :=
        RecordField.get_congr fun x hx => load_of_not_covers fun f hf => hfirst f hf x hx
      rw [hstays, cursor_zero, List.drop_zero]
      exact RecordField.get_set hplace (List.length_take_of_le hlong)
    | succ i => rw [ih hrest hcomplete (by simpa using h), cursor_cons, List.drop_drop]

/-- What is behind `load`, byte by byte. -/
theorem load_apply (fs : List RecordField) (bs : List UInt8) (m : Nat → UInt8) (x : Nat) :
    (load advance fs bs m).2 x = (latest advance fs bs x).getD (m x) := by
  induction fs generalizing bs m with
  | nil => rfl
  | cons f fs ih =>
    rcases Nat.lt_or_ge bs.length f.size with hshort | hlong
    · rw [load_short hshort, latest, if_pos hshort, Option.getD_none]
    · rw [load_long hlong, ih, latest, if_neg (Nat.not_lt.mpr hlong), RecordField.set_apply]
      cases latest advance fs (bs.drop (advance f)) x with
      | none => rfl
      | some b => rfl

/-- **The block stays as it was exactly when it already holds what is set.** -/
theorem load_eq_self_iff (fs : List RecordField) (bs : List UInt8) (m : Nat → UInt8) :
    (load advance fs bs m).2 = m ↔ ∀ x b, latest advance fs bs x = some b → m x = b := by
  constructor
  · intro h x b hb
    have hx : (load advance fs bs m).2 x = (latest advance fs bs x).getD (m x) :=
      load_apply fs bs m x
    rwa [h, hb, Option.getD_some] at hx
  · intro h
    funext x
    rw [load_apply]
    cases hb : latest advance fs bs x with
    | none => rfl
    | some b => exact (h x b hb).symm

end Loading

end PackedFields
