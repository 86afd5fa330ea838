import Mathlib.Data.Nat.Bitwise

/-!
# Fields of a machine word

What a mask of consecutive ones, or of a single one, selects of a word, as arithmetic on its value,
and the bit fields of a word as a union declares them.
-/
namespace WordFields

/-- Masking with `n` ones from bit `k` on leaves a field where it is. -/
theorem and_field (x n k : Nat) : x &&& (2 ^ n - 1) * 2 ^ k = x / 2 ^ k % 2 ^ n * 2 ^ k := by
  apply Nat.eq_of_testBit_eq
  intro i
  rw [Nat.testBit_and, Nat.testBit_mul_two_pow, Nat.testBit_mul_two_pow,
    Nat.testBit_two_pow_sub_one, Nat.testBit_mod_two_pow, Nat.testBit_div_two_pow]
  by_cases h : k ≤ i
  · simp [h, Bool.and_comm]
  · simp [h]

theorem toNat_and_field (a mask : UInt64) (n k : Nat) (h : mask.toNat = (2 ^ n - 1) * 2 ^ k) :
    (a &&& mask).toNat = a.toNat / 2 ^ k % 2 ^ n * 2 ^ k := by
  rw [UInt64.toNat_and, h, and_field]

/-- Masking with a power of two looks at one bit. -/
theorem and_ne_zero_eq_testBit (e mask : UInt64) (i : Nat) (h : mask.toNat = 2 ^ i) :
    (e &&& mask != 0) = e.toNat.testBit i := by
  have hz : (e &&& mask = 0) ↔ e.toNat &&& 2 ^ i = 0 := by
    rw [← UInt64.toNat_inj, UInt64.toNat_and, h, UInt64.toNat_zero]
  rw [Nat.and_two_pow] at hz
  cases hb : e.toNat.testBit i <;> simp_all

/-! ## Bit fields -/

section Fields
variable {n width width' lo lo' : Nat}

/-- The field of `width` bits from bit `lo` on. -/
def field (lo width : Nat) (w : BitVec n) : BitVec width := w.extractLsb' lo width

/-- The word with that field replaced. -/
def setField (lo : Nat) {width : Nat} (v : BitVec width) (w : BitVec n) : BitVec n :=
  (w &&& ~~~((BitVec.allOnes width).setWidth n <<< lo)) ||| (v.setWidth n <<< lo)

theorem getLsbD_field (w : BitVec n) (i : Nat) :
    (field lo width w).getLsbD i = (decide (i < width) && w.getLsbD (lo + i)) :=
  BitVec.getLsbD_extractLsb' ..

theorem getLsbD_setField (v : BitVec width) (w : BitVec n) (i : Nat) :
    (setField lo v w).getLsbD i =
      if lo ≤ i ∧ i < lo + width then decide (i < n) && v.getLsbD (i - lo) else w.getLsbD i := by
  rw [setField, BitVec.getLsbD_or, BitVec.getLsbD_and, BitVec.getLsbD_not, BitVec.getLsbD_shiftLeft,
    BitVec.getLsbD_shiftLeft, BitVec.getLsbD_setWidth, BitVec.getLsbD_setWidth,
    BitVec.getLsbD_allOnes]
  by_cases hn : i < n
  · by_cases hlo : i < lo
    · simp [hn, hlo, Nat.not_le.mpr hlo]
    · by_cases hhi : i - lo < width
      · have hin : lo ≤ i ∧ i < lo + width := ⟨by omega, by omega⟩
        have hsub : i - lo < n := by omega
        simp [hn, hlo, hhi, hin, hsub]
      · have hout : ¬ (lo ≤ i ∧ i < lo + width) := by omega
        have hzero : v.getLsbD (i - lo) = false := BitVec.getLsbD_of_ge v _ (by omega)
        simp [hn, hhi, hout, hzero]
  · simp [hn, BitVec.getLsbD_of_ge w i (by omega)]

/-- A field reads back as it was stored. -/
theorem field_setField (v : BitVec width) (w : BitVec n) (h : lo + width ≤ n) :
    field lo width (setField lo v w) = v := by
  apply BitVec.eq_of_getLsbD_eq
  intro i hi
  have hin : lo ≤ lo + i ∧ lo + i < lo + width := by omega
  have hn : lo + i < n := by omega
  rw [getLsbD_field, getLsbD_setField, if_pos hin]
  simp [hi, hn]

/-- Fields that do not overlap do not see each other. -/
theorem field_setField_of_disjoint (v : BitVec width) (w : BitVec n)
    (h : lo' + width' ≤ lo ∨ lo + width ≤ lo') :
    field lo' width' (setField lo v w) = field lo' width' w := by
  apply BitVec.eq_of_getLsbD_eq
  intro i hi
  have hout : ¬ (lo ≤ lo' + i ∧ lo' + i < lo + width) := by omega
  rw [getLsbD_field, getLsbD_field, getLsbD_setField, if_neg hout]

/-- Outside the field no bit changes. -/
theorem getLsbD_setField_of_outside (v : BitVec width) (w : BitVec n) {i : Nat}
    (h : i < lo ∨ lo + width ≤ i) : (setField lo v w).getLsbD i = w.getLsbD i := by
  have hout : ¬ (lo ≤ i ∧ i < lo + width) := by omega
  rw [getLsbD_setField, if_neg hout]

end Fields

end WordFields
