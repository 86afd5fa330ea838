import Mathlib.Algebra.Group.Nat.Defs
import UefiDebugger.ByteString

/-! # Words stored in bytes

Sixty-four bit words in a byte store, the lowest byte first.  A word that was stored is read back,
and storing one does not change a word it does not overlap. -/
namespace StoredWords
open ByteString

/-- The number a byte string spells, the lowest byte first. -/
def value : List UInt8 → Nat
  | [] => 0
  | b :: bs => b.toNat + 256 * value bs

/-- The lowest `n` bytes of a number. -/
def bytes : (n v : Nat) → List UInt8
  | 0, _ => []
  | n + 1, v => UInt8.ofNat v :: bytes n (v / 256)

@[simp] theorem length_bytes (n v : Nat) : (bytes n v).length = n := by
  induction n generalizing v with
  | zero => rfl
  | succ n ih => rw [bytes, List.length_cons, ih]

theorem value_bytes (n v : Nat) : value (bytes n v) = v % 256 ^ n := by
  induction n generalizing v with
  | zero => rw [Nat.pow_zero, Nat.mod_one]; rfl
  | succ n ih =>
    have hbyte : (UInt8.ofNat v).toNat = v % 256 := UInt8.toNat_ofNat'
    rw [bytes, value, ih, hbyte, Nat.pow_succ, Nat.mul_comm (256 ^ n), Nat.mod_mul]

/-- The word at `i`. -/
def word (f : Nat → UInt8) (i : Nat) : UInt64 := UInt64.ofNat (value (slice f i 8))

/-- `f` with a word stored at `i`. -/
def setWord (f : Nat → UInt8) (i : Nat) (v : UInt64) : Nat → UInt8 := store f i (bytes 8 v.toNat)

section Laws
variable {f g : Nat → UInt8} {i j : Nat} {v : UInt64}

@[simp] theorem word_setWord : word (setWord f i v) i = v := by
  have hslice : slice (setWord f i v) i 8 = bytes 8 v.toNat := by
    have h := (holds_store f i (bytes 8 v.toNat)).slice_eq
    rwa [length_bytes] at h
  have hbelow : v.toNat < 256 ^ 8 := v.toNat_lt
  rw [word, hslice, value_bytes, Nat.mod_eq_of_lt hbelow, UInt64.ofNat_toNat]

theorem word_congr (h : ∀ k, i ≤ k → k < i + 8 → f k = g k) : word f i = word g i := by
  rw [word, word, slice_congr h]

/-- A word apart from the one stored. -/
theorem word_setWord_of_apart (h : j + 8 ≤ i ∨ i + 8 ≤ j) : word (setWord f i v) j = word f j := by
  refine word_congr fun k hj hk => ?_
  rcases h with h | h
  · exact store_of_lt (by omega)
  · exact store_of_ge (by rw [length_bytes]; omega)

end Laws
end StoredWords
