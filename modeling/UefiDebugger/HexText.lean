import Mathlib.Algebra.Group.Nat.Defs
import Mathlib.Data.List.Basic

/-! # Hexadecimal text

Digits, numbers and byte strings spelled in ASCII hexadecimal.  Spelling always uses lower-case
digits; reading accepts both cases.
-/
namespace HexText

/-- The ASCII character `c` as a byte. -/
def char (c : Char) : UInt8 := c.toUInt8

/-- An ASCII text as bytes. -/
def text (s : String) : List UInt8 := s.toList.map char

/-- A literal is a list of characters already, so that rewriting with this does not decode it. -/
theorem text_ofList (cs : List Char) :
    text (String.ofList cs) = cs.map char := by rw [text, String.toList_ofList]

/-! ## Digits -/

/-- The lower-case digit for a value below 16. -/
def digit (n : Nat) : UInt8 := if n < 10 then UInt8.ofNat (48 + n) else UInt8.ofNat (87 + n)

/-- The digits of both cases. -/
def isDigit (c : UInt8) : Bool :=
  (char '0' ≤ c && c ≤ char '9') || (char 'a' ≤ c && c ≤ char 'f') ||
    (char 'A' ≤ c && c ≤ char 'F')

/-- The value of a digit of either case. -/
def digitValue (c : UInt8) : Nat :=
  if c ≤ char '9' then c.toNat - 48 else if c ≤ char 'F' then c.toNat - 55 else c.toNat - 87

/-- A statement about all bytes is checked value by value. -/
theorem forall_byte {p : UInt8 → Prop} (h : ∀ n : Fin 256, p (UInt8.ofNat n)) (b : UInt8) :
    p b := by
  have := h ⟨b.toNat, b.toNat_lt⟩
  simpa using this

theorem isDigit_digit : ∀ n < 16, isDigit (digit n) = true := by decide

theorem digitValue_digit : ∀ n < 16, digitValue (digit n) = n := by decide

theorem digitValue_lt : ∀ c, isDigit c = true → digitValue c < 16 :=
  forall_byte (by decide +kernel)

/-! ## Numbers -/

/-- The number a string of digits spells. -/
def value (cs : List UInt8) : Nat := cs.foldl (fun v c => 16 * v + digitValue c) 0

/-! ## Byte strings -/

/-- The two digits of a byte. -/
def spellByte (b : UInt8) : List UInt8 := [digit (b.toNat / 16), digit (b.toNat % 16)]

/-- Every byte as its two digits. -/
def spell (bs : List UInt8) : List UInt8 := bs.flatMap spellByte

@[simp] theorem spell_nil : spell [] = [] := rfl

@[simp] theorem spell_cons (b : UInt8) (bs : List UInt8) :
    spell (b :: bs) = spellByte b ++ spell bs := rfl

@[simp] theorem spell_append (as bs : List UInt8) : spell (as ++ bs) = spell as ++ spell bs := by
  simp [spell]

theorem spell_length (bs : List UInt8) : (spell bs).length = 2 * bs.length := by
  induction bs with
  | nil => rfl
  | cons b bs ih =>
    rw [spell_cons, List.length_append, ih, List.length_cons]
    show 2 + 2 * bs.length = _
    omega

/-- The byte two digits spell. -/
def readByte (c d : UInt8) : UInt8 := UInt8.ofNat (16 * digitValue c + digitValue d)

/-- The bytes a string of digit pairs spells. -/
def readBytes : List UInt8 → List UInt8
  | c :: d :: cs => readByte c d :: readBytes cs
  | _ => []

theorem readByte_spellByte (b : UInt8) :
    readByte (digit (b.toNat / 16)) (digit (b.toNat % 16)) = b := by
  have h1 : b.toNat / 16 < 16 := by have := b.toNat_lt; omega
  have h2 : b.toNat % 16 < 16 := Nat.mod_lt _ (by omega)
  rw [readByte, digitValue_digit _ h1, digitValue_digit _ h2, Nat.div_add_mod]
  exact UInt8.ofNat_toNat

/-- Reading undoes spelling. -/
@[simp] theorem readBytes_spell (bs : List UInt8) : readBytes (spell bs) = bs := by
  induction bs with
  | nil => rfl
  | cons b bs ih =>
    show readByte _ _ :: readBytes (spell bs) = _
    rw [ih, readByte_spellByte]

theorem spell_injective {as bs : List UInt8} (h : spell as = spell bs) : as = bs := by
  have hread := congrArg readBytes h
  rwa [readBytes_spell, readBytes_spell] at hread

theorem readBytes_length : ∀ {n : Nat} {ds : List UInt8}, ds.length = 2 * n →
    (readBytes ds).length = n
  | 0, [], _ => rfl
  | 0, _ :: _, h => by simp at h
  | n + 1, [], h => by simp at h
  | n + 1, [_], h => by simp at h; omega
  | n + 1, c :: d :: ds, h => by
      have := readBytes_length (n := n) (by simp at h; omega : ds.length = 2 * n)
      simp [readBytes, this]

theorem readBytes_append : ∀ {n : Nat} {as : List UInt8} (bs : List UInt8), as.length = 2 * n →
    readBytes (as ++ bs) = readBytes as ++ readBytes bs
  | 0, [], _, _ => rfl
  | 0, _ :: _, _, h => by simp at h
  | n + 1, [], _, h => by simp at h
  | n + 1, [_], _, h => by simp at h; omega
  | n + 1, c :: d :: as, bs, h => by
      have := readBytes_append bs (by simp at h; omega : as.length = 2 * n)
      simp [readBytes, this]

theorem isDigit_of_mem_spell {bs : List UInt8} {c : UInt8} (h : c ∈ spell bs) :
    isDigit c = true := by
  obtain ⟨b, -, hc⟩ := List.mem_flatMap.mp h
  have hb := b.toNat_lt
  rcases List.mem_cons.mp hc with rfl | hc
  · exact isDigit_digit _ (by omega)
  · rw [List.mem_singleton] at hc
    subst c
    exact isDigit_digit _ (Nat.mod_lt _ (by omega))

/-! ## Either case -/

/-- A digit of upper case in lower case; other characters stay. -/
def lowerCase (c : UInt8) : UInt8 := if char 'A' ≤ c ∧ c ≤ char 'F' then c + 32 else c

theorem isDigit_lowerCase : ∀ c, isDigit (lowerCase c) = isDigit c :=
  forall_byte (by decide +kernel)

theorem digitValue_lowerCase : ∀ c, digitValue (lowerCase c) = digitValue c :=
  forall_byte (by decide +kernel)

theorem readByte_lowerCase (c d : UInt8) : readByte (lowerCase c) (lowerCase d) = readByte c d := by
  rw [readByte, digitValue_lowerCase, digitValue_lowerCase, ← readByte]

/-- The case of the digits does not matter. -/
theorem readBytes_map_lowerCase : ∀ ds : List UInt8, readBytes (ds.map lowerCase) = readBytes ds
  | [] => rfl
  | [_] => rfl
  | c :: d :: ds => by
      rw [List.map_cons, List.map_cons, readBytes, readByte_lowerCase, readBytes_map_lowerCase ds,
        readBytes]

/-- Spelling undoes reading, but for the case. -/
theorem spell_readBytes : ∀ {n : Nat} {ds : List UInt8}, ds.length = 2 * n →
    (∀ c ∈ ds, isDigit c = true) →
    spell (readBytes ds) = ds.map lowerCase
  | 0, [], _, _ => rfl
  | 0, _ :: _, h, _ => by simp at h
  | n + 1, [], h, _ => by simp at h
  | n + 1, [_], h, _ => by simp at h; omega
  | n + 1, c :: d :: ds, h, hd => by
      have hdigit : ∀ c, isDigit c = true → digit (digitValue c) = lowerCase c :=
        forall_byte (by decide +kernel)
      have hc : isDigit c = true := hd c (by simp)
      have hd' : isDigit d = true := hd d (by simp)
      have hcv := digitValue_lt c hc
      have hdv := digitValue_lt d hd'
      have hbyte : (readByte c d).toNat = 16 * digitValue c + digitValue d :=
        UInt8.toNat_ofNat_of_lt' (by show _ < 256; omega)
      have hhigh : (readByte c d).toNat / 16 = digitValue c := by omega
      have hlow : (readByte c d).toNat % 16 = digitValue d := by omega
      rw [readBytes, spell_cons, spell_readBytes (by simp at h; omega : ds.length = 2 * n)
        fun x hx => hd x (by simp [hx]), spellByte, hhigh, hlow, hdigit c hc, hdigit d hd']
      rfl

theorem lowerCase_of_mem_spell {bs : List UInt8} {c : UInt8} (h : c ∈ spell bs) :
    lowerCase c = c := by
  have hdigit : ∀ n < 16, lowerCase (digit n) = digit n := by decide
  obtain ⟨b, -, hc⟩ := List.mem_flatMap.mp h
  have hb := b.toNat_lt
  rcases List.mem_cons.mp hc with rfl | hc
  · exact hdigit _ (by omega)
  · rw [List.mem_singleton] at hc
    rw [hc]
    exact hdigit _ (Nat.mod_lt _ (by omega))

theorem map_lowerCase_spell (bs : List UInt8) : (spell bs).map lowerCase = spell bs := by
  have hsame : (spell bs).map lowerCase = (spell bs).map id :=
    List.map_congr_left fun c hc => lowerCase_of_mem_spell hc
  rw [hsame, List.map_id]

section Spelled
variable {ds bs : List UInt8} (h : ds.map lowerCase = spell bs)
include h

/-- A spelling in either case is read back. -/
theorem readBytes_of_spelled : readBytes ds = bs := by
  rw [← readBytes_map_lowerCase, h, readBytes_spell]

theorem length_of_spelled : ds.length = 2 * bs.length := by
  rw [← spell_length, ← h, List.length_map]

theorem isDigit_of_spelled : ∀ c ∈ ds, isDigit c = true := by
  intro c hc
  have hmem : lowerCase c ∈ spell bs := h ▸ List.mem_map_of_mem hc
  rw [← isDigit_lowerCase]
  exact isDigit_of_mem_spell hmem

end Spelled

end HexText
