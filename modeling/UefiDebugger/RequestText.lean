import UefiDebugger.CommandFrames

/-!
# Commands as texts

A handler is given an offset into `mRequest` and cuts the text there into pieces by overwriting
delimiters with NULs.  `Parsing c z s₀ s` says that `s` is `s₀` but for the request buffer, which
holds the text `z`, NUL-terminated, at offset `c`, and that nothing behind the terminator was looked
at.  Each library call on the request then has a value that is a function of `z`, and the memory and
breakpoint commands become functions of their text.
-/
namespace UefiDebugger
open HexText ByteString StateEffect

variable {σ : Type}

/-- The C string at an index of a NUL-terminated text. -/
def textAt (z : List UInt8) (k : Nat) : List UInt8 := (z.drop k).takeWhile (· ≠ 0)

/-- The payload of the packet under execution is in the request buffer, as `ProcessGdbPacket` leaves
it: at offset 1 and terminated where the `#` was. -/
structure Payload (b : ByteBuffer) (p : List UInt8) : Prop where
  held : Holds b.bytes 1 (p ++ [0])
  fits : p.length + 4 ≤ maxRequestSize

/-- `s` is `s₀` on the way through the text `z` at offset `c`. -/
structure Parsing (c : Nat) (z : List UInt8) (s₀ s : Stub σ) : Prop where
  same : s = { s₀ with mRequest := s.mRequest }
  held : Holds s.mRequest.bytes c (z ++ [0])
  read : s.mRequest.readTop ≤ max s₀.mRequest.readTop (c + z.length + 1)
  fits : z.length < pcdMaximumAsciiStringLength

section Parsing
variable {c k : Nat} {z : List UInt8} {s₀ s : Stub σ} (h : Parsing c z s₀ s)
include h

theorem Parsing.mark {top : Nat} (ht : top ≤ c + z.length + 1) :
    Parsing c z s₀ { s with mRequest := s.mRequest.mark top } where
  same := by rw [h.same]
  held := h.held
  read := by
    have := h.read
    show max s.mRequest.readTop top ≤ _
    omega
  fits := h.fits

theorem Parsing.suffix (hk : k ≤ z.length) : Holds s.mRequest.bytes (c + k) (z.drop k ++ [0]) := by
  have hsplit : Holds s.mRequest.bytes c (z.take k ++ (z.drop k ++ [0])) := by
    rw [← List.append_assoc, List.take_append_drop]
    exact h.held
  have := (holds_append.mp hsplit).2
  rwa [List.length_take, Nat.min_eq_left hk] at this

theorem Parsing.strLen_eq (hk : k ≤ z.length) :
    strLen s.mRequest.bytes pcdMaximumAsciiStringLength (c + k) = (textAt z k).length :=
  strLen_of_holds (h.suffix hk) (Nat.lt_of_le_of_lt (by simp) h.fits)

theorem Parsing.cString_eq (hk : k ≤ z.length) :
    cString s.mRequest.bytes pcdMaximumAsciiStringLength (c + k) = textAt z k :=
  cString_of_holds (h.suffix hk) (Nat.lt_of_le_of_lt (by simp) h.fits)

omit h in
theorem textAt_length_le (z : List UInt8) (k : Nat) : (textAt z k).length ≤ z.length - k :=
  (List.takeWhile_sublist _).length_le.trans (by simp)

/-! ## The library calls -/

theorem Parsing.scanMem8 (v : UInt8) : ∃ s', (scanMem8 c z.length v).run s =
    (if v ∈ z then some (c + z.idxOf v) else none, s') ∧ Parsing c z s₀ s' := by
  have hfind := findByte_of_holds (v := v) (holds_append.mp h.held).1
  by_cases hv : v ∈ z
  · have hlt := List.idxOf_lt_length_of_mem hv
    rw [if_pos hv] at hfind ⊢
    exact ⟨_, by rw [UefiDebugger.scanMem8, run_modifyGet, hfind], h.mark (by omega)⟩
  · rw [if_neg hv] at hfind ⊢
    exact ⟨_, by rw [UefiDebugger.scanMem8, run_modifyGet, hfind], h.mark (by omega)⟩

/-- The same scan over the string at an index of the text. -/
theorem Parsing.scanText (hk : k ≤ z.length) (v : UInt8) :
    ∃ s', (UefiDebugger.scanMem8 (c + k) (textAt z k).length v).run s =
      (if v ∈ textAt z k then some (c + k + (textAt z k).idxOf v) else none, s') ∧
    Parsing c z s₀ s' := by
  have hle := textAt_length_le z k
  have hheld : Holds s.mRequest.bytes (c + k) (textAt z k) := by
    have hsuffix := (holds_append.mp (h.suffix hk)).1
    rw [← List.takeWhile_append_dropWhile (p := (· ≠ 0)) (l := z.drop k)] at hsuffix
    exact (holds_append.mp hsuffix).1
  have hfind := findByte_of_holds (v := v) hheld
  by_cases hv : v ∈ textAt z k
  · have hlt := List.idxOf_lt_length_of_mem hv
    rw [if_pos hv] at hfind ⊢
    exact ⟨_, by rw [UefiDebugger.scanMem8, run_modifyGet, hfind], h.mark (by omega)⟩
  · rw [if_neg hv] at hfind ⊢
    exact ⟨_, by rw [UefiDebugger.scanMem8, run_modifyGet, hfind], h.mark (by omega)⟩

theorem Parsing.asciiStrLen (hk : k ≤ z.length) : ∃ s', (asciiStrLen (c + k)).run s =
    ((textAt z k).length, s') ∧ Parsing c z s₀ s' := by
  have hle := textAt_length_le z k
  refine ⟨_, Prod.ext (h.strLen_eq hk) rfl, ?_⟩
  exact h.mark (by rw [h.strLen_eq hk]; omega)

theorem Parsing.readString (hk : k ≤ z.length) : ∃ s', (readString (c + k)).run s =
    (textAt z k, s') ∧ Parsing c z s₀ s' := by
  have hle := textAt_length_le z k
  refine ⟨_, Prod.ext (h.cString_eq hk) rfl, ?_⟩
  exact h.mark (by rw [h.cString_eq hk]; omega)

theorem Parsing.asciiStrHexToUint64S (P : Platform σ) (hk : k ≤ z.length) :
    ∃ s', (asciiStrHexToUint64S P (c + k)).run s =
      (P.baseLib.asciiStrHexToUint64S (textAt z k), s') ∧ Parsing c z s₀ s' := by
  obtain ⟨s', hrun, h'⟩ := h.readString hk
  exact ⟨s', by rw [UefiDebugger.asciiStrHexToUint64S, run_bind, hrun]; rfl, h'⟩

theorem Parsing.asciiStrHexToUintn (P : Platform σ) (hk : k ≤ z.length) :
    ∃ s', (asciiStrHexToUintn P (c + k)).run s =
      (P.baseLib.asciiStrHexToUintn (textAt z k), s') ∧ Parsing c z s₀ s' := by
  obtain ⟨s', hrun, h'⟩ := h.readString hk
  exact ⟨s', by rw [UefiDebugger.asciiStrHexToUintn, run_bind, hrun]; rfl, h'⟩

/-- Terminating a piece of the text. -/
theorem Parsing.writeRequest (hk : k < z.length) : ∃ s', (writeRequest (c + k) 0).run s = ((), s') ∧
    Parsing c (z.set k 0) s₀ s' := by
  refine ⟨_, rfl, ?_⟩
  constructor
  · rw [h.same]
  · have hset := h.held.set (k := k) 0
    rwa [List.set_append_left _ _ hk] at hset
  · have := h.read
    rwa [List.length_set]
  · rw [List.length_set]
    exact h.fits

end Parsing

/-! ## Digits and delimiters -/

/-- A number in hexadecimal. -/
structure Digits (ds : List UInt8) : Prop where
  nonempty : ds ≠ []
  digits : ∀ c ∈ ds, isDigit c = true
  fits : value ds < 2 ^ 64

theorem Digits.of_all {ds : List UInt8}
    (h : ds ≠ [] ∧ ds.all isDigit = true ∧ value ds < 2 ^ 64) : Digits ds :=
  ⟨h.1, List.all_eq_true.mp h.2.1, h.2.2⟩

theorem Digits.not_mem {ds : List UInt8} (h : ∀ c ∈ ds, isDigit c = true) {c : UInt8}
    (hc : isDigit c = false) : c ∉ ds := fun hmem => by
  rw [h c hmem] at hc
  cases hc

/-- A piece of a text that a NUL follows. -/
theorem textAt_mid (as : List UInt8) {bs zs : List UInt8} (h : (0 : UInt8) ∉ bs) :
    textAt (as ++ (bs ++ 0 :: zs)) as.length = bs := by
  rw [textAt, List.drop_left, List.takeWhile_append_of_pos fun x hx => by
    simpa using fun he : x = 0 => h (he ▸ hx)]
  simp

/-- The last piece of a text. -/
theorem textAt_last (as : List UInt8) {bs : List UInt8} (h : (0 : UInt8) ∉ bs) :
    textAt (as ++ bs) as.length = bs := by
  rw [textAt, List.drop_left, takeWhile_ne h]

theorem idxOf_delimiter {as zs : List UInt8} {v : UInt8} (h : v ∉ as) :
    (as ++ v :: zs).idxOf v = as.length := by
  rw [List.idxOf_append_of_notMem h, List.idxOf_cons_self, Nat.add_zero]

theorem set_delimiter (as zs : List UInt8) (v a : UInt8) :
    (as ++ v :: zs).set as.length a = as ++ a :: zs := by
  rw [List.set_append_right _ _ (Nat.le_refl _), Nat.sub_self, List.set_cons_zero]

/-! ## The memory commands -/

/-- Overwriting something else by something else does not move the first `v`. -/
theorem idxOf_set {v a : UInt8} (ha : a ≠ v) :
    ∀ {w : List UInt8} {i : Nat}, w[i]? ≠ some v →
      (w.set i a).idxOf v = w.idxOf v ∧ (v ∈ w.set i a ↔ v ∈ w)
  | [], _, _ => by simp
  | b :: w, 0, h => by
      have hb : b ≠ v := by simpa using h
      simp [List.idxOf_cons_ne _ ha, List.idxOf_cons_ne _ hb, ha.symm, hb.symm]
  | b :: w, i + 1, h => by
      obtain ⟨h1, h2⟩ := idxOf_set ha (w := w) (i := i) (by simpa using h)
      rw [List.set_cons_succ]
      refine ⟨?_, by rw [List.mem_cons, h2, List.mem_cons]⟩
      by_cases hb : b = v
      · rw [hb, List.idxOf_cons_self, List.idxOf_cons_self]
      · rw [List.idxOf_cons_ne _ hb, List.idxOf_cons_ne _ hb, h1]

/-- The address and the length of a memory command whose text was cut into `z`, the length at
`l`. -/
def parseNumbers (P : Platform σ) (z : List UInt8) (l : Nat) : Option (Nat × Nat) :=
  match P.baseLib.asciiStrHexToUint64S (textAt z 0) with
  | none => none
  | some Address =>
      match P.baseLib.asciiStrHexToUint64S (textAt z l) with
      | none => none
      | some Length => some (Address, Length)

theorem Parsing.memoryNumbers {c l : Nat} {z : List UInt8} {s₀ s : Stub σ} (h : Parsing c z s₀ s)
    (P : Platform σ) (hl : l ≤ z.length) :
    ∃ s', (memoryNumbers P c (c + l)).run s = (parseNumbers P z l, s') ∧ Parsing c z s₀ s' := by
  obtain ⟨s1, hrun1, h1⟩ := h.asciiStrHexToUint64S P (Nat.zero_le z.length)
  rw [UefiDebugger.memoryNumbers, run_bind]
  rw [Nat.add_zero] at hrun1
  rw [hrun1, parseNumbers]
  cases P.baseLib.asciiStrHexToUint64S (textAt z 0) with
  | none => exact ⟨s1, rfl, h1⟩
  | some Address =>
    obtain ⟨s2, hrun2, h2⟩ := h1.asciiStrHexToUint64S P hl
    dsimp only
    rw [run_bind, hrun2]
    cases P.baseLib.asciiStrHexToUint64S (textAt z l) with
    | none => exact ⟨s2, rfl, h2⟩
    | some Length => exact ⟨s2, rfl, h2⟩

/-- Two numbers in hexadecimal are read as written. -/
theorem parseNumbers_digits (P : Platform σ) {as ls zs : List UInt8} (ha : Digits as)
    (hl : Digits ls) (hz : textAt (as ++ 0 :: zs) (as.length + 1) = ls) :
    parseNumbers P (as ++ 0 :: zs) (as.length + 1) = some (value as, value ls) := by
  have h0 : textAt (as ++ 0 :: zs) 0 = as := textAt_mid [] (Digits.not_mem ha.digits rfl)
  rw [parseNumbers, h0, hz, P.baseLib.uint64S_digits as ha.nonempty ha.digits, if_pos ha.fits,
    P.baseLib.uint64S_digits ls hl.nonempty hl.digits, if_pos hl.fits]

/-- The text of an `M` command once both delimiters are terminated. -/
def cutMemoryWrite (w : List UInt8) : List UInt8 :=
  (w.set (w.idxOf (char ',')) 0).set (w.idxOf (char ':')) 0

/-- What `ProcessMemoryCommand` makes of a text. -/
inductive MemoryRequest where
  | badRequest
  | badLength
  | transfer (Address Length Value : Nat)
  deriving DecidableEq

/-- What it makes of the text of an `M` command. -/
def parseMemoryWrite (P : Platform σ) (w : List UInt8) : MemoryRequest :=
  if char ',' ∈ w ∧ char ':' ∈ w then
    match parseNumbers P (cutMemoryWrite w) (w.idxOf (char ',') + 1) with
    | none => .badRequest
    | some (Address, Length) =>
        if (textAt (cutMemoryWrite w) (w.idxOf (char ':') + 1)).length ≠ Length * 2 % 2 ^ 64 then
          .badLength
        else .transfer Address Length (w.idxOf (char ':') + 1)
  else .badRequest

/-- What it does then. -/
def finishMemoryWrite (P : Platform σ) (c : Nat) : MemoryRequest → StubM σ Unit
  | .badRequest => sendGdbError gdbErrorBadRequest
  | .badLength => do
      assert .memoryLength false
      sendGdbError gdbErrorBadRequest
  | .transfer Address Length Value => memoryWriteTransfer P Address Length (c + Value)

/-- **The parse of an `M` command is a function of its text.** -/
theorem Parsing.processMemoryWrite {c : Nat} {w : List UInt8} {s₀ s : Stub σ}
    (h : Parsing c w s₀ s) (P : Platform σ) :
    ∃ z s', (processMemoryCommand P true c w.length).run s =
        (finishMemoryWrite P c (parseMemoryWrite P w)).run s' ∧ Parsing c z s₀ s' ∧
      z.length = w.length ∧
      ∀ a l v, parseMemoryWrite P w = .transfer a l v → z = cutMemoryWrite w := by
  obtain ⟨s1, hrun1, h1⟩ := h.scanMem8 (char ',')
  rw [processMemoryCommand, run_bind, hrun1]
  by_cases hcomma : char ',' ∈ w
  swap
  · rw [if_neg hcomma, parseMemoryWrite, if_neg (fun h => hcomma h.1)]
    exact ⟨w, s1, rfl, h1, rfl, fun _ _ _ h => nomatch h⟩
  have hci := List.idxOf_lt_length_of_mem hcomma
  obtain ⟨s2, hrun2, h2⟩ := h1.writeRequest hci
  rw [if_pos hcomma]
  dsimp only
  rw [run_bind, hrun2, if_pos rfl]
  set z := w.set (w.idxOf (char ',')) 0 with hz
  have hzlen : z.length = w.length := by rw [hz, List.length_set]
  -- The NUL in place of the comma does not move the colon.
  obtain ⟨hidx, hmem⟩ : z.idxOf (char ':') = w.idxOf (char ':') ∧
    (char ':' ∈ z ↔ char ':' ∈ w) := by
    refine idxOf_set (by decide) ?_
    rw [List.getElem?_eq_getElem hci, List.getElem_idxOf]
    decide
  obtain ⟨s3, hrun3, h3⟩ := h2.scanMem8 (char ':')
  rw [hzlen] at hrun3
  dsimp only
  rw [UefiDebugger.processMemoryWrite, run_bind, hrun3]
  by_cases hcolon : char ':' ∈ w
  swap
  · rw [if_neg (mt hmem.mp hcolon), parseMemoryWrite, if_neg (fun h => hcolon h.2)]
    exact ⟨z, s3, rfl, h3, hzlen, fun _ _ _ h => nomatch h⟩
  have hvi : w.idxOf (char ':') < z.length := hzlen ▸ List.idxOf_lt_length_of_mem hcolon
  rw [if_pos (hmem.mpr hcolon), hidx, parseMemoryWrite, if_pos ⟨hcomma, hcolon⟩]
  obtain ⟨s4, hrun4, h4⟩ := h3.writeRequest hvi
  dsimp only
  rw [run_bind, hrun4]
  -- With both delimiters cut, each of the three texts ends in front of the next.
  have hcut : cutMemoryWrite w = z.set (w.idxOf (char ':')) 0 := rfl
  rw [← hcut] at h4
  have hcutlen : (cutMemoryWrite w).length = w.length := by rw [hcut, List.length_set, hzlen]
  obtain ⟨s5, hrun5, h5⟩ := h4.memoryNumbers P (l := w.idxOf (char ',') + 1) (by omega)
  dsimp only
  rw [run_bind, show c + w.idxOf (char ',') + 1 = c + (w.idxOf (char ',') + 1) from rfl, hrun5]
  cases parseNumbers P (cutMemoryWrite w) (w.idxOf (char ',') + 1) with
  | none => exact ⟨cutMemoryWrite w, s5, rfl, h5, hcutlen, fun _ _ _ h => nomatch h⟩
  | some numbers =>
    obtain ⟨Address, Length⟩ := numbers
    obtain ⟨s6, hrun6, h6⟩ := h5.asciiStrLen (k := w.idxOf (char ':') + 1) (by omega)
    dsimp only
    rw [run_bind, show c + w.idxOf (char ':') + 1 = c + (w.idxOf (char ':') + 1) from rfl, hrun6]
    dsimp only
    refine ⟨cutMemoryWrite w, s6, ?_, h6, hcutlen, fun _ _ _ _ => rfl⟩
    split
    · rfl
    · rfl

/-- What `ProcessMemoryCommand` makes of the text of an `m` command. -/
def parseMemoryRead (P : Platform σ) (w : List UInt8) : Option (Nat × Nat) :=
  if char ',' ∈ w then
    parseNumbers P (w.set (w.idxOf (char ',')) 0) (w.idxOf (char ',') + 1)
  else none

theorem parseMemoryRead_digits (P : Platform σ) {as ls : List UInt8} (ha : Digits as)
    (hl : Digits ls) :
    parseMemoryRead P (as ++ char ',' :: ls) = some (value as, value ls) := by
  have hcomma : char ',' ∉ as := Digits.not_mem ha.digits rfl
  rw [parseMemoryRead, if_pos (by simp), idxOf_delimiter hcomma, set_delimiter]
  refine parseNumbers_digits P ha hl ?_
  have := textAt_last (as ++ [0]) (Digits.not_mem hl.digits rfl)
  simpa using this

/-- What it does then. -/
def finishMemoryRead (P : Platform σ) : Option (Nat × Nat) → StubM σ Unit
  | none => sendGdbError gdbErrorBadRequest
  | some (Address, Length) => memoryReadTransfer P Address Length

/-- **The parse of an `m` command is a function of its text.** -/
theorem Parsing.processMemoryRead {c : Nat} {w : List UInt8} {s₀ s : Stub σ}
    (h : Parsing c w s₀ s) (P : Platform σ) :
    ∃ z s', (processMemoryCommand P false c w.length).run s =
        (finishMemoryRead P (parseMemoryRead P w)).run s' ∧ Parsing c z s₀ s' := by
  obtain ⟨s1, hrun1, h1⟩ := h.scanMem8 (char ',')
  rw [processMemoryCommand, run_bind, hrun1]
  by_cases hcomma : char ',' ∈ w
  swap
  · rw [if_neg hcomma, parseMemoryRead, if_neg hcomma]
    exact ⟨w, s1, rfl, h1⟩
  have hci := List.idxOf_lt_length_of_mem hcomma
  obtain ⟨s2, hrun2, h2⟩ := h1.writeRequest hci
  rw [if_pos hcomma, parseMemoryRead, if_pos hcomma]
  dsimp only
  rw [run_bind, hrun2, if_neg (by decide)]
  obtain ⟨s3, hrun3, h3⟩ := h2.memoryNumbers P (l := w.idxOf (char ',') + 1)
    (by rw [List.length_set]; exact hci)
  dsimp only
  rw [UefiDebugger.processMemoryRead, run_bind,
    show c + w.idxOf (char ',') + 1 = c + (w.idxOf (char ',') + 1) from rfl, hrun3]
  refine ⟨_, s3, ?_, h3⟩
  cases parseNumbers P (w.set (w.idxOf (char ',')) 0) (w.idxOf (char ',') + 1) with
  | none => rfl
  | some numbers => rfl

theorem parseMemoryWrite_digits (P : Platform σ) {as ls ds : List UInt8} (ha : Digits as)
    (hl : Digits ls) (hd : ∀ c ∈ ds, isDigit c = true) (hlen : ds.length = 2 * value ls)
    (hfits : ds.length < 2 ^ 64) :
    parseMemoryWrite P (as ++ char ',' :: (ls ++ char ':' :: ds)) =
        .transfer (value as) (value ls) (as.length + ls.length + 2) ∧
      cutMemoryWrite (as ++ char ',' :: (ls ++ char ':' :: ds)) = as ++ 0 :: (ls ++ 0 :: ds) := by
  have hcomma : (as ++ char ',' :: (ls ++ char ':' :: ds)).idxOf (char ',') = as.length :=
    idxOf_delimiter (Digits.not_mem ha.digits rfl)
  have hfront : char ':' ∉ as ++ char ',' :: ls := by
    simp only [List.mem_append, List.mem_cons, not_or]
    exact ⟨Digits.not_mem ha.digits rfl, by decide, Digits.not_mem hl.digits rfl⟩
  have hassoc : as ++ char ',' :: (ls ++ char ':' :: ds) =
      (as ++ char ',' :: ls) ++ char ':' :: ds := by simp
  have hcolon : (as ++ char ',' :: (ls ++ char ':' :: ds)).idxOf (char ':') =
      as.length + ls.length + 1 := by
    rw [hassoc, idxOf_delimiter hfront, List.length_append, List.length_cons, Nat.add_assoc]
  have hcut : cutMemoryWrite (as ++ char ',' :: (ls ++ char ':' :: ds)) =
      as ++ 0 :: (ls ++ 0 :: ds) := by
    rw [cutMemoryWrite, hcomma, hcolon, set_delimiter]
    have := set_delimiter (as ++ 0 :: ls) ds (char ':') 0
    rw [List.length_append, List.length_cons, ← Nat.add_assoc] at this
    simpa using this
  refine ⟨?_, hcut⟩
  have hlength : textAt (as ++ 0 :: (ls ++ 0 :: ds)) (as.length + 1) = ls := by
    have : textAt ((as ++ [0]) ++ (ls ++ 0 :: ds)) (as ++ [0]).length = ls :=
      textAt_mid _ (Digits.not_mem hl.digits rfl)
    simpa using this
  have hvalue : textAt (as ++ 0 :: (ls ++ 0 :: ds)) (as.length + ls.length + 1 + 1) = ds := by
    have := textAt_last (as ++ 0 :: (ls ++ [0])) (Digits.not_mem hd rfl : (0 : UInt8) ∉ ds)
    simpa [Nat.add_assoc] using this
  have hmatch : ds.length = value ls * 2 % 2 ^ 64 := by
    rw [Nat.mul_comm, ← hlen, Nat.mod_eq_of_lt hfits]
  rw [parseMemoryWrite, if_pos ⟨by simp, by simp⟩, hcomma, hcolon, hcut,
    parseNumbers_digits P ha hl hlength]
  dsimp only
  rw [hvalue, if_neg (not_not.mpr hmatch)]

/-! ## The breakpoint commands -/

/-- The text of a breakpoint command once its first `,` is terminated, and where its address is. -/
def cutBreakpoint (w : List UInt8) : List UInt8 × Nat :=
  (w.set ((textAt w 0).idxOf (char ',')) 0, (textAt w 0).idxOf (char ',') + 1)

/-- The text once both are terminated, and where its length is. -/
def cutBreakpoints (w : List UInt8) : List UInt8 × Nat :=
  let (z, address) := cutBreakpoint w
  let comma := address + (textAt z address).idxOf (char ',')
  (z.set comma 0, comma + 1)

/-- What `ProcessBreakpoint` makes of its text: a type, an address and a length. -/
def parseBreakpoint (P : Platform σ) (w : List UInt8) : Option (Nat × Nat × Nat) :=
  if char ',' ∈ textAt w 0 ∧ char ',' ∈ textAt (cutBreakpoint w).1 (cutBreakpoint w).2 then
    some (P.baseLib.asciiStrHexToUintn (textAt (cutBreakpoints w).1 0),
      P.baseLib.asciiStrHexToUintn (textAt (cutBreakpoints w).1 (cutBreakpoint w).2),
      P.baseLib.asciiStrHexToUintn (textAt (cutBreakpoints w).1 (cutBreakpoints w).2))
  else none

/-- The call a breakpoint command asks for, and its reply. -/
def breakpointAction (P : Platform σ) (Remove : Bool) (Type' Address Length : Nat) : StubM σ Unit :=
  if Type' = 0 then do
    let Result ← changeSoftwareBreakpoint P Remove Address
    sendBreakpointResult Result
  else if 2 ≤ Type' ∧ Type' ≤ 4 then do
    let Result ← changeWatchpoint P Remove Address Length
      (decide (Type' = 3 ∨ Type' = 4)) (decide (Type' = 2 ∨ Type' = 4))
    sendBreakpointResult Result
  else sendGdbError gdbErrorUnsupported

/-- The rest of a breakpoint command. -/
def finishBreakpoint (P : Platform σ) (Remove : Bool) : Option (Nat × Nat × Nat) → StubM σ Unit
  | none => sendGdbError gdbErrorBadRequest
  | some (Type', Address, Length) => breakpointAction P Remove Type' Address Length

/-- The three numbers of a text whose delimiters are terminated. -/
theorem Parsing.breakpointRequest {c : Nat} {z : List UInt8} {s₀ s : Stub σ} (h : Parsing c z s₀ s)
    (P : Platform σ) (r : Bool) {a k : Nat} (ha : a ≤ z.length) (hk : k ≤ z.length) :
    ∃ s', (breakpointRequest P r c (c + a) (c + k)).run s =
      (breakpointAction P r (P.baseLib.asciiStrHexToUintn (textAt z 0))
        (P.baseLib.asciiStrHexToUintn (textAt z a)) (P.baseLib.asciiStrHexToUintn (textAt z k))).run
        s' ∧
      Parsing c z s₀ s' := by
  obtain ⟨s1, hrun1, h1⟩ := h.asciiStrHexToUintn P (Nat.zero_le z.length)
  obtain ⟨s2, hrun2, h2⟩ := h1.asciiStrHexToUintn P ha
  obtain ⟨s3, hrun3, h3⟩ := h2.asciiStrHexToUintn P hk
  rw [Nat.add_zero] at hrun1
  refine ⟨s3, ?_, h3⟩
  rw [UefiDebugger.breakpointRequest, run_bind, hrun1, run_bind, hrun2, run_bind, hrun3]
  rfl

/-- A breakpoint command is its three numbers and the call for them. -/
theorem Parsing.processBreakpoint {c : Nat} {w : List UInt8} {s₀ s : Stub σ} (h : Parsing c w s₀ s)
    (P : Platform σ) (r : Bool) :
    ∃ z s', (processBreakpoint P r c).run s = (finishBreakpoint P r (parseBreakpoint P w)).run s' ∧
      Parsing c z s₀ s' := by
  obtain ⟨s1, hrun1, h1⟩ := h.asciiStrLen (Nat.zero_le w.length)
  obtain ⟨s2, hrun2, h2⟩ := h1.scanText (Nat.zero_le w.length) (char ',')
  rw [Nat.add_zero] at hrun1 hrun2
  rw [UefiDebugger.processBreakpoint, run_bind, hrun1, run_bind, hrun2]
  by_cases hcomma : char ',' ∈ textAt w 0
  swap
  · rw [if_neg hcomma, parseBreakpoint, if_neg fun hboth => hcomma hboth.1]
    exact ⟨w, s2, rfl, h2⟩
  have hk : (textAt w 0).idxOf (char ',') < w.length :=
    Nat.lt_of_lt_of_le (List.idxOf_lt_length_of_mem hcomma) (textAt_length_le w 0)
  obtain ⟨s3, hrun3, h3⟩ := h2.writeRequest hk
  have hcut : Parsing c (cutBreakpoint w).1 s₀ s3 := h3
  have hlen : (cutBreakpoint w).1.length = w.length := List.length_set
  have ha : (cutBreakpoint w).2 ≤ (cutBreakpoint w).1.length := hlen ▸ hk
  obtain ⟨s4, hrun4, h4⟩ := hcut.asciiStrLen ha
  obtain ⟨s5, hrun5, h5⟩ := h4.scanText ha (char ',')
  rw [if_pos hcomma]
  dsimp only
  rw [run_bind, hrun3, run_bind,
    show c + (textAt w 0).idxOf (char ',') + 1 = c + (cutBreakpoint w).2 from rfl, hrun4,
    run_bind, hrun5]
  by_cases hcomma' : char ',' ∈ textAt (cutBreakpoint w).1 (cutBreakpoint w).2
  swap
  · rw [if_neg hcomma', parseBreakpoint, if_neg fun hboth => hcomma' hboth.2]
    exact ⟨_, s5, rfl, h5⟩
  have hinside : (textAt (cutBreakpoint w).1 (cutBreakpoint w).2).idxOf (char ',') <
      (cutBreakpoint w).1.length - (cutBreakpoint w).2 :=
    Nat.lt_of_lt_of_le (List.idxOf_lt_length_of_mem hcomma') (textAt_length_le _ _)
  have hk' : (cutBreakpoint w).2 + (textAt (cutBreakpoint w).1 (cutBreakpoint w).2).idxOf
      (char ',') < (cutBreakpoint w).1.length := by omega
  obtain ⟨s6, hrun6, h6⟩ := h5.writeRequest hk'
  have hcuts : Parsing c (cutBreakpoints w).1 s₀ s6 := h6
  have hlen' : (cutBreakpoints w).1.length = (cutBreakpoint w).1.length := List.length_set
  obtain ⟨s7, hrun7, h7⟩ :=
    hcuts.breakpointRequest P r (hlen' ▸ ha) (show (cutBreakpoints w).2 ≤ _ from hlen' ▸ hk')
  rw [if_pos hcomma', parseBreakpoint, if_pos ⟨hcomma, hcomma'⟩]
  dsimp only
  rw [run_bind, Nat.add_assoc c, hrun6, Nat.add_assoc c]
  exact ⟨_, s7, hrun7, h7⟩

/-- On three hexadecimal numbers. -/
theorem parseBreakpoint_digits (P : Platform σ) {ts as ks : List UInt8} (ht : Digits ts)
    (ha : Digits as) (hk : ∀ c ∈ ks, isDigit c = true) :
    parseBreakpoint P (ts ++ char ',' :: (as ++ char ',' :: ks)) =
      some (value ts, value as, P.baseLib.asciiStrHexToUintn ks) := by
  have h0t : (0 : UInt8) ∉ ts := Digits.not_mem ht.digits rfl
  have h0a : (0 : UInt8) ∉ as := Digits.not_mem ha.digits rfl
  have h0k : (0 : UInt8) ∉ ks := Digits.not_mem hk rfl
  have hct : char ',' ∉ ts := Digits.not_mem ht.digits rfl
  have hca : char ',' ∉ as := Digits.not_mem ha.digits rfl
  set w := ts ++ char ',' :: (as ++ char ',' :: ks) with hw
  have h0w : (0 : UInt8) ∉ w := by
    simp only [hw, List.mem_cons, List.mem_append, not_or]
    exact ⟨h0t, by decide, h0a, by decide, h0k⟩
  have hwhole : textAt w 0 = w := textAt_last [] h0w
  have hcut : cutBreakpoint w = (ts ++ 0 :: (as ++ char ',' :: ks), ts.length + 1) := by
    rw [cutBreakpoint, hwhole, hw, idxOf_delimiter hct, set_delimiter]
  have hrest : textAt (ts ++ 0 :: (as ++ char ',' :: ks)) (ts.length + 1) = as ++
      char ',' :: ks := by
    have hlast := textAt_last (ts ++ [0]) (show (0 : UInt8) ∉ as ++ char ',' :: ks by
      simp only [List.mem_append, List.mem_cons, not_or]
      exact ⟨h0a, by decide, h0k⟩)
    simpa using hlast
  have hcuts : cutBreakpoints w = (ts ++ 0 :: (as ++ 0 :: ks), ts.length + 1 + as.length + 1) := by
    have hset : (ts ++ 0 :: (as ++ char ',' :: ks)).set (ts.length + 1 + as.length) 0 = ts ++ 0 ::
        (as ++ 0 :: ks) := by
      have hdelimiter := set_delimiter (ts ++ 0 :: as) ks (char ',') 0
      rw [List.length_append, List.length_cons, ← Nat.add_assoc, Nat.add_right_comm] at hdelimiter
      simpa only [List.append_assoc, List.cons_append] using hdelimiter
    rw [cutBreakpoints, hcut]
    dsimp only
    rw [hrest, idxOf_delimiter hca, hset]
  have htype : textAt (ts ++ 0 :: (as ++ 0 :: ks)) 0 = ts := textAt_mid [] h0t
  have haddress : textAt (ts ++ 0 :: (as ++ 0 :: ks)) (ts.length + 1) = as := by
    have hmid : textAt ((ts ++ [0]) ++ (as ++ 0 :: ks)) (ts ++ [0]).length = as := textAt_mid _ h0a
    simpa using hmid
  have hlength : textAt (ts ++ 0 :: (as ++ 0 :: ks)) (ts.length + 1 + as.length + 1) = ks := by
    have hlast := textAt_last (ts ++ 0 :: (as ++ [0])) h0k
    rw [show ts.length + 1 + as.length + 1 = (ts ++ 0 :: (as ++ [0])).length by simp; omega]
    simpa only [List.append_assoc, List.cons_append, List.nil_append] using hlast
  rw [parseBreakpoint, hwhole, hcut, hcuts]
  dsimp only
  rw [hrest, if_pos ⟨by simp [hw], by simp⟩, htype, haddress, hlength,
    P.baseLib.uintn_digits ts ht.nonempty ht.digits ht.fits,
    P.baseLib.uintn_digits as ha.nonempty ha.digits ha.fits]

end UefiDebugger
