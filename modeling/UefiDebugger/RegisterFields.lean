import UefiDebugger.Assertions
import UefiDebugger.CommandSession
import UefiDebugger.MemoryReadReply
import UefiDebugger.PackedFields

/-!
# The registers as fields of the context

A register of `gRegisterOffsets` is a field of the saved context, without a place when it is
`REG_NOT_PRESENT`.  `g` and `p` spell what the fields get; `G` loads them from the bytes its text
spells, with the cursor of `WriteRegisterToContext`, and `P` sets one.
-/
namespace UefiDebugger
open HexText ByteString PackedFields StateEffect

variable {σ : Type}

/-- A register as a field of the saved context. -/
def RegisterOffsetData.field (r : RegisterOffsetData) : RecordField :=
  ⟨if r.offset = regNotPresent then none else some r.offset, r.size⟩

/-- The registers of a platform as fields. -/
def Platform.registers (P : Platform σ) : List RecordField :=
  P.gRegisterOffsets.map RegisterOffsetData.field

theorem place_present {r : RegisterOffsetData} (h : r.offset ≠ regNotPresent) :
    r.field.place = some r.offset :=
  if_neg h

theorem place_absent {r : RegisterOffsetData} (h : r.offset = regNotPresent) :
    r.field.place = none := if_pos h

/-! ## Reading -/

section Reading

theorem hexChar_shift : ∀ b : UInt8, hexChar (b >>> 4) = digit (b.toNat / 16) :=
  forall_byte (by decide +kernel)

/-- From `s` to `s'` the characters `cs` were put into `mResponse` at `Output`. -/
structure Filled (Output : Nat) (cs : List UInt8) (s s' : Stub σ) : Prop where
  same : s' = { s with mResponseFull := s'.mResponseFull, mResponseTop := s'.mResponseTop }
  bytes : s'.mResponseFull.bytes = store s.mResponseFull.bytes (1 + Output) cs

theorem Filled.context {o : Nat} {cs : List UInt8} {s s' : Stub σ} (h : Filled o cs s s') :
    s'.context = s.context := by
  rw [h.same]
  rfl

theorem filled_nil (o : Nat) (s : Stub σ) : Filled o [] s s := ⟨rfl, rfl⟩

theorem filled_writeResponse (o : Nat) (c : UInt8) (s : Stub σ) :
    Filled o [c] s ((writeResponse o c).run s).2 := ⟨rfl, rfl⟩

theorem Filled.append {o : Nat} {as bs : List UInt8} {s s' s'' : Stub σ} (h : Filled o as s s')
    (h' : Filled (o + as.length) bs s' s'') : Filled o (as ++ bs) s s'' where
  same := by
    rw [h'.same, h.same]
  bytes := by
    rw [h'.bytes, h.bytes, store_append, Nat.add_assoc]

theorem spellRegister_filled : ∀ (n r o : Nat) (s : Stub σ),
    Filled o (spell (slice s.context r n)) s ((spellRegister n r o).run s).2
  | 0, _, o, s => filled_nil o s
  | n + 1, r, o, s => by
      have hspell : spell (slice s.context r (n + 1)) =
          [hexChar (s.context r >>> 4)] ++ [hexChar (s.context r &&& 0xF)] ++
          spell (slice s.context (r + 1) n) := by
        rw [hexChar_shift, hexChar_low]
        rfl
      have hpair := (filled_writeResponse o (hexChar (s.context r >>> 4)) s).append
        (filled_writeResponse (o + 1) (hexChar (s.context r &&& 0xF)) _)
      have hrest := hpair.append (spellRegister_filled n (r + 1) (o + 2) _)
      rw [hpair.context, ← hspell] at hrest
      exact hrest

theorem spellZeros_filled : ∀ (n o : Nat) (s : Stub σ),
    Filled o (List.replicate n (char '0')) s ((spellZeros n o).run s).2
  | 0, o, s => filled_nil o s
  | n + 1, o, s => (filled_writeResponse o (char '0') s).append (spellZeros_filled n (o + 1) _)

theorem spell_zeros (n : Nat) : spell (List.replicate n 0) = List.replicate (2 * n) (char '0') := by
  induction n with
  | zero => rfl
  | succ n ih =>
    rw [List.replicate_succ, spell_cons, ih]
    rfl

/-- A register is spelled behind what is there. -/
theorem readRegisterFromContext_filled (r : RegisterOffsetData) (o : Nat) (s : Stub σ) :
    ((readRegisterFromContext r o).run s).1 = o + 2 * r.size ∧
      Filled o (spell (r.field.get s.context)) s ((readRegisterFromContext r o).run s).2 := by
  unfold readRegisterFromContext
  by_cases hpresent : r.offset ≠ regNotPresent
  · rw [if_pos hpresent, RecordField.get_present (place_present hpresent)]
    refine ⟨?_, spellRegister_filled r.size r.offset o s⟩
    show o + r.size * 2 = _
    omega
  · have hzeros : spell (r.field.get s.context) = List.replicate (r.size * 2) (char '0') := by
      rw [RecordField.get_absent (place_absent (Classical.not_not.mp hpresent)), spell_zeros,
        Nat.mul_comm]
      rfl
    rw [if_neg hpresent, hzeros]
    refine ⟨?_, spellZeros_filled (r.size * 2) o s⟩
    show o + r.size * 2 = _
    omega

/-- The registers are spelled one behind the other. -/
theorem readRegisters_filled : ∀ (rs : List RegisterOffsetData) (o : Nat) (s : Stub σ),
    ((readRegisters rs o).run s).1 = o + 2 * width (rs.map RegisterOffsetData.field) ∧
      Filled o (spell (pack (rs.map RegisterOffsetData.field) s.context)) s
      ((readRegisters rs o).run s).2
  | [], o, s => ⟨rfl, filled_nil o s⟩
  | r :: rs, o, s => by
      obtain ⟨hend, hfilled⟩ := readRegisterFromContext_filled r o s
      obtain ⟨hlast, hrest⟩ :=
        readRegisters_filled rs (o + 2 * r.size) ((readRegisterFromContext r o).run s).2
      rw [readRegisters, run_bind, hend, List.map_cons, width_cons, pack_cons, spell_append]
      refine ⟨hlast.trans ?_, hfilled.append ?_⟩
      · show _ = o + 2 * (r.size + _)
        omega
      · rwa [spell_length, RecordField.get_length, ← hfilled.context]

/-- What is spelled in `mResponse` is held there. -/
theorem Filled.holds {cs : List UInt8} {s s' : Stub σ} (h : Filled 0 cs s s') :
    Holds s'.mResponseFull.bytes 1 cs := by
  rw [h.bytes]
  exact holds_store ..

/-- What is spelled in `mResponse` is sent. -/
theorem Filled.reply {Data : List UInt8} {s s' : Stub σ} (h : Filled 0 (spell Data) s s')
    (hshort : 2 * Data.length < pcdMaximumAsciiStringLength) :
    RepliedWith (spell Data) s
    ((sendGdbResponse .mResponse).run ((writeResponse (2 * Data.length) 0).run s').2).2 := by
  have hout : s'.output = s.output := by rw [h.same]
  exact (reply_spelled h.holds hshort).trans (by rw [hout])

/-- The assertion of `SendGdbResponse` is about the digits. -/
theorem Filled.asserts {Data : List UInt8} {s s' : Stub σ} (h : Filled 0 (spell Data) s s')
    (hshort : 2 * Data.length < pcdMaximumAsciiStringLength) :
    ((sendGdbResponse .mResponse).run
        ((writeResponse (2 * Data.length) 0).run s').2).2.failedAsserts =
      if 2 * Data.length ≤ maxResponseSize then s.failedAsserts
      else s.failedAsserts ++ [.responseLength] := by
  have hfailed : s'.failedAsserts = s.failedAsserts := by rw [h.same]
  rw [← spell_length] at hshort ⊢
  have hterminated : Holds ((writeResponse (spell Data).length 0).run s').2.mResponseFull.bytes 1
      (spell Data ++ [0]) := holds_snoc h.holds 0
  rw [failed_sendGdbResponse_mResponse, cString_of_string hterminated (spell_ne_zero Data) hshort,
    ← hfailed]
  rfl

end Reading

/-! ## Writing -/

section Writing

/-- What `HexToByte` makes of two characters. -/
def hexPair (c d : UInt8) : UInt8 := ((hexCharValue c).1 <<< 4) ||| (hexCharValue d).1

/-- The bytes it makes of a text. -/
def decodeHex : List UInt8 → List UInt8
  | c :: d :: cs => hexPair c d :: decodeHex cs
  | _ => []

/-- Digits are read as what they spell. -/
theorem decodeHex_digits : ∀ {ds : List UInt8}, (∀ c ∈ ds, isDigit c = true) →
    decodeHex ds = readBytes ds
  | [], _ => rfl
  | [_], _ => rfl
  | c :: d :: ds, h => by
      have hc : isDigit c = true := h c (by simp)
      have hd : isDigit d = true := h d (by simp)
      have hpair : hexPair c d = readByte c d := by
        rw [hexPair, hexCharValue_digit c hc, hexCharValue_digit d hd]
        exact nibbles _ (digitValue_lt c hc) _ (digitValue_lt d hd)
      rw [decodeHex, readBytes, hpair, decodeHex_digits fun x hx => h x (by simp [hx])]

theorem decodeHex_length : ∀ ds : List UInt8, (decodeHex ds).length = ds.length / 2
  | [] => rfl
  | [_] => by simp [decodeHex]
  | c :: d :: ds => by
      rw [decodeHex, List.length_cons, decodeHex_length ds, List.length_cons, List.length_cons]
      omega

theorem decodeHex_take : ∀ (n : Nat) (ds : List UInt8),
    decodeHex (ds.take (2 * n)) = (decodeHex ds).take n
  | 0, _ => rfl
  | n + 1, [] => rfl
  | n + 1, [_] => rfl
  | n + 1, c :: d :: ds => by
      show hexPair c d :: decodeHex (ds.take (2 * n)) = hexPair c d :: (decodeHex ds).take n
      rw [decodeHex_take n ds]

theorem decodeHex_drop : ∀ (n : Nat) (ds : List UInt8),
    decodeHex (ds.drop (2 * n)) = (decodeHex ds).drop n
  | 0, _ => rfl
  | n + 1, [] => rfl
  | n + 1, [_] => by
      rw [List.drop_eq_nil_of_le (by simp; omega)]
      rfl
  | n + 1, _ :: _ :: ds => decodeHex_drop n ds

theorem hexToByte_value {i : Nat} {c d : UInt8} {s : Stub σ} (h : Holds s.mRequest.bytes i [c, d]) :
    ((hexToByte i).run s).1 = hexPair c d := by
  simp only [hexToByte, readRequest, run_bind, run_modifyGet, assert_run, ByteBuffer.mark_bytes,
    h.1, h.2.1, run_pure, hexPair]

/-- The bytes of a digit pair each. -/
theorem decodeRegister_value : ∀ (n i : Nat) (ds : List UInt8) (s : Stub σ), ds.length = 2 * n →
    Holds s.mRequest.bytes i ds → ((decodeRegister n i).run s).1 = decodeHex ds
  | 0, i, ds, s, hlen, _ => by
      obtain rfl := List.length_eq_zero_iff.mp hlen
      rfl
  | n + 1, i, ds, s, hlen, hheld => by
      obtain ⟨c, d, ds, rfl, hrest⟩ := exists_pair hlen
      have hbyte : ((hexToByte i).run s).1 = hexPair c d :=
        hexToByte_value ⟨hheld.1, hheld.2.1, trivial⟩
      have hbehind := decodeRegister_value n (i + 2) ds _ hrest (ensures_hexToByte s hheld)
      rw [decodeRegister, run_bind, run_bind, hbyte, hbehind]
      rfl

theorem context_of_core {s s' : Stub σ} (h : s.core = s'.core) : s.context = s'.context :=
  congrArg (fun c => c.2 c.1.1.1.gSystemContext) h

/-- How far `WriteRegisterToContext` moves its input: not at all for a register that is not
present. -/
def consumed (f : RecordField) : Nat := if f.place.isSome then f.size else 0

theorem consumed_le (f : RecordField) : consumed f ≤ f.size := by
  unfold consumed
  split
  · exact Nat.le_refl _
  · exact Nat.zero_le _

theorem behindRegister_eq (r : RegisterOffsetData) (str : List UInt8) :
    behindRegister r str = str.drop (2 * consumed r.field) := by
  by_cases hpresent : r.offset ≠ regNotPresent
  · rw [behindRegister, if_pos hpresent, consumed, place_present hpresent]
    rfl
  · rw [behindRegister, if_neg hpresent, consumed, place_absent (Classical.not_not.mp hpresent)]
    rfl

theorem long_iff (r : RegisterOffsetData) (str : List UInt8) :
    r.size ≤ (decodeHex str).length ↔ r.size * 2 ≤ str.length := by
  rw [decodeHex_length]
  omega

section Register
variable (r : RegisterOffsetData) {i : Nat} {str : List UInt8} {s : Stub σ}

/-- An input that is too short is refused, and nothing is written. -/
theorem writeRegisterToContext_short (h : StringAt s.mRequest.bytes i str)
    (hshort : (decodeHex str).length < r.size) : ((writeRegisterToContext r i).run s).1 = none ∧
    ((writeRegisterToContext r i).run s).2.context = s.context := by
  have hlen : str.length < r.size * 2 :=
    Nat.lt_of_not_le (mt (long_iff r str).mpr (Nat.not_le.mpr hshort))
  have hcount :
      ((asciiStrLen i).run
        ((assert .registerSize (decide (r.size ≤ 10)) : StubM σ Unit).run s).2).1 =
      str.length := by
    rw [assert_run]
    exact h.strLen_eq
  rw [writeRegisterToContext, run_bind, run_bind, hcount, if_pos hlen]
  refine ⟨rfl, ?_⟩
  rw [assert_run]
  rfl

/-- Otherwise the register is set, and what it does not take is left. -/
theorem writeRegisterToContext_long (h : StringAt s.mRequest.bytes i str)
    (hlong : r.size ≤ (decodeHex str).length) :
    ∃ j, ((writeRegisterToContext r i).run s).1 = some j ∧
      ((writeRegisterToContext r i).run s).2.context = r.field.set ((decodeHex str).take r.size)
      s.context ∧
      StringAt ((writeRegisterToContext r i).run s).2.mRequest.bytes j
      (str.drop (2 * consumed r.field)) := by
  have hlen : r.size * 2 ≤ str.length := (long_iff r str).mp hlong
  have hbehind := ensures_writeRegisterToContext r str i s h
  rw [behindRegister_eq] at hbehind
  suffices hset : ∃ j, ((writeRegisterToContext r i).run s).1 = some j ∧
      ((writeRegisterToContext r i).run s).2.context = r.field.set ((decodeHex str).take r.size)
      s.context by
    obtain ⟨j, hj, hcontext⟩ := hset
    exact ⟨j, hj, hcontext, (hbehind j hj).2⟩
  set s₁ :=
    ((asciiStrLen i).run
      ((assert .registerSize (decide (r.size ≤ 10)) : StubM σ Unit).run s).2).2 with hs₁
  have hsame : s₁.context = s.context ∧ s₁.mRequest.bytes = s.mRequest.bytes := by
    rw [hs₁, assert_run]
    exact ⟨rfl, rfl⟩
  have hcount :
      ((asciiStrLen i).run
        ((assert .registerSize (decide (r.size ≤ 10)) : StubM σ Unit).run s).2).1 =
      str.length := by
    rw [assert_run]
    exact h.strLen_eq
  rw [writeRegisterToContext, run_bind, run_bind, hcount, if_neg (Nat.not_lt.mpr hlen), ← hs₁]
  by_cases hpresent : r.offset ≠ regNotPresent
  · have htake : (str.take (2 * r.size)).length = 2 * r.size := List.length_take_of_le (by omega)
    have hvalue : ((decodeRegister r.size i).run s₁).1 = (decodeHex str).take r.size := by
      rw [decodeRegister_value r.size i _ s₁ htake (hsame.2 ▸ h.front _), decodeHex_take]
    have hcontext : ((decodeRegister r.size i).run s₁).2.context = s.context :=
      (context_of_core (keeps_decodeRegister _ _ s₁)).trans hsame.1
    rw [if_pos hpresent, run_bind, hvalue, RecordField.set_present (place_present hpresent)]
    refine ⟨_, rfl, ?_⟩
    rw [← hcontext]
    exact Function.update_self ..
  · rw [if_neg hpresent, RecordField.set_absent (place_absent (Classical.not_not.mp hpresent))]
    exact ⟨i, rfl, hsame.1⟩

end Register

/-- **The loop of `G` loads the registers.** -/
theorem writeRegisters_load :
    ∀ (rs : List RegisterOffsetData) (i : Nat) (str : List UInt8) (s : Stub σ),
    StringAt s.mRequest.bytes i str →
      ((writeRegisters rs i).run s).1 =
        (load consumed (rs.map RegisterOffsetData.field) (decodeHex str) s.context).1 ∧
      ((writeRegisters rs i).run s).2.context =
        (load consumed (rs.map RegisterOffsetData.field) (decodeHex str) s.context).2
  | [], _, _, _, _ => ⟨rfl, rfl⟩
  | r :: rs, i, str, s, h => by
      rw [writeRegisters, run_bind, List.map_cons]
      rcases Nat.lt_or_ge (decodeHex str).length r.size with hshort | hlong
      · obtain ⟨hnone, hcontext⟩ := writeRegisterToContext_short r h hshort
        rw [load_short hshort, hnone]
        exact ⟨rfl, hcontext⟩
      · obtain ⟨j, hj, hcontext, hbehind⟩ := writeRegisterToContext_long r h hlong
        have hrest := writeRegisters_load rs j _ _ hbehind
        rw [hcontext, decodeHex_drop] at hrest
        rw [load_long hlong, hj]
        exact hrest

end Writing

end UefiDebugger
