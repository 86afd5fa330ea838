import UefiDebugger.RegisterBlocks

/-!
# Single registers

`p` gets one register and `P` sets it; with the packets around them they obey the laws of a lens.
The index may be spelled in any way, and the digits of the value in either case.  `g` is all of them
in a row, in one response: `SendGdbResponse` asserts that a response has at most `MAX_RESPONSE_SIZE`
characters, and a larger table has more.
-/
namespace UefiDebugger
open HexText ByteString PackedFields StateEffect

variable {σ : Type}

/-! ## The packets -/

/-- `p i`. -/
def registerReadText (is : List UInt8) : List UInt8 := char 'p' :: is

/-- `P i=v`. -/
def registerWriteText (is v : List UInt8) : List UInt8 := char 'P' :: (is ++ char '=' :: v)

/-- The text `is` names the register `r`. -/
structure Names (P : Platform σ) (is : List UInt8) (r : RegisterOffsetData) : Prop where
  digits : Digits is
  register : P.gRegisterOffsets[value is]? = some r

/-- A value for a register is two digits for each of its bytes. -/
structure RegisterValue (r : RegisterOffsetData) (v : List UInt8) : Prop where
  digits : ∀ c ∈ v, isDigit c = true
  length : v.length = 2 * r.size

/-- The command that started in `s₁` and left `t` was answered: it replied, and no assertion failed
before. -/
structure AnsweredWith (reply : List UInt8) (s₁ t : Stub σ) : Prop where
  reply : RepliedWith reply s₁ t
  asserts : t.failedAsserts = s₁.failedAsserts

/-- What a register shows that was set to `v`. -/
def shownValue (r : RegisterOffsetData) (v : List UInt8) : List UInt8 :=
  if r.offset = regNotPresent then List.replicate (2 * r.size) (char '0') else v.map lowerCase

section Packets
variable {P : Platform σ} {is v : List UInt8} {r : RegisterOffsetData} {s s₁ t : Stub σ}

theorem RegisterValue.bytes (h : RegisterValue r v) : (readBytes v).length = r.size :=
  readBytes_length h.length

theorem index_digits (hi : Digits is) : P.baseLib.asciiStrHexToUintn (textAt is 0) = value is := by
  have htext : textAt is 0 = is := textAt_last [] (Digits.not_mem hi.digits rfl)
  rw [htext, P.baseLib.uintn_digits is hi.nonempty hi.digits hi.fits]

theorem readRegisterOutcome_digits (hi : Digits is) (c : Context) :
    readRegisterOutcome P is c = readOutcome P.gRegisterOffsets[value is]? c := by
  rw [readRegisterOutcome, index_digits hi]

/-- The index is cut off at the `=`. -/
theorem writeRegisterOutcome_digits (hi : Digits is) (v : List UInt8) (c : Context) :
    writeRegisterOutcome P (is ++ char '=' :: v) c = writeOutcome P.gRegisterOffsets[value is]?
    (textAt v 0) c := by
  have hzero : (0 : UInt8) ∉ is := Digits.not_mem hi.digits rfl
  have hequals : char '=' ∉ is := Digits.not_mem hi.digits rfl
  have htext : textAt (is ++ char '=' :: v) 0 = is ++ char '=' :: textAt v 0 := by
    rw [textAt, List.drop_zero, List.takeWhile_append_of_pos fun x hx => by
      simpa using fun he : x = 0 => hzero (he ▸ hx)]
    rfl
  have hindex : textAt (is ++ 0 :: v) 0 = is := textAt_mid [] hzero
  have hvalue : textAt (is ++ 0 :: v) (is.length + 1) = textAt v 0 := by
    rw [textAt, textAt, List.drop_append, List.drop_eq_nil_of_le (Nat.le_succ _)]
    simp
  rw [writeRegisterOutcome, htext, if_pos (by simp)]
  dsimp only
  rw [idxOf_delimiter hequals, set_delimiter, hindex, hvalue,
    P.baseLib.uintn_digits is hi.nonempty hi.digits hi.fits]

theorem Executes.getRegister (h : Executes P s (registerReadText is) s₁ t)
    (htable : WellPlaced P.gRegisterOffsets) (hr : Names P is r) :
    Yields ⟨spell (r.field.get s.context), s.context⟩ s₁ t := by
  have hyields := h.registerRead htable.register
  rw [readRegisterOutcome_digits hr.digits, hr.register] at hyields
  exact hyields

theorem Executes.setRegister (h : Executes P s (registerWriteText is v) s₁ t) (hr : Names P is r)
    (hv : RegisterValue r v) : Yields ⟨text "OK", r.field.set (readBytes v) s.context⟩ s₁ t := by
  have hyields := h.registerWrite
  have htext : textAt v 0 = v := textAt_last [] (Digits.not_mem hv.digits rfl)
  have hlen : (readBytes v).length = r.size := hv.bytes
  rw [writeRegisterOutcome_digits hr.digits, hr.register, htext, writeOutcome,
    decodeHex_digits hv.digits, if_neg (by omega), List.take_of_length_le (by omega)] at hyields
  exact hyields

/-- What is shown of a register that was set. -/
theorem spell_get_set (hv : RegisterValue r v) (c : Context) :
    spell (r.field.get (r.field.set (readBytes v) c)) = shownValue r v := by
  by_cases habsent : r.offset = regNotPresent
  · rw [RecordField.get_absent (place_absent habsent), spell_zeros, shownValue, if_pos habsent]
    rfl
  · rw [RecordField.get_set (place_present habsent) hv.bytes, spell_readBytes hv.length hv.digits,
      shownValue, if_neg habsent]

end Packets

/-! ## The laws -/

/-- The register commands are lenses on the saved context. -/
structure RegisterLensLaws (P : Platform σ) : Prop where
  /-- What was written is read, in lower case; nothing of a register that is not present. -/
  put_get : ∀ is r v s s₁ t, Names P is r → RegisterValue r v →
    Executes P s (registerWriteText is v) s₁ t → RepliedWith (text "OK") s₁ t ∧
      ∀ js t₁ u, Digits js → value js = value is → Executes P t (registerReadText js) t₁ u →
        RepliedWith (shownValue r v) t₁ u
  /-- The other registers read as before. -/
  get_other : ∀ is js r r' v s s₁ t, Names P is r → Names P js r' → value js ≠ value is →
    RegisterValue r v → Executes P s (registerWriteText is v) s₁ t →
      ∀ s' t' t₁ u, Executes P s (registerReadText js) s' t' →
        Executes P t (registerReadText js) t₁ u → ∃ one, RepliedWith one s' t' ∧
        RepliedWith one t₁ u
  /-- The block changes in the digits of the register. -/
  block_put : 2 * width P.registers ≤ maxResponseSize → ∀ is r v s s₁ t, Names P is r →
    RegisterValue r v → Executes P s (registerWriteText is v) s₁ t →
      ∀ s' t' t₁ u, Executes P s [char 'g'] s' t' → Executes P t [char 'g'] t₁ u →
        ∃ front old back, AnsweredWith (front ++ (old ++ back)) s' t' ∧
          AnsweredWith (front ++ (shownValue r v ++ back)) t₁ u ∧
          front.length = 2 * cursor RecordField.size P.registers (value is) ∧
          old.length = 2 * r.size
  /-- The block is the registers one by one. -/
  block_get : 2 * width P.registers ≤ maxResponseSize → ∀ s s₁ t, Executes P s [char 'g'] s₁ t →
    ∃ replies : List (List UInt8), replies.length = P.gRegisterOffsets.length ∧
      AnsweredWith replies.flatten s₁ t ∧
      ∀ i one, replies[i]? = some one → ∀ is s' t' u', Digits is → value is = i →
        s'.context = s.context → Executes P s' (registerReadText is) t' u' → RepliedWith one t' u'
  /-- Writing back what was read changes nothing. -/
  get_put : ∀ is r s s₁ t, Names P is r → Executes P s (registerReadText is) s₁ t →
    ∃ one, RepliedWith one s₁ t ∧ RegisterValue r one ∧
      ∀ t₁ u, Executes P t (registerWriteText is one) t₁ u →
        RepliedWith (text "OK") t₁ u ∧ u.context = s.context
  /-- Of two writes the second counts. -/
  put_put : ∀ is r v w s s₁ t t₁ u s' u', Names P is r → RegisterValue r v → RegisterValue r w →
    Executes P s (registerWriteText is v) s₁ t → Executes P t (registerWriteText is w) t₁ u →
      Executes P s (registerWriteText is w) s' u' → u.context = u'.context
  /-- The bytes outside the register stay. -/
  frame : ∀ is r v s s₁ t, Names P is r → RegisterValue r v →
    Executes P s (registerWriteText is v) s₁ t → ∀ x, ¬ r.field.Covers x → t.context x = s.context x
  /-- An index that names no register is refused. -/
  out_of_range : ∀ is s s₁ t, Digits is → P.gRegisterOffsets.length ≤ value is →
    (Executes P s (registerReadText is) s₁ t ∨ ∃ v, Executes P s (registerWriteText is v) s₁ t) →
      RepliedWith (errorString gdbErrorBadRegIndex) s₁ t ∧ t.context = s.context

section Laws
variable {P : Platform σ} {is js v w : List UInt8} {r r' : RegisterOffsetData} {s s₁ t : Stub σ}

theorem Names.field (hr : Names P is r) : P.registers[value is]? = some r.field :=
  field_of_register hr.register

theorem WellPlaced.fields (htable : WellPlaced P.gRegisterOffsets) :
    P.registers.Pairwise RecordField.Apart :=
  htable.apart

theorem putGet (htable : WellPlaced P.gRegisterOffsets) (hr : Names P is r) (hv : RegisterValue r v)
    (hput : Executes P s (registerWriteText is v) s₁ t) {t₁ u : Stub σ} (hjs : Digits js)
    (hsame : value js = value is) (hget : Executes P t (registerReadText js) t₁ u) :
    RepliedWith (shownValue r v) t₁ u := by
  have hr' : Names P js r := ⟨hjs, by rw [hsame, hr.register]⟩
  have hreply := (hget.getRegister htable hr').reply
  rwa [(hput.setRegister hr hv).context, spell_get_set hv] at hreply

theorem getOther (htable : WellPlaced P.gRegisterOffsets) (hr : Names P is r) (hr' : Names P js r')
    (hne : value js ≠ value is) (hv : RegisterValue r v)
    (hput : Executes P s (registerWriteText is v) s₁ t) {s' t' t₁ u : Stub σ}
    (hbefore : Executes P s (registerReadText js) s' t')
    (hafter : Executes P t (registerReadText js) t₁ u) :
    ∃ one, RepliedWith one s' t' ∧ RepliedWith one t₁ u := by
  have hapart : r.field.Apart r'.field := apart_of_ne htable.fields hr.field hr'.field hne.symm
  have hstays : r'.field.get t.context = r'.field.get s.context := by
    rw [(hput.setRegister hr hv).context]
    exact RecordField.get_set_of_apart hapart (Nat.le_of_eq hv.bytes)
  refine ⟨_, (hbefore.getRegister htable hr').reply, ?_⟩
  rw [← hstays]
  exact (hafter.getRegister htable hr').reply

theorem fits_of_response (h : 2 * width P.registers ≤ maxResponseSize) :
    2 * width P.registers < pcdMaximumAsciiStringLength := by
  unfold maxResponseSize at h
  unfold pcdMaximumAsciiStringLength
  omega

/-- A block that fits is answered. -/
theorem Executes.answeredBlock (h : Executes P s [char 'g'] s₁ t)
    (hfits : 2 * width P.registers ≤ maxResponseSize) :
    AnsweredWith (spell (pack P.registers s.context)) s₁ t where
  reply := (h.blockRead (fits_of_response hfits)).reply
  asserts := by rw [h.blockRead_asserts (fits_of_response hfits), if_pos hfits]

theorem blockPut (htable : WellPlaced P.gRegisterOffsets)
    (hfits : 2 * width P.registers ≤ maxResponseSize) (hr : Names P is r) (hv : RegisterValue r v)
    (hput : Executes P s (registerWriteText is v) s₁ t) {s' t' t₁ u : Stub σ}
    (hbefore : Executes P s [char 'g'] s' t') (hafter : Executes P t [char 'g'] t₁ u) :
    ∃ front old back, AnsweredWith (front ++ (old ++ back)) s' t' ∧
      AnsweredWith (front ++ (shownValue r v ++ back)) t₁ u ∧
      front.length = 2 * cursor RecordField.size P.registers (value is) ∧
      old.length = 2 * r.size := by
  have hcontext : t.context = r.field.set (readBytes v) s.context :=
    (hput.setRegister hr hv).context
  have hold := hbefore.answeredBlock hfits
  have hnew := hafter.answeredBlock hfits
  rw [pack_split hr.field, spell_append, spell_append] at hold
  rw [hcontext, pack_set htable.fields hr.field (Nat.le_of_eq hv.bytes), spell_append, spell_append,
    spell_get_set hv] at hnew
  refine ⟨_, _, _, hold, hnew, ?_, ?_⟩
  · rw [spell_length, pack_length]
    rfl
  · rw [spell_length, RecordField.get_length]
    rfl

theorem spell_pack (fs : List RecordField) (c : Context) :
    spell (pack fs c) = (fs.map fun f => spell (f.get c)).flatten := by
  induction fs with
  | nil => rfl
  | cons f fs ih => rw [pack_cons, spell_append, ih, List.map_cons, List.flatten_cons]

theorem blockGet (htable : WellPlaced P.gRegisterOffsets)
    (hfits : 2 * width P.registers ≤ maxResponseSize) (hblock : Executes P s [char 'g'] s₁ t) :
    ∃ replies : List (List UInt8), replies.length = P.gRegisterOffsets.length ∧
      AnsweredWith replies.flatten s₁ t ∧
      ∀ i one, replies[i]? = some one → ∀ is s' t' u', Digits is → value is = i →
        s'.context = s.context → Executes P s' (registerReadText is) t' u' →
          RepliedWith one t' u' := by
  refine ⟨P.registers.map fun f => spell (f.get s.context), ?_, ?_, ?_⟩
  · rw [List.length_map, Platform.registers, List.length_map]
  · rw [← spell_pack]
    exact hblock.answeredBlock hfits
  · rintro i one hone is s' t' u' his rfl hcontext hget
    rw [Platform.registers, List.map_map, List.getElem?_map, Option.map_eq_some_iff] at hone
    obtain ⟨r, hr, rfl⟩ := hone
    have hreply := (hget.getRegister htable ⟨his, hr⟩).reply
    rwa [hcontext] at hreply

/-- The reply to `p` is a value for its register. -/
theorem registerValue_spell (r : RegisterOffsetData) (c : Context) :
    RegisterValue r (spell (r.field.get c)) where
  digits _ hc := isDigit_of_mem_spell hc
  length := by
    rw [spell_length, RecordField.get_length]
    rfl

theorem getPut (htable : WellPlaced P.gRegisterOffsets) (hr : Names P is r)
    (hget : Executes P s (registerReadText is) s₁ t) :
    ∃ one, RepliedWith one s₁ t ∧ RegisterValue r one ∧
      ∀ t₁ u, Executes P t (registerWriteText is one) t₁ u →
        RepliedWith (text "OK") t₁ u ∧ u.context = s.context := by
  obtain ⟨hanswer, hcontext⟩ := hget.getRegister htable hr
  have hvalue := registerValue_spell r s.context
  refine ⟨_, hanswer, hvalue, fun t₁ u hput => ?_⟩
  obtain ⟨hok, hleft⟩ := hput.setRegister hr hvalue
  refine ⟨hok, hleft.trans ?_⟩
  show r.field.set (readBytes (spell (r.field.get s.context))) t.context = s.context
  rw [hcontext, readBytes_spell]
  exact RecordField.set_get r.field s.context

theorem putPut (hr : Names P is r) (hv : RegisterValue r v) (hw : RegisterValue r w)
    {t₁ u s' u' : Stub σ} (hfirst : Executes P s (registerWriteText is v) s₁ t)
    (hsecond : Executes P t (registerWriteText is w) t₁ u)
    (halone : Executes P s (registerWriteText is w) s' u') : u.context = u'.context := by
  rw [(hsecond.setRegister hr hw).context, (halone.setRegister hr hw).context,
    (hfirst.setRegister hr hv).context]
  exact RecordField.set_set (hv.bytes.trans hw.bytes.symm)

theorem putFrame (hr : Names P is r) (hv : RegisterValue r v)
    (hput : Executes P s (registerWriteText is v) s₁ t) {x : Nat} (hx : ¬ r.field.Covers x) :
    t.context x = s.context x := by
  rw [(hput.setRegister hr hv).context]
  exact RecordField.set_of_not_covers (Nat.le_of_eq hv.bytes) hx

theorem outOfRange (htable : WellPlaced P.gRegisterOffsets) (hi : Digits is)
    (hrange : P.gRegisterOffsets.length ≤ value is)
    (h : Executes P s (registerReadText is) s₁ t ∨
      ∃ v, Executes P s (registerWriteText is v) s₁ t) :
    RepliedWith (errorString gdbErrorBadRegIndex) s₁ t ∧ t.context = s.context := by
  have hnone : P.gRegisterOffsets[value is]? = none := List.getElem?_eq_none hrange
  rcases h with hget | ⟨v, hput⟩
  · have hyields := hget.registerRead htable.register
    rw [readRegisterOutcome_digits hi, hnone] at hyields
    exact ⟨hyields.reply, hyields.context⟩
  · have hyields := hput.registerWrite
    rw [writeRegisterOutcome_digits hi, hnone] at hyields
    exact ⟨hyields.reply, hyields.context⟩

end Laws

/-- **The register commands obey the laws of a lens**, those of the block when it fits into a
response. -/
theorem register_lens_laws (P : Platform σ) (htable : WellPlaced P.gRegisterOffsets) :
    RegisterLensLaws P where
  put_get _ _ _ _ _ _ hr hv hput :=
    ⟨(hput.setRegister hr hv).reply, fun _ _ _ hjs hsame hget =>
      putGet htable hr hv hput hjs hsame hget⟩
  get_other _ _ _ _ _ _ _ _ hr hr' hne hv hput _ _ _ _ hbefore hafter :=
    getOther htable hr hr' hne hv hput hbefore hafter
  block_put hfits _ _ _ _ _ _ hr hv hput _ _ _ _ hbefore hafter :=
    blockPut htable hfits hr hv hput hbefore hafter
  block_get hfits _ _ _ hblock := blockGet htable hfits hblock
  get_put _ _ _ _ _ hr hget := getPut htable hr hget
  put_put _ _ _ _ _ _ _ _ _ _ _ hr hv hw hfirst hsecond halone :=
  putPut hr hv hw hfirst hsecond halone
  frame _ _ _ _ _ _ hr hv hput _ hx := putFrame hr hv hput hx
  out_of_range _ _ _ _ hi hrange h := outOfRange htable hi hrange h

/-! ## A block that does not fit -/

/-- A table of 205 registers that are not present: `g` has 4100 digits for them. -/
def wideTable : List RegisterOffsetData := List.replicate 205 ⟨regNotPresent, 10, none, []⟩

def widePlatform : Platform FlatMachine := { flatPlatform with gRegisterOffsets := wideTable }

theorem wideTable_wellPlaced : WellPlaced wideTable where
  register r hr := by rw [List.eq_of_mem_replicate hr]
  apart := by
    rw [wideTable, List.map_replicate, List.pairwise_replicate]
    refine Or.inr fun x hx => ?_
    obtain ⟨a, ha, -⟩ := hx
    cases ha

theorem wideTable_width : 2 * width widePlatform.registers = 4100 := by
  rw [width, Platform.registers, List.map_map,
    show widePlatform.gRegisterOffsets = wideTable from rfl, wideTable, List.map_replicate,
    List.sum_replicate]
  rfl

/-- A stub that is about to read them. -/
def readsWide : Stub FlatMachine :=
  { Stub.initial ⟨fun _ => 0, []⟩ with mRequest := requestOf [char 'g'] }

/-- Not every block is answered: `SendGdbResponse` asserts that these digits were fewer. -/
theorem wide_block_not_answered :
    ¬ ∀ P : Platform FlatMachine, WellPlaced P.gRegisterOffsets →
      ∀ s s₁ t, Executes P s [char 'g'] s₁ t →
        ∃ replies : List (List UInt8), replies.length = P.gRegisterOffsets.length ∧
          AnsweredWith replies.flatten s₁ t ∧
          ∀ i one, replies[i]? = some one → ∀ is s' t' u', Digits is → value is = i →
            s'.context = s.context → Executes P s' (registerReadText is) t' u' →
              RepliedWith one t' u' := by
  intro h
  have hread : Executes widePlatform readsWide [char 'g'] readsWide
      ((executeGdbCommand widePlatform 1 1).run readsWide).2 :=
    ⟨⟨payload_requestOf (by decide), rfl⟩, rfl⟩
  obtain ⟨_, -, hanswered, -⟩ := h widePlatform wideTable_wellPlaced _ _ _ hread
  have hfailed := hread.blockRead_asserts (by rw [wideTable_width]; decide)
  rw [hanswered.asserts, wideTable_width, if_neg (by decide)] at hfailed
  exact absurd (congrArg List.length hfailed) (by simp)

/-! ## Setting `rbx` -/

/-- A stub on X64 that is about to set `rbx`, by `P01=...`, to a value with upper-case digits. -/
def writesRbx : Stub FlatMachine :=
  { Stub.initial ⟨fun _ => 0, []⟩ with
    mRequest := requestOf (registerWriteText (text "01") (text "EFcdAB8967452301")) }

/-- The stub behind that. -/
def wroteRbx : Stub FlatMachine :=
  ((executeGdbCommand x64Platform 1
    (registerWriteText (text "01") (text "EFcdAB8967452301")).length).run writesRbx).2

/-- A stub that is about to read it, by `p1`. -/
def readsRbx : Stub FlatMachine :=
  { wroteRbx with mRequest := requestOf (registerReadText (text "1")) }

/-- A stub that is about to read all registers, by `g`. -/
def readsAll (s : Stub FlatMachine) : Stub FlatMachine :=
  { s with mRequest := requestOf [char 'g'] }

theorem readsAll_executes (s : Stub FlatMachine) : Executes x64Platform s [char 'g'] (readsAll s)
    ((executeGdbCommand x64Platform 1 1).run (readsAll s)).2 :=
  ⟨delivered_requestOf s (by decide), rfl⟩

theorem register_lens_laws_rbx :
    (RepliedWith (text "OK") writesRbx wroteRbx ∧
      RepliedWith (text "efcdab8967452301") readsRbx
        ((executeGdbCommand x64Platform 1 (registerReadText (text "1")).length).run readsRbx).2) ∧
      ∃ front old back,
        AnsweredWith (front ++ (old ++ back)) (readsAll writesRbx)
          ((executeGdbCommand x64Platform 1 1).run (readsAll writesRbx)).2 ∧
        AnsweredWith (front ++ (text "efcdab8967452301" ++ back)) (readsAll wroteRbx)
          ((executeGdbCommand x64Platform 1 1).run (readsAll wroteRbx)).2 ∧
        front.length = 16 ∧ old.length = 16 := by
  have hnames : Names x64Platform (text "01") ⟨x64Layout "Rbx", 8, some (text "rbx"),
    text "int64"⟩ :=
    ⟨.of_all (by decide), rfl⟩
  have hvalue : RegisterValue ⟨x64Layout "Rbx", 8, some (text "rbx"), text "int64"⟩
      (text "EFcdAB8967452301") :=
    ⟨List.all_eq_true.mp (by decide), rfl⟩
  have hput : Executes x64Platform writesRbx
      (registerWriteText (text "01") (text "EFcdAB8967452301")) writesRbx wroteRbx :=
    ⟨⟨payload_requestOf (by decide), rfl⟩, rfl⟩
  have hlaws := register_lens_laws x64Platform x64Platform_wellPlaced
  have hshown : shownValue ⟨x64Layout "Rbx", 8, some (text "rbx"), text "int64"⟩
      (text "EFcdAB8967452301") = text "efcdab8967452301" := by
    rw [shownValue, if_neg (by decide +kernel)]
    rfl
  obtain ⟨hok, hget⟩ := hlaws.put_get _ _ _ _ _ _ hnames hvalue hput
  have hread := hget (text "1") readsRbx _ (.of_all (by decide)) (by decide)
    ⟨delivered_requestOf wroteRbx (by decide), rfl⟩
  obtain ⟨front, old, back, hbefore, hafter, hfront, hold⟩ := hlaws.block_put (by decide +kernel)
    _ _ _ _ _ _ hnames hvalue hput _ _ _ _ (readsAll_executes writesRbx)
      (readsAll_executes wroteRbx)
  rw [hshown] at hread hafter
  exact ⟨⟨hok, hread⟩, front, old, back, hbefore, hafter, hfront, hold⟩

end UefiDebugger
