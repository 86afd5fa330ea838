import UefiDebugger.RegisterOutcomes

/-!
# Register blocks

`g` writes a zero for every byte of a register that is not present; `G` asks for the digits of such
a register but does not move behind them.  So the registers behind it are taken from where its own
digits are.  A block is read as it was written exactly when its bytes are the same at both places,
and when the last of the digits that `G` asks for are the last of the block.
-/
namespace UefiDebugger
open HexText ByteString PackedFields StateEffect

variable {σ : Type}

/-! ## What a block is for -/

/-- What the register commands rely on of a table: a register fits into ten bytes, and no byte of
the context belongs to two registers. -/
structure WellPlaced (rs : List RegisterOffsetData) : Prop where
  register : ∀ r ∈ rs, r.size ≤ 10
  apart : (rs.map RegisterOffsetData.field).Pairwise RecordField.Apart

/-- What `g` shows when the registers are those of the block `d`. -/
def shownDigits : List RecordField → List UInt8 → List UInt8
  | [], _ => []
  | f :: fs, d =>
      (if f.place.isSome then (d.take (2 * f.size)).map lowerCase
        else List.replicate (2 * f.size) (char '0')) ++ shownDigits fs (d.drop (2 * f.size))

/-- The command `G` with the digits `d`, executed from `s` to `t` and begun in `s₁`, is answered as
the length of `d` says; then the registers are what their digits spell, and nothing else changed. -/
structure BlockWritten (P : Platform σ) (d : List UInt8) (s s₁ t : Stub σ) : Prop where
  accepted : RepliedWith (text "OK") s₁ t ↔ 2 * width P.registers ≤ d.length
  present : RepliedWith (text "OK") s₁ t → ∀ i r, P.gRegisterOffsets[i]? = some r →
    r.offset ≠ regNotPresent → slice t.context r.offset r.size =
      readBytes ((d.drop (2 * cursor RecordField.size P.registers i)).take (2 * r.size))
  others : RepliedWith (text "OK") s₁ t → ∀ x, (∀ f ∈ P.registers, ¬ f.Covers x) →
    t.context x = s.context x
  shown : RepliedWith (text "OK") s₁ t → ∀ w t₁ u, Executes P t (char 'g' :: w) t₁ u →
    RepliedWith (shownDigits P.registers d) t₁ u

/-- The bytes of a block are found where they are: either a register is short of bytes behind those
of the present registers in front of it, or the block is complete and each present register has the
same bytes behind the present registers in front of it as behind all registers in front of it. -/
def BlockAligned (fs : List RecordField) (bs : List UInt8) : Prop :=
  (∃ i f, fs[i]? = some f ∧ bs.length < cursor consumed fs i + f.size) ∨
    (width fs ≤ bs.length ∧ ∀ i f, fs[i]? = some f → f.place ≠ none →
      (bs.drop (cursor consumed fs i)).take f.size =
      (bs.drop (cursor RecordField.size fs i)).take f.size)

/-! ## The cursor of `G` -/

section Cursor
variable {fs : List RecordField} {f : RecordField} {bs : List UInt8} {m : Context} {i : Nat}

theorem consumed_behind (fs : List RecordField) (i : Nat) :
    cursor consumed fs i ≤ cursor RecordField.size fs i := by
  have hbehind : cursor consumed fs i + cursor RecordField.size fs 0 ≤
      cursor RecordField.size fs i + cursor consumed fs 0 :=
      cursor_behind consumed_le (Nat.zero_le i)
  rw [cursor_zero, cursor_zero] at hbehind
  omega

/-- A complete block is accepted. -/
theorem load_complete (hwidth : width fs ≤ bs.length) : (load consumed fs bs m).1 = true := by
  refine (load_complete_iff consumed_le fs bs m).mpr fun i f hi => ?_
  have hend := cursor_add_size_le hi
  have hbehind := consumed_behind fs i
  omega

/-- A block that is short for the cursor is short. -/
theorem width_of_short (hi : fs[i]? = some f) (hshort : bs.length < cursor consumed fs i + f.size) :
    bs.length < width fs := by
  have hend := cursor_add_size_le hi
  have hbehind := consumed_behind fs i
  omega

theorem load_not_complete (hi : fs[i]? = some f)
    (hshort : bs.length < cursor consumed fs i + f.size) : (load consumed fs bs m).1 ≠ true :=
    fun hcomplete =>
  absurd ((load_complete_iff consumed_le fs bs m).mp hcomplete i f hi) (Nat.not_le.mpr hshort)

/-- What is refused is short for the cursor. -/
theorem exists_short (h : (load consumed fs bs m).1 ≠ true) :
    ∃ i f, fs[i]? = some f ∧ bs.length < cursor consumed fs i + f.size := by
  by_contra hnone
  refine h ((load_complete_iff consumed_le fs bs m).mpr fun i f hi =>
    Nat.le_of_not_lt fun hshort => ?_)
  exact hnone ⟨i, f, hi, hshort⟩

end Cursor

/-! ## Digits and bytes -/

section Digits
variable {d : List UInt8} (hd : ∀ c ∈ d, isDigit c = true)
include hd

theorem isDigit_slot (a n : Nat) : ∀ c ∈ (d.drop a).take n, isDigit c = true := fun c hc =>
  hd c (List.mem_of_mem_drop (List.mem_of_mem_take hc))

/-- The bytes of a part of the digits. -/
theorem readBytes_slot (a n : Nat) :
    readBytes ((d.drop (2 * a)).take (2 * n)) = ((readBytes d).drop a).take n := by
  rw [← decodeHex_digits (isDigit_slot hd (2 * a) (2 * n)), ← decodeHex_digits hd, decodeHex_take,
    decodeHex_drop]

theorem readBytes_behind (a : Nat) : readBytes (d.drop (2 * a)) = (readBytes d).drop a := by
  have hbehind : ∀ c ∈ d.drop (2 * a), isDigit c = true :=
    fun c hc => hd c (List.mem_of_mem_drop hc)
  rw [← decodeHex_digits hbehind, ← decodeHex_digits hd, decodeHex_drop]

theorem width_le_readBytes {n : Nat} : n ≤ (readBytes d).length ↔ 2 * n ≤ d.length := by
  rw [← decodeHex_digits hd, decodeHex_length]
  omega

end Digits

/-- Registers that are what their digits spell are shown as the digits. -/
theorem spell_pack_eq_shown {m : Context} : ∀ (fs : List RecordField) (d : List UInt8),
    (∀ c ∈ d, isDigit c = true) → 2 * width fs ≤ d.length →
    (∀ i f, fs[i]? = some f → f.place ≠ none →
    f.get m = ((readBytes d).drop (cursor RecordField.size fs i)).take f.size) →
    spell (pack fs m) = shownDigits fs d
  | [], _, _, _, _ => rfl
  | f :: fs, d, hd, hlen, hget => by
      rw [width_cons] at hlen
      have hfirst : spell (f.get m) =
          if f.place.isSome then (d.take (2 * f.size)).map lowerCase
          else List.replicate (2 * f.size) (char '0') := by
        cases hplace : f.place with
        | none =>
          rw [RecordField.get_absent hplace, spell_zeros]
          rfl
        | some a =>
          have hslot := hget 0 f rfl (by rw [hplace]; exact Option.some_ne_none a)
          rw [cursor_zero, ← readBytes_slot hd 0 f.size, Nat.mul_zero, List.drop_zero] at hslot
          have htake : (d.take (2 * f.size)).length = 2 * f.size :=
            List.length_take_of_le (by omega)
          rw [hslot, spell_readBytes htake fun c hc => hd c (List.mem_of_mem_take hc)]
          rfl
      have hrest :=
        spell_pack_eq_shown fs (d.drop (2 * f.size)) (fun c hc => hd c (List.mem_of_mem_drop hc))
        (by rw [List.length_drop]; omega) fun i g hi hpresent => by
          have hslot := hget (i + 1) g hi hpresent
          rwa [cursor_cons, ← List.drop_drop, ← readBytes_behind hd] at hslot
      rw [pack_cons, spell_append, hfirst, hrest, shownDigits]

/-! ## One block -/

section Blocks
variable {P : Platform σ} {d : List UInt8} {s s₁ t : Stub σ}

theorem register_of_field {i : Nat} {f : RecordField} (h : P.registers[i]? = some f)
    (hpresent : f.place ≠ none) : ∃ r, P.gRegisterOffsets[i]? = some r ∧ r.offset ≠ regNotPresent ∧
    f = r.field := by
  rw [Platform.registers, List.getElem?_map] at h
  obtain ⟨r, hr, rfl⟩ := Option.map_eq_some_iff.mp h
  exact ⟨r, hr, fun habsent => hpresent (place_absent habsent), rfl⟩

theorem field_of_register {i : Nat} {r : RegisterOffsetData} (h : P.gRegisterOffsets[i]? = some r) :
    P.registers[i]? = some r.field := by
  rw [Platform.registers, List.getElem?_map, h]
  rfl

section Written
variable (hd : ∀ c ∈ d, isDigit c = true) (h : Executes P s (char 'G' :: d) s₁ t)
include hd h

theorem Executes.block : RepliedWith
      (if (load consumed P.registers (readBytes d) s.context).1 = true then text "OK"
        else errorString gdbErrorInternal)
      s₁ t ∧
    t.context = (load consumed P.registers (readBytes d) s.context).2 := by
  have hyields := h.blockWrite
  have htext : textAt d 0 = d := textAt_last [] (Digits.not_mem hd rfl)
  rw [writeBlockOutcome, htext, decodeHex_digits hd] at hyields
  exact ⟨hyields.reply, hyields.context⟩

theorem Executes.block_ok_iff : RepliedWith (text "OK") s₁ t ↔
    (load consumed P.registers (readBytes d) s.context).1 = true := by
  obtain ⟨hreply, -⟩ := h.block hd
  constructor
  · intro hok
    by_contra hrefused
    rw [if_neg hrefused] at hreply
    exact ok_ne_errorString _ (reply_injective (hok.symm.trans hreply))
  · intro hcomplete
    rwa [if_pos hcomplete] at hreply

theorem Executes.block_present (htable : WellPlaced P.gRegisterOffsets)
    (hok : RepliedWith (text "OK") s₁ t) {i : Nat} {f : RecordField} (hi : P.registers[i]? = some f)
    (hpresent : f.place ≠ none) :
    f.get t.context = ((readBytes d).drop (cursor consumed P.registers i)).take f.size := by
  obtain ⟨a, hplace⟩ := Option.ne_none_iff_exists'.mp hpresent
  rw [(h.block hd).2]
  exact load_get htable.apart ((h.block_ok_iff hd).mp hok) hi hplace

theorem Executes.block_others {x : Nat} (hx : ∀ f ∈ P.registers, ¬ f.Covers x) :
    t.context x = s.context x := by
  rw [(h.block hd).2]
  exact load_of_not_covers hx

/-- An aligned block does what it says. -/
theorem Executes.blockWritten_of_aligned (htable : WellPlaced P.gRegisterOffsets)
    (haligned : BlockAligned P.registers (readBytes d)) : BlockWritten P d s s₁ t := by
  rcases haligned with ⟨i, f, hi, hshort⟩ | ⟨hwidth, hslots⟩
  · have hrefused : ¬ RepliedWith (text "OK") s₁ t := fun hok =>
      load_not_complete hi hshort ((h.block_ok_iff hd).mp hok)
    have hlen : ¬ 2 * width P.registers ≤ d.length := fun hlong =>
      Nat.not_le.mpr (width_of_short hi hshort) ((width_le_readBytes hd).mpr hlong)
    exact ⟨⟨fun hok => absurd hok hrefused, fun hlong => absurd hlong hlen⟩, fun hok =>
      absurd hok hrefused,
      fun hok => absurd hok hrefused, fun hok => absurd hok hrefused⟩
  · have hok : RepliedWith (text "OK") s₁ t := (h.block_ok_iff hd).mpr (load_complete hwidth)
    have hlen : 2 * width P.registers ≤ d.length := (width_le_readBytes hd).mp hwidth
    have hget : ∀ i f, P.registers[i]? = some f → f.place ≠ none →
        f.get t.context = ((readBytes d).drop (cursor RecordField.size P.registers i)).take
        f.size :=
      fun i f hi hpresent =>
      (h.block_present hd htable hok hi hpresent).trans (hslots i f hi hpresent)
    refine ⟨⟨fun _ => hlen, fun _ => hok⟩, fun _ i r hi hpresent => ?_, fun _ x hx =>
      h.block_others hd hx,
      fun _ w t₁ u hread => ?_⟩
    · have hslot :=
        hget i r.field (field_of_register hi)
        (by rw [place_present hpresent]; exact Option.some_ne_none _)
      rw [readBytes_slot hd]
      rwa [RecordField.get_present (place_present hpresent)] at hslot
    · have hfits : 2 * width P.registers < pcdMaximumAsciiStringLength := by
        have hpayload := h.delivered.payload.fits
        rw [List.length_cons] at hpayload
        unfold maxRequestSize at hpayload
        unfold pcdMaximumAsciiStringLength
        omega
      have hreply := (hread.blockRead hfits).reply
      rwa [readBlockOutcome, spell_pack_eq_shown P.registers d hd hlen hget] at hreply

/-- A block that does what it says is aligned. -/
theorem Executes.aligned_of_blockWritten (htable : WellPlaced P.gRegisterOffsets)
    (hwritten : BlockWritten P d s s₁ t) : BlockAligned P.registers (readBytes d) := by
  by_cases hcomplete : (load consumed P.registers (readBytes d) s.context).1 = true
  swap
  · exact Or.inl (exists_short hcomplete)
  have hok : RepliedWith (text "OK") s₁ t := (h.block_ok_iff hd).mpr hcomplete
  refine Or.inr ⟨(width_le_readBytes hd).mpr (hwritten.accepted.mp hok), fun i f hi hpresent => ?_⟩
  rw [← h.block_present hd htable hok hi hpresent]
  obtain ⟨r, hr, hoffset, rfl⟩ := register_of_field hi hpresent
  rw [RecordField.get_present (place_present hoffset), ← readBytes_slot hd]
  exact hwritten.present hok i r hr hoffset

end Written

end Blocks

/-! ## The block that was read -/

section Returned
variable {P : Platform σ} {w : List UInt8} {s s₁ t t₁ u : Stub σ}

/-- `g`, executed from `s` to `t` and begun in `s₁`, is answered with what the registers hold, and
`G` with the answer, executed to `u` and begun in `t₁`, is answered with `OK` and leaves the context
as it was. -/
structure BlockReturned (P : Platform σ) (s s₁ t t₁ u : Stub σ) : Prop where
  read : RepliedWith (spell (pack P.registers s.context)) s₁ t
  accepted : RepliedWith (text "OK") t₁ u
  unchanged : u.context = s.context

/-- Blocks with the same fields and the same bytes outside of them are the same. -/
theorem context_eq {fs : List RecordField} {m m' : Context}
    (hget : ∀ f ∈ fs, f.place ≠ none → f.get m = f.get m')
    (hothers : ∀ x, (∀ f ∈ fs, ¬ f.Covers x) → m x = m' x) : m = m' := by
  funext x
  by_cases hx : ∃ f ∈ fs, f.Covers x
  · obtain ⟨f, hf, a, hplace, hax, hlast⟩ := hx
    obtain ⟨j, rfl⟩ := Nat.exists_eq_add_of_le hax
    have hsame := hget f hf (by rw [hplace]; exact Option.some_ne_none a)
    rw [RecordField.get_present hplace, RecordField.get_present hplace] at hsame
    have hbyte : (slice m a f.size)[j]? = (slice m' a f.size)[j]? :=
      congrArg (fun bs => bs[j]?) hsame
    rw [getElem?_slice (by omega), getElem?_slice (by omega)] at hbyte
    exact Option.some.inj hbyte
  · exact hothers x fun f hf hcovers => hx ⟨f, hf, hcovers⟩

theorem pack_slot {i : Nat} {f : RecordField} (hi : P.registers[i]? = some f) (c : Context) :
    ((pack P.registers c).drop (cursor RecordField.size P.registers i)).take f.size = f.get c :=
    pack_field hi

/-- The block that `g` answered with is written back exactly when it is aligned. -/
theorem blockReturned_iff (htable : WellPlaced P.gRegisterOffsets)
    (hread : Executes P s (char 'g' :: w) s₁ t)
    (hwrite : Executes P t (char 'G' :: spell (pack P.registers s.context)) t₁ u) :
    BlockReturned P s s₁ t t₁ u ↔ BlockAligned P.registers (pack P.registers s.context) := by
  have hd : ∀ c ∈ spell (pack P.registers s.context), isDigit c = true :=
    fun c hc => isDigit_of_mem_spell hc
  have hfits : 2 * width P.registers < pcdMaximumAsciiStringLength := by
    have hpayload := hwrite.delivered.payload.fits
    rw [List.length_cons, spell_length, pack_length] at hpayload
    unfold maxRequestSize at hpayload
    unfold pcdMaximumAsciiStringLength
    omega
  obtain ⟨hreply, hcontext⟩ := hread.blockRead hfits
  have hok : RepliedWith (text "OK") t₁ u := (hwrite.block_ok_iff hd).mpr <|
    load_complete (by rw [readBytes_spell, pack_length])
  constructor
  · intro hreturned
    refine Or.inr ⟨Nat.le_of_eq (pack_length ..).symm, fun i f hi hpresent => ?_⟩
    have hpresent' := hwrite.block_present hd htable hok hi hpresent
    rw [readBytes_spell, hreturned.unchanged] at hpresent'
    rw [← hpresent', pack_slot hi]
  · rintro (⟨i, f, hi, hshort⟩ | ⟨-, hslots⟩)
    · exact absurd (width_of_short hi hshort) (Nat.not_lt.mpr (Nat.le_of_eq (pack_length ..).symm))
    · have hget : ∀ f ∈ P.registers, f.place ≠ none → f.get u.context = f.get s.context := by
        intro f hf hpresent
        obtain ⟨i, hi⟩ := List.mem_iff_getElem?.mp hf
        have hpresent' := hwrite.block_present hd htable hok hi hpresent
        rw [readBytes_spell, hslots i f hi hpresent, pack_slot hi] at hpresent'
        exact hpresent'
      exact ⟨hreply, hok, context_eq hget fun x hx =>
        (hwrite.block_others hd hx).trans (congrFun hcontext x)⟩

end Returned

/-! ## The tables -/

section Tables

/-- No register that is not present is in front of another one. -/
def AbsentLast (fs : List RecordField) : Prop :=
  ∀ (i j : Nat) (f g : RecordField), fs[i]? = some f → fs[j]? = some g → i < j → f.place = none →
  f.size = 0 ∨ g.size = 0

theorem consumed_absent {f : RecordField} (h : f.place = none) : consumed f = 0 := by
  rw [consumed, h]
  rfl

theorem consumed_present {f : RecordField} (h : f.place ≠ none) : consumed f = f.size := by
  rw [consumed, if_pos (Option.isSome_iff_ne_none.mpr h)]

variable {fs : List RecordField}

/-- At a register with bytes the cursor of `G` is behind all registers in front of it. -/
theorem AbsentLast.cursor_eq (h : AbsentLast fs) {j : Nat} {g : RecordField} (hj : fs[j]? = some g)
    (hg : g.size ≠ 0) :
    cursor consumed fs j = cursor RecordField.size fs j := by
  have hall : ∀ i ≤ j, cursor consumed fs i = cursor RecordField.size fs i := by
    intro i hi
    induction i with
    | zero => rfl
    | succ i ih =>
      obtain ⟨hlt, -⟩ := List.getElem?_eq_some_iff.mp hj
      obtain ⟨f, hf⟩ : ∃ f, fs[i]? = some f := ⟨_, List.getElem?_eq_getElem (by omega)⟩
      rw [cursor_step hf, cursor_step hf, ih (by omega)]
      by_cases hplace : f.place = none
      · rw [consumed_absent hplace, (h i j f g hf hj (by omega) hplace).resolve_right hg]
      · rw [consumed_present hplace]
  exact hall j (Nat.le_refl j)

/-- **The tables for which `G` undoes `g`**: those with their absent registers behind the others. -/
theorem blockAligned_all_iff (fs : List RecordField) : (∀ bs, BlockAligned fs bs) ↔
    AbsentLast fs := by
  constructor
  · intro hall i j f g hf hg hij hplace
    by_contra hsizes
    obtain ⟨hfsize, hgsize⟩ := not_or.mp hsizes
    have hwidth := cursor_add_size_le hg
    -- one byte less than the width is enough for the cursor
    rcases hall (List.replicate (width fs - 1) 0) with ⟨k, e, hk, hshort⟩ | ⟨hlen, -⟩
    · rw [List.length_replicate] at hshort
      have hend := cursor_add_size_le hk
      rcases Nat.lt_or_ge i k with hik | hki
      · have hbehind : cursor consumed fs k + cursor RecordField.size fs (i + 1) ≤
            cursor RecordField.size fs k + cursor consumed fs (i + 1) :=
            cursor_behind consumed_le hik
        rw [cursor_step hf, cursor_step hf, consumed_absent hplace] at hbehind
        have hi := consumed_behind fs i
        omega
      · have hnext : cursor RecordField.size fs (k + 1) ≤ cursor RecordField.size fs j :=
          cursor_le (by omega)
        rw [cursor_step hk] at hnext
        have hk' := consumed_behind fs k
        omega
    · rw [List.length_replicate] at hlen
      omega
  · intro hlast bs
    by_cases hcomplete : ∃ i f, fs[i]? = some f ∧ bs.length < cursor consumed fs i + f.size
    · exact Or.inl hcomplete
    have hlong : ∀ i f, fs[i]? = some f → cursor consumed fs i + f.size ≤ bs.length := fun i f hi =>
      Nat.le_of_not_lt fun hshort => hcomplete ⟨i, f, hi, hshort⟩
    have hfront : ∀ k ≤ fs.length, cursor RecordField.size fs k ≤ bs.length := by
      intro k hk
      induction k with
      | zero => exact Nat.zero_le _
      | succ k ih =>
        obtain ⟨f, hf⟩ : ∃ f, fs[k]? = some f := ⟨_, List.getElem?_eq_getElem hk⟩
        rw [cursor_step hf]
        by_cases hsize : f.size = 0
        · rw [hsize]
          exact ih (by omega)
        · rw [← hlast.cursor_eq hf hsize]
          exact hlong k f hf
    refine Or.inr ⟨(cursor_length fs).symm.le.trans (hfront _ (Nat.le_refl _)), fun i f hi _ => ?_⟩
    by_cases hsize : f.size = 0
    · rw [hsize, List.take_zero, List.take_zero]
    · rw [hlast.cursor_eq hi hsize]

/-- On AArch64 every register is present. -/
theorem AArch64.blockAligned {OFFSET_OF : String → Nat}
    (hpresent : ∀ n, OFFSET_OF n ≠ regNotPresent) (bs : List UInt8) :
    BlockAligned ((AArch64.gRegisterOffsets OFFSET_OF).map RegisterOffsetData.field) bs := by
  refine (blockAligned_all_iff _).mpr (fun i j f g hf _ _ hplace => ?_) bs
  have hall : ∀ r ∈ AArch64.gRegisterOffsets OFFSET_OF, r.offset ≠ regNotPresent := by
    simp [AArch64.gRegisterOffsets, hpresent]
  rw [List.getElem?_map] at hf
  obtain ⟨r, hr, rfl⟩ := Option.map_eq_some_iff.mp hf
  rw [place_present (hall r (List.mem_of_getElem? hr))] at hplace
  cases hplace

/-- On X64 the floating point registers are absent, one behind the other. -/
theorem X64.not_blockAligned (OFFSET_OF : String → Nat) :
    ∃ bs, ¬ BlockAligned ((X64.gRegisterOffsets OFFSET_OF).map RegisterOffsetData.field) bs := by
  refine not_forall.mp fun hall => ?_
  have hsizes := (blockAligned_all_iff _).mp hall 29 30 ⟨none, 4⟩ ⟨none, 4⟩ rfl rfl (by decide) rfl
  exact absurd hsizes (by decide)

end Tables

/-- **When `G` undoes `g`.**  A block of digits is answered as its length says and leaves in each
present register what its digits spell, exactly when it is aligned; and so is the block that `g`
answered with. -/
theorem register_block_written_iff (P : Platform σ) (htable : WellPlaced P.gRegisterOffsets) :
    (∀ (d : List UInt8) (s s₁ t : Stub σ), (∀ c ∈ d, isDigit c = true) →
      Executes P s (char 'G' :: d) s₁ t →
      (BlockWritten P d s s₁ t ↔ BlockAligned P.registers (readBytes d))) ∧
    ∀ (w : List UInt8) (s s₁ t t₁ u : Stub σ), Executes P s (char 'g' :: w) s₁ t →
      Executes P t (char 'G' :: spell (pack P.registers s.context)) t₁ u →
        (BlockReturned P s s₁ t t₁ u ↔ BlockAligned P.registers (pack P.registers s.context)) :=
  ⟨fun _ _ _ _ hd h => ⟨h.aligned_of_blockWritten hd htable, h.blockWritten_of_aligned hd htable⟩,
    fun _ _ _ _ _ _ hread hwrite => blockReturned_iff htable hread hwrite⟩

/-! ## Blocks on X64 -/

theorem x64Platform_wellPlaced : WellPlaced x64Platform.gRegisterOffsets where
  register := by decide +kernel
  apart := by
    have hseparate : x64Platform.registers.Pairwise RecordField.Separate := by decide +kernel
    exact hseparate.imp RecordField.Separate.apart

/-- A stub on X64 that is about to write the block `d`. -/
def writesBlock (d : List UInt8) : Stub FlatMachine :=
  { Stub.initial ⟨fun _ => 0, []⟩ with mRequest := requestOf (char 'G' :: d) }

/-- The stub behind that. -/
def wroteBlock (d : List UInt8) : Stub FlatMachine :=
  ((executeGdbCommand x64Platform 1 (char 'G' :: d).length).run (writesBlock d)).2

theorem writesBlock_executes {d : List UInt8} (h : (char 'G' :: d).length + 4 ≤ maxRequestSize) :
    Executes x64Platform (writesBlock d) (char 'G' :: d) (writesBlock d) (wroteBlock d) :=
  ⟨⟨payload_requestOf h, rfl⟩, rfl⟩

/-- The digits of `n` zeros. -/
def zeroDigits (n : Nat) : List UInt8 := List.replicate (2 * n) (char '0')

theorem isDigit_zeroDigits (n : Nat) : ∀ c ∈ zeroDigits n, isDigit c = true := fun c hc => by
  rw [List.eq_of_mem_replicate hc]
  rfl

theorem readBytes_zeroDigits (n : Nat) : readBytes (zeroDigits n) = List.replicate n 0 := by
  rw [zeroDigits, ← spell_zeros, readBytes_spell]

/-- The bytes of the present registers and ten more are enough: the last 216 of the 652 digits are
not missed. -/
theorem short_block_accepted :
    WellPlaced x64Platform.gRegisterOffsets ∧
      Executes x64Platform (writesBlock (zeroDigits 218)) (char 'G' :: zeroDigits 218)
      (writesBlock (zeroDigits 218)) (wroteBlock (zeroDigits 218)) ∧
      ¬ BlockWritten x64Platform (zeroDigits 218) (writesBlock (zeroDigits 218))
      (writesBlock (zeroDigits 218)) (wroteBlock (zeroDigits 218)) := by
  have hexecutes := writesBlock_executes (d := zeroDigits 218) (by decide +kernel)
  refine ⟨x64Platform_wellPlaced, hexecutes, fun hwritten => ?_⟩
  have hcomplete : (load consumed x64Platform.registers (List.replicate 218 0)
      (writesBlock (zeroDigits 218)).context).1 = true := by decide +kernel
  have hok : RepliedWith (text "OK") (writesBlock (zeroDigits 218))
      (wroteBlock (zeroDigits 218)) := by
    refine (hexecutes.block_ok_iff (isDigit_zeroDigits _)).mpr ?_
    rw [readBytes_zeroDigits]
    exact hcomplete
  exact absurd (hwritten.accepted.mp hok) (by decide +kernel)

/-- A block whose first 164 bytes, those of the registers up to `gs`, count up. -/
def countingBlock : List UInt8 :=
  (List.range 164).map (fun n => UInt8.ofNat (n + 1)) ++ List.replicate 162 0

/-- A stub that stopped with `0x5A` in every byte of the context. -/
def stoppedStub : Stub FlatMachine :=
  { Stub.initial ⟨fun _ => 0, []⟩ with contexts := fun _ _ => 0x5A }

/-- The registers in front of the first absent one are found, and behind it there are zeros. -/
theorem countingBlock_aligned : BlockAligned x64Platform.registers countingBlock := by
  have hall : ∀ i < x64Platform.registers.length,
      ((x64Platform.registers[i]?).all fun f => decide (f.place ≠ none →
      (countingBlock.drop (cursor consumed x64Platform.registers i)).take f.size =
        (countingBlock.drop (cursor RecordField.size x64Platform.registers i)).take f.size)) =
        true := by
    decide +kernel
  refine Or.inr ⟨by decide +kernel, fun i f hi => ?_⟩
  have hfield := hall i (List.getElem?_eq_some_iff.mp hi).1
  rw [hi] at hfield
  exact of_decide_eq_true hfield

/-- The block is written over the context: `rbx` is its second field. -/
theorem register_block_written_iff_counting :
    ∃ s₁ t, BlockWritten x64Platform (spell countingBlock) stoppedStub s₁ t ∧
    RepliedWith (text "OK") s₁ t ∧ slice t.context 8 8 = [9, 10, 11, 12, 13, 14, 15, 16] := by
  have hexecutes :=
    executes_requestOf x64Platform stoppedStub (p := char 'G' :: spell countingBlock)
    (by decide +kernel)
  have hdigits : ∀ c ∈ spell countingBlock, isDigit c = true := fun c hc => isDigit_of_mem_spell hc
  have haligned : BlockAligned x64Platform.registers (readBytes (spell countingBlock)) := by
    rw [readBytes_spell]
    exact countingBlock_aligned
  have hwritten :=
    ((register_block_written_iff x64Platform x64Platform_wellPlaced).1 _ _ _ _ hdigits
      hexecutes).mpr
    haligned
  have hok := hwritten.accepted.mpr (by decide +kernel)
  have hrbx :=
    hwritten.present hok 1 _ (List.getElem?_eq_getElem (by decide +kernel)) (by decide +kernel)
  exact ⟨_, _, hwritten, hok, hrbx.trans (by decide +kernel)⟩

end UefiDebugger
