import UefiDebugger.Watchpoints
import UefiDebugger.WordFields

/-!
# The debug registers

`AddWatchpoint` and `RemoveWatchpoint` of `DebugX64.c` and `DebugAarch64.c`, on debug registers that
read back what was written.  X64 keeps the enables, conditions and lengths of its four slots in one
register, and spells the four slots out; AArch64 has a control register for each and loops.  Both
are a `DebugUnit`.
-/
namespace UefiDebugger
open SlotTable WordFields

/-! ## X64 -/

namespace X64

/-- `DR0` to `DR3`, and `DR7`. -/
structure DebugRegisters where
  dr : Fin 4 → UInt64
  dr7 : BitVec 64

/-- `DR7_ENABLE_MASK`. -/
def dr7EnableMask : BitVec 64 := 0xFF

/-- `DR7_WRITE_ONLY`. -/
def dr7WriteOnly : BitVec 2 := 0b01

/-- `DR7_READ_WRITE`. -/
def dr7ReadWrite : BitVec 2 := 0b11

/-- Where `X64_DR7` has the bits of one slot: the local enable, and the two bits each of the
condition and of the length. -/
structure Dr7Slot where
  l : Nat
  rw : Nat
  len : Nat

/-- `L0`, `RW0`, `LEN0`. -/
def slot0 : Dr7Slot := ⟨0, 16, 18⟩

/-- `L1`, `RW1`, `LEN1`. -/
def slot1 : Dr7Slot := ⟨2, 20, 22⟩

/-- `L2`, `RW2`, `LEN2`. -/
def slot2 : Dr7Slot := ⟨4, 24, 26⟩

/-- `L3`, `RW3`, `LEN3`. -/
def slot3 : Dr7Slot := ⟨6, 28, 30⟩

/-- The part of `DebugArchInit` that is about these registers. -/
def debugArchInit (s : DebugRegisters) : DebugRegisters :=
  { s with dr7 := s.dr7 &&& ~~~dr7EnableMask }

/-- `LengthToDebugRegLen`. -/
def lengthToDebugRegLen (Length : UInt64) : BitVec 2 :=
  if Length = 8 then 0b10
  else if Length = 4 then 0b11
  else if Length = 2 then 0b01
  else 0b00

/-- The condition both calls look for; reads alone are not supported. -/
def watchRw (Read : Bool) : BitVec 2 := if Read = true then dr7ReadWrite else dr7WriteOnly

/-- `Dr7.Bits.L && (Dr7.Bits.RW == Rw) && (Dr7.Bits.LEN == Len) && (AsmReadDr () == Address)`. -/
def slotMatches (b : Dr7Slot) (Dr7 : BitVec 64) (Dr Address : UInt64) (Rw Len : BitVec 2) : Bool :=
  field b.l 1 Dr7 = 1#1 && field b.rw 2 Dr7 = Rw && field b.len 2 Dr7 = Len && Dr = Address

/-- `!Dr7.Bits.L`. -/
def slotFree (b : Dr7Slot) (Dr7 : BitVec 64) : Bool := field b.l 1 Dr7 = 0#1

/-- `AsmWriteDr (Address)`, the three assignments to `Dr7`, and `AsmWriteDr7`. -/
def fillSlot (i : Fin 4) (b : Dr7Slot) (Address : UInt64) (Rw Len : BitVec 2) (s : DebugRegisters) :
    DebugRegisters where
  dr := Function.update s.dr i Address
  dr7 := setField b.len Len (setField b.rw Rw (setField b.l 1#1 s.dr7))

/-- `Dr7.Bits.L = 0` and `AsmWriteDr7`. -/
def clearSlot (b : Dr7Slot) (s : DebugRegisters) : DebugRegisters :=
  { s with dr7 := setField b.l 0#1 s.dr7 }

/-- `AddWatchpoint`. -/
def addWatchpoint (Address Length : UInt64) (Read _Write : Bool) (s : DebugRegisters) :
    Bool × DebugRegisters :=
  let Rw := watchRw Read
  let Len := lengthToDebugRegLen Length
  -- Check for a duplicate.
  if slotMatches slot0 s.dr7 (s.dr 0) Address Rw Len then (true, s)
  else if slotMatches slot1 s.dr7 (s.dr 1) Address Rw Len then (true, s)
  else if slotMatches slot2 s.dr7 (s.dr 2) Address Rw Len then (true, s)
  else if slotMatches slot3 s.dr7 (s.dr 3) Address Rw Len then (true, s)
  -- Find a free breakpoint.
  else if slotFree slot0 s.dr7 then (true, fillSlot 0 slot0 Address Rw Len s)
  else if slotFree slot1 s.dr7 then (true, fillSlot 1 slot1 Address Rw Len s)
  else if slotFree slot2 s.dr7 then (true, fillSlot 2 slot2 Address Rw Len s)
  else if slotFree slot3 s.dr7 then (true, fillSlot 3 slot3 Address Rw Len s)
  else (false, s)

/-- `RemoveWatchpoint`. -/
def removeWatchpoint (Address Length : UInt64) (Read _Write : Bool) (s : DebugRegisters) :
    Bool × DebugRegisters :=
  let Rw := watchRw Read
  let Len := lengthToDebugRegLen Length
  if slotMatches slot0 s.dr7 (s.dr 0) Address Rw Len then (true, clearSlot slot0 s)
  else if slotMatches slot1 s.dr7 (s.dr 1) Address Rw Len then (true, clearSlot slot1 s)
  else if slotMatches slot2 s.dr7 (s.dr 2) Address Rw Len then (true, clearSlot slot2 s)
  else if slotMatches slot3 s.dr7 (s.dr 3) Address Rw Len then (true, clearSlot slot3 s)
  else (false, s)

/-! ### The slots of `DR7` -/

/-- The four slots. -/
def dr7Slot : Fin 4 → Dr7Slot
  | 0 => slot0
  | 1 => slot1
  | 2 => slot2
  | 3 => slot3

theorem dr7Slot_eq : ∀ i : Fin 4, dr7Slot i = ⟨2 * i, 16 + 4 * i, 18 + 4 * i⟩
  | 0 => rfl
  | 1 => rfl
  | 2 => rfl
  | 3 => rfl

/-- The bit belongs to the slot. -/
def InSlot (i : Fin 4) (b : Nat) : Prop := b = 2 * i ∨ 16 + 4 * i ≤ b ∧ b < 20 + 4 * i

instance (i : Fin 4) (b : Nat) : Decidable (InSlot i b) := inferInstanceAs (Decidable (_ ∨ _))

/-- What the registers hold for a slot. -/
def contents (s : DebugRegisters) (i : Fin 4) : SlotContents where
  enabled := field (dr7Slot i).l 1 s.dr7 = 1#1
  key := ⟨s.dr i, (field (dr7Slot i).rw 2 s.dr7).toNat, (field (dr7Slot i).len 2 s.dr7).toNat⟩

/-- The bits of `DR7` outside of a slot. -/
def outside (i : Fin 4) (s : DebugRegisters) (b : Nat) : Bool :=
  !decide (InSlot i b) && s.dr7.getLsbD b

/-- What a request is encoded as. -/
def watchKey (Address Length : UInt64) (Read _Write : Bool) : WatchKey :=
  ⟨Address, (watchRw Read).toNat, (lengthToDebugRegLen Length).toNat⟩

/-- The keys of the enabled slots. -/
abbrev table (s : DebugRegisters) : Table 4 WatchKey := slotTable (contents s)

variable {s : DebugRegisters} {i : Fin 4} {Address : UInt64} {Rw Len : BitVec 2}

theorem one_bit (v : BitVec 1) : v = 0#1 ↔ v ≠ 1#1 := by
  revert v
  decide

/-- The test for a duplicate looks for the key in its slot. -/
theorem slotMatches_iff : slotMatches (dr7Slot i) s.dr7 (s.dr i) Address Rw Len = true ↔
    table s i = some ⟨Address, Rw.toNat, Len.toNat⟩ := by
  rw [table, slotTable, contents, slotMatches]
  by_cases h : field (dr7Slot i).l 1 s.dr7 = 1#1
  · simp [h, BitVec.toNat_inj, and_assoc, and_comm]
  · simp [h]

theorem slotFree_iff : slotFree (dr7Slot i) s.dr7 = true ↔ table s i = none := by
  rw [table, slotTable, contents, slotFree, decide_eq_true_iff, one_bit]
  simp

/-- A slot that is filled holds its key, and only that slot changes. -/
theorem fillSlot_spec (s : DebugRegisters) (i : Fin 4) (Address : UInt64) (Rw Len : BitVec 2) :
    contents (fillSlot i (dr7Slot i) Address Rw Len s) i = ⟨true, Address, Rw.toNat, Len.toNat⟩ ∧
      SlotFrame contents outside i s (fillSlot i (dr7Slot i) Address Rw Len s) := by
  have hi := i.isLt
  refine ⟨?_, ⟨fun j hj => ?_, ?_⟩⟩
  · simp (disch := omega) only [contents, fillSlot, dr7Slot_eq, field_setField,
      field_setField_of_disjoint, Function.update_self, decide_true]
  · have hne : (j : Nat) ≠ i := fun h => hj (Fin.ext h)
    have hjlt := j.isLt
    simp (disch := omega) only [contents, fillSlot, dr7Slot_eq, field_setField_of_disjoint,
      Function.update_of_ne hj]
  · funext b
    rw [outside, outside]
    by_cases hb : InSlot i b
    · simp [hb]
    · have hout : b ≠ 2 * i ∧ ¬ (16 + 4 * i ≤ b ∧ b < 20 + 4 * i) := not_or.mp hb
      simp (disch := omega) only [fillSlot, dr7Slot_eq, getLsbD_setField_of_outside]

/-- Only the slot that is cleared changes, and is disabled. -/
theorem clearSlot_spec (s : DebugRegisters) (i : Fin 4) :
    (contents (clearSlot (dr7Slot i) s) i).enabled = false ∧
      SlotFrame contents outside i s (clearSlot (dr7Slot i) s) := by
  have hi := i.isLt
  refine ⟨?_, ⟨fun j hj => ?_, ?_⟩⟩
  · simp (disch := omega) only [contents, clearSlot, dr7Slot_eq, field_setField]
    rfl
  · have hne : (j : Nat) ≠ i := fun h => hj (Fin.ext h)
    have hjlt := j.isLt
    simp (disch := omega) only [contents, clearSlot, dr7Slot_eq, field_setField_of_disjoint]
  · funext b
    rw [outside, outside]
    by_cases hb : InSlot i b
    · simp [hb]
    · have hout : b ≠ 2 * i ∧ ¬ (16 + 4 * i ≤ b ∧ b < 20 + 4 * i) := not_or.mp hb
      simp (disch := omega) only [clearSlot, dr7Slot_eq, getLsbD_setField_of_outside]

/-! ### The calls -/

/-- Four copies of a test are a search for the lowest slot. -/
theorem copies_eq_lowest {α : Type} {t : Table 4 WatchKey} {v : Option WatchKey}
    {test : Fin 4 → Bool} (h : ∀ i, test i = true ↔ t i = v) (d : α) (f : Fin 4 → α) :
    (if test 0 = true then f 0 else if test 1 = true then f 1 else if test 2 = true then f 2
      else if test 3 = true then f 3 else d) = (lowest t v).elim d f := by
  have hslots : List.finRange 4 = [0, 1, 2, 3] := by decide
  rw [lowest, hslots]
  by_cases h0 : t 0 = v
  · simp [h, h0]
  · by_cases h1 : t 1 = v
    · simp [h, h0, h1]
    · by_cases h2 : t 2 = v
      · simp [h, h0, h1, h2]
      · by_cases h3 : t 3 = v
        · simp [h, h0, h1, h2, h3]
        · simp [h, h0, h1, h2, h3]

/-- `AddWatchpoint` as two searches. -/
theorem addWatchpoint_eq (Address Length : UInt64) (Read Write : Bool) (s : DebugRegisters) :
    addWatchpoint Address Length Read Write s =
      (lowest (table s) (some (watchKey Address Length Read Write))).elim
        ((lowest (table s) none).elim (false, s) fun i =>
          (true, fillSlot i (dr7Slot i) Address (watchRw Read) (lengthToDebugRegLen Length) s))
        fun _ => (true, s) := by
  have hmatches : ∀ i,
      slotMatches (dr7Slot i) s.dr7 (s.dr i) Address (watchRw Read) (lengthToDebugRegLen Length) =
      true ↔ table s i = some (watchKey Address Length Read Write) := fun i => slotMatches_iff
  have hfree : ∀ i, slotFree (dr7Slot i) s.dr7 = true ↔ table s i = none := fun i => slotFree_iff
  rw [← copies_eq_lowest hfree, ← copies_eq_lowest hmatches]
  rfl

/-- `RemoveWatchpoint` as one. -/
theorem removeWatchpoint_eq (Address Length : UInt64) (Read Write : Bool) (s : DebugRegisters) :
    removeWatchpoint Address Length Read Write s =
      (lowest (table s) (some (watchKey Address Length Read Write))).elim (false, s) fun i =>
        (true, clearSlot (dr7Slot i) s) := by
  have hmatches : ∀ i,
      slotMatches (dr7Slot i) s.dr7 (s.dr i) Address (watchRw Read) (lengthToDebugRegLen Length) =
      true ↔ table s i = some (watchKey Address Length Read Write) := fun i => slotMatches_iff
  rw [← copies_eq_lowest hmatches]
  rfl

theorem init_disabled (s : DebugRegisters) (i : Fin 4) :
    (contents (debugArchInit s) i).enabled = false := by
  have hi := i.isLt
  have hzero : field (2 * (i : Nat)) 1 (s.dr7 &&& ~~~dr7EnableMask) = 0#1 := by
    apply BitVec.eq_of_getLsbD_eq
    intro j hj
    have hbit : dr7EnableMask.getLsbD (2 * i + j) = true := by
      obtain rfl : j = 0 := by omega
      revert i
      decide
    rw [getLsbD_field, BitVec.getLsbD_and, BitVec.getLsbD_not, hbit]
    simp
  rw [contents, debugArchInit, dr7Slot_eq]
  simp [hzero]

/-- The X64 debug registers. -/
def debugUnit : DebugUnit DebugRegisters where
  contents := contents
  Rest := Nat → Bool
  rest := outside
  debugArchInit := debugArchInit
  accepts _ := true
  key := watchKey
  addWatchpoint := addWatchpoint
  removeWatchpoint := removeWatchpoint
  init_disabled := init_disabled
  refused _ _ _ _ _ h := Bool.noConfusion h
  add_duplicate a l r w s _ h := by
    obtain ⟨i, hi⟩ := holds_iff_lowest.mp h
    rw [addWatchpoint_eq, hi]
    rfl
  add_free a l r w s i _ hnew hi := by
    rw [addWatchpoint_eq, not_holds_iff_lowest.mp hnew, hi]
    exact ⟨rfl, fillSlot_spec s i a _ _⟩
  add_full a l r w s _ hnew hfull := by
    rw [addWatchpoint_eq, not_holds_iff_lowest.mp hnew, lowest_eq_none.mpr hfull]
    rfl
  remove_held a l r w s i _ hi := by
    rw [removeWatchpoint_eq, hi]
    exact ⟨rfl, clearSlot_spec s i⟩
  remove_absent a l r w s _ h := by
    rw [removeWatchpoint_eq, not_holds_iff_lowest.mp h]
    rfl

end X64
/-! ## AArch64 -/

namespace AArch64

/-- `MAX_WATCHPOINTS`, the length of `DebugWatchpointRegisters`. -/
abbrev maxWatchpoints : Nat := 4

/-- The value and control registers of the watchpoints, and what else `DebugArchInit` sets up:
`MDSCR_EL1`, `DAIF`, and the two registers of the OS lock. -/
structure DebugRegisters where
  wvr : Fin maxWatchpoints → UInt64
  wcr : Fin maxWatchpoints → BitVec 64
  mdscr : UInt64
  daif : UInt64
  oslsr : UInt64
  oslar : UInt64

/-- `MDSCR_MDE`. -/
def mdscrMde : UInt64 := 0x00008000

/-- `MDSCR_KDE`. -/
def mdscrKde : UInt64 := 0x00002000

/-- `OSLSR_LOCKED`. -/
def oslsrLocked : UInt64 := 0x2

/-- `DAIF_DEBUG`. -/
def daifDebug : UInt64 := 0x200

/-- `DebugArchInit`. -/
def debugArchInit (s : DebugRegisters) : DebugRegisters where
  wvr := s.wvr
  -- The loop clears every control register.
  wcr := fun _ => 0
  mdscr := s.mdscr ||| (mdscrMde ||| mdscrKde)
  -- Set while configuring, and cleared at the end.
  daif := (s.daif ||| daifDebug) &&& ~~~daifDebug
  oslsr := s.oslsr
  oslar := if s.oslsr &&& oslsrLocked ≠ 0 then 0 else s.oslar

/-! The fields of `DBG_WCR`. -/

def wcrEnabled (w : BitVec 64) : BitVec 1 := field 0 1 w
def wcrLsc (w : BitVec 64) : BitVec 2 := field 3 2 w
def wcrBas (w : BitVec 64) : BitVec 8 := field 5 8 w

/-- `Bas`, a bit for each byte from the address on. -/
def watchBas (Length : UInt64) : BitVec 8 := 0xFF#8 >>> (8 - min Length.toNat 8)

/-- `Lsc`. -/
def watchLsc (Read Write : Bool) : BitVec 2 :=
  (if Read = true then 0b01#2 else 0#2) ||| (if Write = true then 0b10#2 else 0#2)

/-- The control register of a new watchpoint: trapping at all levels in the normal world (`Hmc`,
`Ssc`, `Pac`). -/
def newControl (Lsc : BitVec 2) (Bas : BitVec 8) : BitVec 64 :=
  let DbgWcr := setField 0 1#1 (0 : BitVec 64)
  let DbgWcr := setField 3 Lsc DbgWcr
  let DbgWcr := setField 5 Bas DbgWcr
  let DbgWcr := setField 13 1#1 DbgWcr
  let DbgWcr := setField 14 0b01#2 DbgWcr
  setField 1 0b11#2 DbgWcr

/-- The test for a duplicate. -/
def slotMatches (DbgWcr : BitVec 64) (Value Address : UInt64) (Lsc : BitVec 2) (Bas : BitVec 8) :
    Bool :=
  wcrEnabled DbgWcr = 1#1 && wcrBas DbgWcr = Bas && wcrLsc DbgWcr = Lsc && Value = Address

/-- `!DbgWcr.Bits.Enabled`. -/
def slotFree (DbgWcr : BitVec 64) : Bool := wcrEnabled DbgWcr = 0#1

/-- The `Index` a loop over the watchpoints stops at. -/
def findSlot (test : Fin maxWatchpoints → Bool) : Option (Fin maxWatchpoints) :=
  (List.finRange maxWatchpoints).find? test

/-- `AddWatchpoint`. -/
def addWatchpoint (Address Length : UInt64) (Read Write : Bool) (s : DebugRegisters) :
    Bool × DebugRegisters :=
  if Length = 0 then (false, s)
  else
    let Bas := watchBas Length
    let Lsc := watchLsc Read Write
    match findSlot fun Index => slotMatches (s.wcr Index) (s.wvr Index) Address Lsc Bas with
    | some _ => (true, s)
    | none =>
        match findSlot fun Index => slotFree (s.wcr Index) with
        | some Index =>
            (true, { s with
              wvr := Function.update s.wvr Index Address
              wcr := Function.update s.wcr Index (newControl Lsc Bas) })
        | none => (false, s)

/-- `RemoveWatchpoint`. -/
def removeWatchpoint (Address Length : UInt64) (Read Write : Bool) (s : DebugRegisters) :
    Bool × DebugRegisters :=
  if Length = 0 then (false, s)
  else
    let Bas := watchBas Length
    let Lsc := watchLsc Read Write
    match findSlot fun Index => slotMatches (s.wcr Index) (s.wvr Index) Address Lsc Bas with
    | some Index => (true, { s with wcr := Function.update s.wcr Index 0 })
    | none => (false, s)

/-! ### The slots -/

/-- What the registers hold for a slot. -/
def contents (s : DebugRegisters) (i : Fin 4) : SlotContents where
  enabled := wcrEnabled (s.wcr i) = 1#1
  key := ⟨s.wvr i, (wcrLsc (s.wcr i)).toNat, (wcrBas (s.wcr i)).toNat⟩

/-- The registers that belong to no slot. -/
def outside (_ : Fin 4) (s : DebugRegisters) : UInt64 × UInt64 × UInt64 × UInt64 :=
  (s.mdscr, s.daif, s.oslsr, s.oslar)

/-- What a request is encoded as. -/
def watchKey (Address Length : UInt64) (Read Write : Bool) : WatchKey :=
  ⟨Address, (watchLsc Read Write).toNat, (watchBas Length).toNat⟩

/-- The keys of the enabled slots. -/
abbrev table (s : DebugRegisters) : Table 4 WatchKey := slotTable (contents s)

variable {s : DebugRegisters} {i : Fin 4} {Address : UInt64} {Lsc : BitVec 2} {Bas : BitVec 8}

theorem slotMatches_iff : slotMatches (s.wcr i) (s.wvr i) Address Lsc Bas = true ↔
    table s i = some ⟨Address, Lsc.toNat, Bas.toNat⟩ := by
  rw [table, slotTable, contents, slotMatches]
  by_cases h : wcrEnabled (s.wcr i) = 1#1
  · simp [h, BitVec.toNat_inj, and_comm]
  · simp [h]

theorem slotFree_iff : slotFree (s.wcr i) = true ↔ table s i = none := by
  rw [table, slotTable, contents, slotFree, decide_eq_true_iff, X64.one_bit]
  simp

theorem newControl_fields (Lsc : BitVec 2) (Bas : BitVec 8) :
    wcrEnabled (newControl Lsc Bas) = 1#1 ∧
    wcrLsc (newControl Lsc Bas) = Lsc ∧ wcrBas (newControl Lsc Bas) = Bas := by
  refine ⟨?_, ?_, ?_⟩
  · simp (disch := omega) only [wcrEnabled, newControl, field_setField, field_setField_of_disjoint]
  · simp (disch := omega) only [wcrLsc, newControl, field_setField, field_setField_of_disjoint]
  · simp (disch := omega) only [wcrBas, newControl, field_setField, field_setField_of_disjoint]

/-- A loop's test that looks for `v` is the search of the table. -/
theorem findSlot_eq {test : Fin 4 → Bool} {v : Option WatchKey}
    (h : ∀ i, test i = true ↔ table s i = v) :
    findSlot test = lowest (table s) v := by
  refine congrArg (fun p => (List.finRange 4).find? p) (funext fun i => ?_)
  rw [Bool.eq_iff_iff, h, decide_eq_true_iff]

theorem findSlot_matches (Address Length : UInt64) (Read Write : Bool) :
    (findSlot fun Index => slotMatches (s.wcr Index) (s.wvr Index) Address (watchLsc Read Write)
      (watchBas Length)) =
      lowest (table s) (some (watchKey Address Length Read Write)) :=
      findSlot_eq fun _ => slotMatches_iff

theorem findSlot_free : (findSlot fun Index => slotFree (s.wcr Index)) = lowest (table s) none :=
  findSlot_eq fun _ => slotFree_iff

/-- Writing the registers of one slot leaves the others. -/
theorem slotFrame_update (s : DebugRegisters) (i : Fin 4) (Value : UInt64) (Control : BitVec 64) :
    SlotFrame contents outside i s { s with
      wvr := Function.update s.wvr i Value
      wcr := Function.update s.wcr i Control } where
  others j hj := by simp only [contents, Function.update_of_ne hj]
  rest := rfl

/-- The AArch64 debug registers. -/
def debugUnit : DebugUnit DebugRegisters where
  contents := contents
  Rest := UInt64 × UInt64 × UInt64 × UInt64
  rest := outside
  debugArchInit := debugArchInit
  accepts l := l ≠ 0
  key := watchKey
  addWatchpoint := addWatchpoint
  removeWatchpoint := removeWatchpoint
  init_disabled _ _ := rfl
  refused a l r w s h := by
    have hl : l = 0 := by simpa using h
    exact ⟨by rw [addWatchpoint, if_pos hl], by rw [removeWatchpoint, if_pos hl]⟩
  add_duplicate a l r w s hl h := by
    obtain ⟨i, hi⟩ := holds_iff_lowest.mp h
    rw [addWatchpoint, if_neg (by simpa using hl)]
    dsimp only
    rw [findSlot_matches, hi]
  add_free a l r w s i hl hnew hi := by
    obtain ⟨hen, hlsc, hbas⟩ := newControl_fields (watchLsc r w) (watchBas l)
    rw [addWatchpoint, if_neg (by simpa using hl)]
    dsimp only
    rw [findSlot_matches, not_holds_iff_lowest.mp hnew, findSlot_free, hi]
    refine ⟨rfl, ?_, slotFrame_update s i a _⟩
    simp only [contents, Function.update_self, hen, hlsc, hbas, watchKey, decide_true]
  add_full a l r w s hl hnew hfull := by
    rw [addWatchpoint, if_neg (by simpa using hl)]
    dsimp only
    rw [findSlot_matches, not_holds_iff_lowest.mp hnew, findSlot_free, lowest_eq_none.mpr hfull]
  remove_held a l r w s i hl hi := by
    rw [removeWatchpoint, if_neg (by simpa using hl)]
    dsimp only
    rw [findSlot_matches, hi]
    refine ⟨rfl, ?_, ?_⟩
    · simp only [contents, Function.update_self]
      rfl
    · have hframe := slotFrame_update s i (s.wvr i) 0
      rwa [Function.update_eq_self] at hframe
  remove_absent a l r w s hl h := by
    rw [removeWatchpoint, if_neg (by simpa using hl)]
    dsimp only
    rw [findSlot_matches, not_holds_iff_lowest.mp h]

end AArch64

/-! ## Both -/

/-- **The watchpoint registers are a bounded set**, on both architectures, in every state that calls
of `AddWatchpoint` and `RemoveWatchpoint` lead to from what `DebugArchInit` leaves. -/
theorem watchpoint_registers_are_a_set :
    (∀ s, X64.debugUnit.Reachable s → X64.debugUnit.IsBoundedSet s) ∧
      ∀ s, AArch64.debugUnit.Reachable s → AArch64.debugUnit.IsBoundedSet s :=
  ⟨fun _ h => h.isBoundedSet, fun _ h => h.isBoundedSet⟩

theorem watchpoint_registers_are_a_set_first :
    X64.debugUnit.IsBoundedSet
        (X64.addWatchpoint 0x1000 4 false true (X64.debugArchInit ⟨fun _ => 0, 0x2FF⟩)).2 ∧
      AArch64.debugUnit.IsBoundedSet (AArch64.addWatchpoint 0x1000 4 false true
        (AArch64.debugArchInit ⟨fun _ => 0, fun _ => 1, 0, 0, 2, 1⟩)).2 :=
  ⟨watchpoint_registers_are_a_set.1 _ ((DebugUnit.Reachable.init _).add 0x1000 4 false true),
    watchpoint_registers_are_a_set.2 _ ((DebugUnit.Reachable.init _).add 0x1000 4 false true)⟩

end UefiDebugger
