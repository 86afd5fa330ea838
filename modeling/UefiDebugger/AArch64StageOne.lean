import UefiDebugger.AArch64Translation

/-!
# What the processor walks on AArch64

Stage 1 of the translation of an address below `2 ^ (64 - T0SZ)`, with a granule of 4 KB and 48 bits
of output, as the architecture has it: the base in `TTBR0` is aligned to the first table, a
descriptor without its lowest bit maps nothing, and there are blocks on levels 1 and 2 only.  A
table descriptor may take the permission to write away from everything below it.

`ParsePageTableLevel` takes the base as it stands and a block on any level but the last
(`trail_eq_stageOneWalk`), and nothing it returns tells of the tables above the leaf.
-/
namespace UefiDebugger.AArch64
open TableWalk WordFields

/-! ## The walk -/

/-- The lowest bit of an address that a level looks at. -/
def levelShift (level : Int) : Nat := 12 + 9 * (3 - level).toNat

/-- What a descriptor says on a level: nothing when it is not valid; else a table or a page when bit
1 is set, and a block otherwise. -/
def stageOneDecode (level : Int) (e : UInt64) : Outcome UInt64 :=
  if e.toNat.testBit 0 = false then .absent
  else if e.toNat.testBit 1 = true then
    if level < 3 then .next (e.toNat / 2 ^ 12 % 2 ^ 36 * 2 ^ 12).toUInt64 else .leaf
  else if level = 1 ∨ level = 2 then .leaf else .absent

/-- Where the descriptor of a level is, for the address `x`. -/
def stageOneScheme (x : Nat) : Scheme Int UInt64 Nat UInt64 where
  place level table := some (table.toNat + 8 * (x / 2 ^ levelShift level % 2 ^ 9))
  decode := stageOneDecode

/-- The bytes of the first table: a descriptor for each value of the bits above the other levels. -/
def Regime.firstTableBytes (r : Regime) : Nat :=
  8 * 2 ^ (64 - r.t0sz - levelShift (architecturalLevel r.t0sz))

/-- The first table: `TTBR0` without the bits that its size leaves for other uses, and without the
`ASID`. -/
def Regime.firstTable (r : Regime) : UInt64 :=
  (r.ttbr0.toNat % 2 ^ 48 / r.firstTableBytes * r.firstTableBytes).toUInt64

/-- The processor's walk for the address `x`. -/
def Regime.stageOneWalk (r : Regime) (x : Nat) : Trail Int UInt64 Nat UInt64 :=
  walk (stageOneScheme x) (load64 r.memory) (levelsFrom (architecturalLevel r.t0sz)) r.firstTable

/-- `APTable[1]`, bit 62 of a table descriptor: nothing below may be written. -/
def writesBarred (e : UInt64) : Bool := e.toNat.testBit 62

/-- A privileged access to the byte at `x` takes no fault of the translation: `x` is in the range of
the regime, the walk finds a leaf that permits the access, and for a write no table on the way bars
it. -/
def ProcessorAllows (Write : Bool) (r : Regime) (x : Nat) : Prop :=
  x < 2 ^ (64 - r.t0sz) ∧ (∃ d, (r.stageOneWalk x).leaf = some d ∧ Permits d Write) ∧
    (Write = true → ∀ v ∈ (r.stageOneWalk x).visits.dropLast, writesBarred v.entry = false)

/-! ## Where the code walks so -/

/-- Descriptors are decoded alike but for a block on level 0. -/
theorem decode_eq_stageOne {level : Int} (hlevel : 0 ≤ level ∧ level ≤ 3) {e : UInt64}
    (hblock : level = 0 → e.toNat % 4 ≠ 1) : decodeDescriptor level e = stageOneDecode level e := by
  have htype : (e &&& 3).toNat = e.toNat % 4 := by
    rw [toNat_and_field e 3 2 0 (by decide)]
    omega
  have hthree : e &&& 3 = 3 ↔ e.toNat % 4 = 3 := by
    rw [← UInt64.toNat_inj, htype]
    rfl
  have hone : e &&& 3 = 1 ↔ e.toNat % 4 = 1 := by
    rw [← UInt64.toNat_inj, htype]
    rfl
  have hzero : e.toNat.testBit 0 = decide (e.toNat % 4 % 2 = 1) := by
    rw [Nat.testBit_zero]
    exact decide_eq_decide.mpr (by omega)
  have hbit : e.toNat.testBit 1 = decide (e.toNat % 4 / 2 = 1) := by
    rw [Nat.testBit_eq_decide_div_mod_eq]
    exact decide_eq_decide.mpr (by omega)
  have htable : e &&& addressMaskDescriptionTable =
      (e.toNat / 2 ^ 12 % 2 ^ 36 * 2 ^ 12).toUInt64 := by
    have hfits : e.toNat / 2 ^ 12 % 2 ^ 36 * 2 ^ 12 < 2 ^ 64 := by omega
    rw [← UInt64.toNat_inj, toNat_and_field _ _ 36 12 (by decide), Nat.toUInt64_eq,
      UInt64.toNat_ofNat', Nat.mod_eq_of_lt hfits]
  have hlt : e.toNat % 4 < 4 := Nat.mod_lt _ (by decide)
  rw [decodeDescriptor, stageOneDecode, blockEntryType, hzero, hbit, htable]
  simp only [hthree, decide_eq_false_iff_not, decide_eq_true_iff]
  by_cases hlast : level < 3
  · rw [if_pos (show level ≠ 3 by omega)]
    simp only [hone, hlast, true_and, if_true]
    split_ifs <;> first | rfl | omega
  · rw [if_neg (show ¬ level ≠ 3 by omega)]
    simp only [hthree, hlast, false_and, if_false]
    split_ifs <;> first | rfl | omega

section Legal
variable {r : Regime} {x : Nat}

theorem stageOne_table_lt {v : Visit Int UInt64 Nat UInt64} (hv : v ∈ (r.stageOneWalk x).visits) :
    v.table.toNat < 2 ^ 48 := by
  refine forall_table (P := fun t => t.toNat < 2 ^ 48) ?_ ?_ hv
  · have hle := Nat.div_mul_le_self (r.ttbr0.toNat % 2 ^ 48) r.firstTableBytes
    rw [Regime.firstTable, Nat.toUInt64_eq, UInt64.toNat_ofNat', Nat.mod_eq_of_lt (by omega)]
    omega
  · intro level e table' hd
    have htable : table' = (e.toNat / 2 ^ 12 % 2 ^ 36 * 2 ^ 12).toUInt64 := by
      simp only [stageOneScheme, stageOneDecode] at hd
      split_ifs at hd
      exact (Outcome.next.inj hd).symm
    rw [htable, Nat.toUInt64_eq, UInt64.toNat_ofNat', Nat.mod_eq_of_lt (by omega)]
    omega

/-- An aligned base is taken as it stands. -/
theorem firstTable_eq (h : r.ttbr0.toNat % 2 ^ 48 % r.firstTableBytes = 0) :
    r.firstTable = r.ttbr0BaseAddress := by
  rw [Regime.firstTable, Nat.div_mul_cancel (Nat.dvd_of_mod_eq_zero h), ← UInt64.toNat_inj,
    Regime.ttbr0BaseAddress, toNat_and_field _ _ 48 0 (by decide), Nat.toUInt64_eq,
    UInt64.toNat_ofNat', Nat.mod_eq_of_lt (by omega)]
  omega

/-- **The code walks as the processor does** where the base is aligned and no block is on level
0. -/
theorem trail_eq_stageOneWalk (hmin : 16 ≤ r.t0sz) (hmax : r.t0sz ≤ 39)
    (hbase : r.ttbr0.toNat % 2 ^ 48 % r.firstTableBytes = 0) (hx : x < 2 ^ 64)
    (hblock : ∀ v ∈ (r.stageOneWalk x).visits, v.level = 0 → v.entry.toNat % 4 ≠ 1) :
    r.trail x.toUInt64 = r.stageOneWalk x := by
  have hlevels := tableLevel_bounds hmin hmax
  rw [Regime.trail, tableLevel_eq hmin hmax, ← firstTable_eq hbase]
  have hbounds : ∀ v ∈ (r.stageOneWalk x).visits, 0 ≤ v.level ∧ v.level ≤ 3 := by
    intro v hv
    rw [tableLevel_eq hmin hmax] at hlevels
    have hmem := mem_levelsFrom (mem_walk hv).1 (by omega)
    omega
  refine walk_eq_of_visits (fun _ _ => rfl) (fun v hv => ?_) fun v hv =>
    decode_eq_stageOne (hbounds v hv) (hblock v hv)
  obtain ⟨hlow, hhigh⟩ := hbounds v hv
  obtain ⟨-, hplace, -⟩ := mem_walk hv
  have hshift : addressOffsetAtLevel v.level = levelShift v.level := by
    unfold addressOffsetAtLevel levelShift
    omega
  have haddress : x.toUInt64.toNat = x := by
    rw [Nat.toUInt64_eq, UInt64.toNat_ofNat', Nat.mod_eq_of_lt hx]
  rw [← hplace]
  show some (entryForAddress v.table v.level x.toUInt64).toNat = some _
  rw [toNat_entryForAddress hlow (stageOne_table_lt hv), levelIndex, hshift, haddress]

/-- Addresses that agree above their lowest twelve bits are translated alike. -/
theorem stageOneWalk_congr {y : Nat} (h : ∀ k, 12 ≤ k → x / 2 ^ k = y / 2 ^ k) :
    r.stageOneWalk x = r.stageOneWalk y := by
  have hdecode : (stageOneScheme x).decode = (stageOneScheme y).decode := rfl
  refine walk_congr hdecode (fun level _ => ?_) _
  have hshift : 12 ≤ levelShift level := Nat.le_add_right ..
  funext table
  show some (table.toNat + 8 * (x / 2 ^ levelShift level % 2 ^ 9)) = some _
  rw [h _ hshift]

/-- A write outside the descriptors that a walk reads leaves it as it was. -/
theorem stageOneWalk_apart {memory memory' : Nat → UInt8} {ttbr0 tcr : UInt64}
    (hsame : ∀ v ∈ (Regime.stageOneWalk ⟨memory, ttbr0, tcr⟩ x).visits, ∀ i < 8,
      memory' (v.place + i) = memory (v.place + i)) :
    Regime.stageOneWalk ⟨memory', ttbr0, tcr⟩ x = Regime.stageOneWalk ⟨memory, ttbr0, tcr⟩ x :=
  walk_fetch_congr fun v hv => load64_congr (hsame v hv)

end Legal
end UefiDebugger.AArch64
