import Mathlib.Tactic.IntervalCases
import UefiDebugger.AArch64PageWalk

/-!
# What the AArch64 page walk says about the hardware

The test of a descriptor takes bit 6 for a permission to write, so a descriptor that is read-only at
every exception level passes, and the access flag is only looked at for reads
(`checkPageAccess_permission_iff`).

The walk indexes every table with nine bits of the address and never compares the address with the
range that `T0SZ` leaves (`checkPageAccess_inside_iff`).
-/
namespace UefiDebugger.AArch64
open StateEffect TableWalk WordFields

variable {r : Regime} {address : UInt64}

/-! ## A descriptor's attributes -/

/-- `AttrIndx`, bits 4:2. -/
def memoryIndex (d : UInt64) : Nat := d.toNat / 2 ^ 2 % 2 ^ 3

/-- `AP[2:1]`, bits 7:6. -/
def accessPermissions (d : UInt64) : Nat := d.toNat / 2 ^ 6 % 2 ^ 2

/-- `AF`, bit 10. -/
def accessFlag (d : UInt64) : Bool := d.toNat.testBit 10

/-- The attributes that are returned hold every bit that is looked at. -/
theorem and_attributesMask (d mask : UInt64) (h : ttAttributesMask &&& mask = mask) :
    d &&& ttAttributesMask &&& mask = d &&& mask := by
  rw [UInt64.and_assoc, h]

/-- The access that the code reads off a descriptor: any to normal memory but a write to `AP` = 2,
and no read without the access flag. -/
theorem attributesAllow_iff (d : UInt64) (write : Bool) :
    attributesAllow (d &&& ttAttributesMask) write = true ↔
      memoryIndex d ≠ 0 ∧ if write then accessPermissions d ≠ 2 else accessFlag d = true := by
  unfold attributesAllow
  rw [and_attributesMask d ttAttrIndxMask (by decide), and_attributesMask d ttApRwRw (by decide),
    and_attributesMask d ttApMask (by decide), and_attributesMask d ttAf (by decide)]
  have hindex : d &&& ttAttrIndxMask = ttAttrIndxDeviceMemory ↔ memoryIndex d = 0 := by
    rw [← UInt64.toNat_inj, toNat_and_field d ttAttrIndxMask 3 2 (by decide), memoryIndex]
    have : ttAttrIndxDeviceMemory.toNat = 0 := by decide
    omega
  have hap : (d &&& ttApMask == 0) = true ↔ accessPermissions d = 0 := by
    rw [beq_iff_eq, ← UInt64.toNat_inj, toNat_and_field d ttApMask 2 6 (by decide),
      accessPermissions, UInt64.toNat_zero]
    omega
  have hrw : (d &&& ttApRwRw != 0) = true ↔ accessPermissions d % 2 = 1 := by
    rw [and_ne_zero_eq_testBit d ttApRwRw 6 (by decide), Nat.testBit_eq_decide_div_mod_eq,
      decide_eq_true_iff, accessPermissions]
    omega
  have hlt : accessPermissions d < 4 := Nat.mod_lt _ (by decide)
  by_cases hdevice : memoryIndex d = 0
  · rw [if_pos (hindex.mpr hdevice)]
    exact iff_of_false Bool.false_ne_true fun h => h.1 hdevice
  · rw [if_neg (mt hindex.mp hdevice)]
    cases write with
    | false =>
      rw [and_ne_zero_eq_testBit d ttAf 10 (by decide)]
      exact ⟨fun h => ⟨hdevice, h⟩, fun h => h.2⟩
    | true =>
      rw [if_pos rfl, if_pos rfl, Bool.or_eq_true, hrw, hap]
      exact ⟨fun h => ⟨hdevice, by omega⟩, fun h => by omega⟩

theorem checkPageAccess_iff (r : Regime) (address : UInt64) (write : Bool) :
    ((checkPageAccess r address write).run []).1 = true ↔
      address < 0xfffff00000000000 ∧ ∃ d, (r.trail address).leaf = some d ∧
        memoryIndex d ≠ 0 ∧ if write then accessPermissions d ≠ 2 else accessFlag d = true := by
  rw [checkPageAccess_run]
  by_cases hlimit : 0xfffff00000000000 ≤ address
  · rw [if_pos hlimit]
    exact iff_of_false Bool.false_ne_true fun h => UInt64.not_lt.mpr hlimit h.1
  · rw [if_neg hlimit]
    cases hleaf : (r.trail address).leaf with
    | none => exact iff_of_false Bool.false_ne_true fun ⟨_, _, h, _⟩ => nomatch h
    | some d =>
      refine (attributesAllow_iff d write).trans ⟨fun h => ⟨UInt64.not_le.mp hlimit, d, rfl, h⟩, ?_⟩
      rintro ⟨-, _, ⟨⟩, h⟩
      exact h

/-! ## Permissions -/

/-- A privileged access through the descriptor does not fault: the access flag is set, and `AP[2]`
is clear for a write. -/
def Permits (d : UInt64) (write : Bool) : Prop :=
  accessFlag d = true ∧ (write = true → d.toNat.testBit 7 = false)

instance (d : UInt64) (write : Bool) : Decidable (Permits d write) :=
  inferInstanceAs (Decidable (_ ∧ _))

/-- Every positive answer is right about the descriptor found, and a writable page is readable. -/
def PermissionsExact (r : Regime) (address : UInt64) : Prop :=
  (∀ d, (r.trail address).leaf = some d →
    ∀ write, ((checkPageAccess r address write).run []).1 = true → Permits d write) ∧
  (((isPageWritable r address).run []).1 = true → ((isPageReadable r address).run []).1 = true)

/-- **The answers are right exactly when the leaf is not one of those whose write bit is misread.**
The address is refused, there is no leaf, or the leaf is device memory, is writable at no level by
its `AP`, or has its access flag set and is not read-only for all. -/
theorem checkPageAccess_permission_iff (r : Regime) (address : UInt64) :
    PermissionsExact r address ↔
      0xfffff00000000000 ≤ address ∨ ∀ d, (r.trail address).leaf = some d →
        memoryIndex d = 0 ∨ accessPermissions d = 2 ∨
        (accessFlag d = true ∧ accessPermissions d ≠ 3) := by
  have hbit : ∀ d : UInt64, d.toNat.testBit 7 = false ↔ accessPermissions d < 2 := by
    intro d
    rw [Nat.testBit_eq_decide_div_mod_eq, decide_eq_false_iff_not, accessPermissions]
    omega
  have hlt : ∀ d, accessPermissions d < 4 := fun d => Nat.mod_lt _ (by decide)
  unfold PermissionsExact Permits isPageWritable isPageReadable
  simp only [checkPageAccess_iff, hbit]
  by_cases hlimit : 0xfffff00000000000 ≤ address
  · have hrefused : ¬ address < 0xfffff00000000000 := UInt64.not_lt.mpr hlimit
    simp [hrefused, hlimit]
  · have hbelow : address < 0xfffff00000000000 := UInt64.not_le.mp hlimit
    cases hleaf : (r.trail address).leaf with
    | none => simp
    | some d =>
      have hd := hlt d
      simp only [hbelow, hlimit, true_and, false_or, Option.some.injEq, forall_eq', exists_eq_left',
        Bool.forall_bool, if_true, Bool.false_eq_true, if_false, false_implies,
        true_implies, and_true]
      cases accessFlag d
      · simp; omega
      · simp; omega

/-! ### A descriptor that is read-only for all -/

/-- One 1 GB block: normal memory, accessed, with the given `AP`. -/
def oneBlock (ap : UInt64) : Regime where
  memory := holding [(0x1000, 0x2003), (0x2000, ap <<< 6 ||| 0x40D)]
  ttbr0 := 0x1000
  tcr := 16

/-- A block with `AP` = 3 is answered to be writable. -/
theorem read_only_block_writable : ¬ ∀ (r : Regime) (address : UInt64),
    PermissionsExact r address := by
  intro hall
  have allowed := (checkPageAccess_iff (oneBlock 3) 0x2345 true).mpr
    ⟨by decide, 0x4CD, by decide +kernel, by decide, by decide⟩
  obtain ⟨-, hwrite⟩ := (hall (oneBlock 3) 0x2345).1 0x4CD (by decide +kernel) true allowed
  exact absurd (hwrite rfl) (by decide)

/-! ## The range of the regime -/

/-- The level at which a walk starts when it translates `64 - T0SZ` bits, the lowest twelve in the
page and nine on each level. -/
def architecturalLevel (t0sz : Nat) : Int := 4 - ((64 - t0sz - 12 + 8) / 9 : Nat)

/-- The entries of a table: `EntryCount` in the first, and `TT_ENTRY_COUNT` in the others. -/
def Regime.tableSize (r : Regime) (level : Int) : Nat :=
  if level = r.tableLevel then r.entryCount.toNat else ttEntryCount.toNat

/-- The descriptors that `CheckPageAccess` reads. -/
def Regime.descriptorsRead (r : Regime) (address : UInt64) : List (Visit Int UInt64 Nat UInt64) :=
  if 0xfffff00000000000 ≤ address then [] else (r.trail address).visits

/-- The walk stays inside the regime: positive answers are about addresses in range, every
descriptor read is an entry of its table, and the levels run from the architectural first one to
3. -/
structure InsideRegime (r : Regime) (address : UInt64) (write : Bool) : Prop where
  in_range : ((checkPageAccess r address write).run []).1 = true → address.toNat < 2 ^ (64 - r.t0sz)
  reads : ((checkPageAccess r address write).run []).2 = (r.descriptorsRead address).map Visit.place
  in_table : ∀ v ∈ r.descriptorsRead address,
    ∃ i < r.tableSize v.level, v.place = v.table.toNat + 8 * i
  first_level : r.tableLevel = architecturalLevel r.t0sz
  last_level : ∀ v ∈ r.descriptorsRead address, v.level ≤ 3

/-- The index a level takes out of the address. -/
def levelIndex (level : Int) (address : UInt64) : Nat :=
  address.toNat / 2 ^ addressOffsetAtLevel level % 2 ^ 9

theorem toNat_levelIndex {level : Int} (h₀ : 0 ≤ level) (address : UInt64) :
    ((address >>> (addressOffsetAtLevel level).toUInt64) &&& 0x1FF).toNat =
      levelIndex level address := by
  have hoffset : addressOffsetAtLevel level < 64 := by unfold addressOffsetAtLevel; omega
  have hshift : (addressOffsetAtLevel level).toUInt64.toNat % 64 = addressOffsetAtLevel level := by
    rw [Nat.toUInt64_eq, UInt64.toNat_ofNat']
    omega
  rw [toNat_and_field _ 0x1FF 9 0 (by decide), UInt64.toNat_shiftRight, hshift,
    Nat.shiftRight_eq_div_pow, levelIndex, Nat.pow_zero, Nat.div_one, Nat.mul_one]

theorem toNat_entryForAddress {level : Int} (h₀ : 0 ≤ level) {table : UInt64}
    (htable : table.toNat < 2 ^ 48) (address : UInt64) :
    (entryForAddress table level address).toNat = table.toNat + 8 * levelIndex level address := by
  have hlt : levelIndex level address < 2 ^ 9 := Nat.mod_lt _ (by decide)
  have height : (8 : UInt64).toNat = 8 := rfl
  rw [entryForAddress, UInt64.toNat_add, UInt64.toNat_mul, toNat_levelIndex h₀, height]
  omega

theorem table_lt {v : Visit Int UInt64 Nat UInt64} (hv : v ∈ (r.trail address).visits) :
    v.table.toNat < 2 ^ 48 := by
  refine forall_table (P := fun t => t.toNat < 2 ^ 48) ?_ ?_ hv
  · rw [Regime.ttbr0BaseAddress, toNat_and_field _ _ 48 0 (by decide)]
    omega
  · intro level e table' hd
    have htable : table' = e &&& addressMaskDescriptionTable := by
      simp only [scheme, decodeDescriptor] at hd
      split at hd
      · exact (Outcome.next.inj hd).symm
      · split at hd <;> cases hd
    rw [htable, toNat_and_field _ _ 36 12 (by decide)]
    omega

/-- The bits of an address that the tables from `level` on are indexed with. -/
def reach (level : Int) : Nat := addressOffsetAtLevel level + 9

section Legal
variable (hmin : 16 ≤ r.t0sz) (hmax : r.t0sz ≤ 39)
include hmin hmax

theorem tableLevel_eq : r.tableLevel = architecturalLevel r.t0sz := by
  rw [Regime.tableLevel, if_neg (by omega), architecturalLevel]
  omega

theorem tableLevel_bounds : 0 ≤ r.tableLevel ∧ r.tableLevel ≤ 2 := by
  rw [Regime.tableLevel, if_neg (by omega)]
  omega

/-- The first table holds what is left of the address above the later ones. -/
theorem entryCount_eq :
    r.entryCount.toNat * 2 ^ addressOffsetAtLevel r.tableLevel = 2 ^ (64 - r.t0sz) := by
  unfold Regime.entryCount Regime.tableLevel
  generalize r.t0sz = t at *
  interval_cases t <;> rfl

theorem range_le_reach : 64 - r.t0sz ≤ reach r.tableLevel := by
  rw [reach, addressOffsetAtLevel, Regime.tableLevel, if_neg (by omega)]
  omega

/-- The first index is inside its table when no bit is set between the range and the reach. -/
theorem levelIndex_lt_iff (address : UInt64) :
    levelIndex r.tableLevel address < r.entryCount.toNat ↔
      address.toNat % 2 ^ reach r.tableLevel < 2 ^ (64 - r.t0sz) := by
  rw [← entryCount_eq hmin hmax, levelIndex, ← Nat.div_lt_iff_lt_mul (Nat.two_pow_pos _), reach,
    Nat.pow_add, Nat.mod_mul_right_div_self]

theorem mem_levels {v : Visit Int UInt64 Nat UInt64} (hv : v ∈ (r.trail address).visits) :
    r.tableLevel ≤ v.level ∧ v.level ≤ 3 := by
  have hlevel := (tableLevel_bounds hmin hmax).2
  exact mem_levelsFrom (mem_walk hv).1 (by omega)

theorem place_eq {v : Visit Int UInt64 Nat UInt64} (hv : v ∈ (r.trail address).visits) :
    v.place = v.table.toNat + 8 * levelIndex v.level address := by
  have hlevel := (tableLevel_bounds hmin hmax).1
  have hfrom := (mem_levels hmin hmax hv).1
  obtain ⟨-, hplace, -⟩ := mem_walk hv
  rw [← toNat_entryForAddress (by omega) (table_lt hv)]
  exact (Option.some.inj hplace).symm

/-- Every descriptor is in its table if the first one is. -/
theorem in_table_iff (address : UInt64) :
    (∀ v ∈ (r.trail address).visits, ∃ i < r.tableSize v.level, v.place = v.table.toNat + 8 * i) ↔
      address.toNat % 2 ^ reach r.tableLevel < 2 ^ (64 - r.t0sz) := by
  rw [← levelIndex_lt_iff hmin hmax]
  constructor
  · intro hall
    obtain ⟨rest, hrest⟩ := levelsFrom_cons r.tableLevel
    obtain ⟨first, hfirst, hlevel⟩ : ∃ v ∈ (r.trail address).visits, v.level = r.tableLevel := by
      rw [Regime.trail, hrest]
      exact ⟨_, head_mem_walk (load64 r.memory) rest rfl, rfl⟩
    obtain ⟨i, hi, hplace⟩ := hall first hfirst
    rw [place_eq hmin hmax hfirst] at hplace
    rw [Regime.tableSize, if_pos hlevel] at hi
    rw [hlevel] at hplace
    omega
  · intro hindex v hv
    refine ⟨_, ?_, place_eq hmin hmax hv⟩
    by_cases hfirst : v.level = r.tableLevel
    · rw [Regime.tableSize, if_pos hfirst, hfirst]
      exact hindex
    · rw [Regime.tableSize, if_neg hfirst]
      exact Nat.mod_lt _ (by decide)

/-- The address with the bits above the range taken off. -/
def inRange (r : Regime) (address : UInt64) : UInt64 := (address.toNat % 2 ^ (64 - r.t0sz)).toUInt64

/-- An address without bits between the range and the reach walks like the one in range. -/
theorem trail_inRange (h : address.toNat % 2 ^ reach r.tableLevel < 2 ^ (64 - r.t0sz)) :
    r.trail (inRange r address) = r.trail address := by
  have hreach := range_le_reach hmin hmax
  have hlevels := tableLevel_bounds hmin hmax
  have hrange : (inRange r address).toNat = address.toNat % 2 ^ reach r.tableLevel := by
    have hlt := address.toNat_lt
    have hle := Nat.mod_le address.toNat (2 ^ (64 - r.t0sz))
    rw [inRange, Nat.toUInt64_eq, UInt64.toNat_ofNat', Nat.mod_eq_of_lt (by omega),
      ← Nat.mod_mod_of_dvd address.toNat (pow_dvd_pow 2 hreach), Nat.mod_eq_of_lt h]
  have hdecode : (scheme (inRange r address)).decode = (scheme address).decode := rfl
  refine walk_congr hdecode (fun level hl => ?_) _
  obtain ⟨hfrom, hto⟩ := mem_levelsFrom hl (by omega)
  have hsub : addressOffsetAtLevel level + 9 ≤ reach r.tableLevel := by
    unfold reach addressOffsetAtLevel
    omega
  -- a level looks at nine bits, all of them below the reach
  have hindex : levelIndex level (inRange r address) = levelIndex level address := by
    have hcut : ∀ n : Nat, n / 2 ^ addressOffsetAtLevel level % 2 ^ 9 =
        n % 2 ^ (addressOffsetAtLevel level + 9) / 2 ^ addressOffsetAtLevel level := by
      intro n
      rw [Nat.pow_add, Nat.mod_mul_right_div_self]
    rw [levelIndex, levelIndex, hcut, hcut, hrange, Nat.mod_mod_of_dvd _ (pow_dvd_pow 2 hsub)]
  have hentry : ∀ table, entryForAddress table level (inRange r address) =
      entryForAddress table level address := by
    intro table
    unfold entryForAddress
    rw [← UInt64.toNat_inj.mp ((toNat_levelIndex (by omega) (inRange r address)).trans
      (hindex.trans (toNat_levelIndex (by omega) address).symm))]
  funext table
  exact congrArg (fun p => some p.toNat) (hentry table)

end Legal

/-- The tables map the address to normal memory that the code takes for accessible. -/
def Accessible (r : Regime) (address : UInt64) (write : Bool) : Prop :=
  ∃ d, (r.trail address).leaf = some d ∧
    memoryIndex d ≠ 0 ∧ if write then accessPermissions d ≠ 2 else accessFlag d = true

/-- **The walk stays inside the regime exactly for the addresses in range, the refused ones, and
those whose index fits the first table by luck and that meet nothing accessible there.** -/
theorem checkPageAccess_inside_iff (r : Regime) (address : UInt64) (write : Bool)
    (hmin : 16 ≤ r.t0sz) (hmax : r.t0sz ≤ 39) :
    InsideRegime r address write ↔
      0xfffff00000000000 ≤ address ∨ address.toNat < 2 ^ (64 - r.t0sz) ∨
      (address.toNat % 2 ^ reach r.tableLevel < 2 ^ (64 - r.t0sz) ∧
        ¬ Accessible r (inRange r address) write) := by
  have hfirst := tableLevel_eq hmin hmax
  by_cases hlimit : 0xfffff00000000000 ≤ address
  · refine iff_of_true ⟨?_, ?_, ?_, hfirst, ?_⟩ (Or.inl hlimit)
    · intro h
      rw [checkPageAccess_run, if_pos hlimit] at h
      exact absurd h Bool.false_ne_true
    · rw [checkPageAccess_run, if_pos hlimit, Regime.descriptorsRead, if_pos hlimit, List.map_nil]
    · simp [Regime.descriptorsRead, hlimit]
    · simp [Regime.descriptorsRead, hlimit]
  · have hread : r.descriptorsRead address = (r.trail address).visits := if_neg hlimit
    have hlog : ((checkPageAccess r address write).run []).2 = (r.trail address).places := by
      rw [checkPageAccess_run, if_neg hlimit, List.nil_append]
    have hanswer : ((checkPageAccess r address write).run []).1 = true ↔
        Accessible r address write :=
      (checkPageAccess_iff r address write).trans (and_iff_right (UInt64.not_le.mp hlimit))
    -- The first index fits its table exactly if the address does modulo what the levels reach.
    have htable := in_table_iff hmin hmax address
    constructor
    · intro inside
      refine Or.inr ?_
      have hfits := htable.mp (hread ▸ inside.in_table)
      by_cases hrange : address.toNat < 2 ^ (64 - r.t0sz)
      · exact Or.inl hrange
      · refine Or.inr ⟨hfits, fun haccess => hrange (inside.in_range (hanswer.mpr ?_))⟩
        rwa [Accessible, trail_inRange hmin hmax hfits] at haccess
    · intro hcases
      have hfits : address.toNat % 2 ^ reach r.tableLevel < 2 ^ (64 - r.t0sz) := by
        rcases hcases with h | h | h
        · exact absurd h hlimit
        · exact Nat.lt_of_le_of_lt (Nat.mod_le _ _) h
        · exact h.1
      refine ⟨fun htrue => ?_, by rw [hlog, hread, Trail.places], ?_, hfirst, ?_⟩
      · have haccess := hanswer.mp htrue
        rcases hcases with h | h | h
        · exact absurd h hlimit
        · exact h
        · refine absurd ?_ h.2
          rwa [Accessible, trail_inRange hmin hmax hfits]
      · rw [hread]
        exact htable.mpr hfits
      · rw [hread]
        exact fun v hv => (mem_levels hmin hmax hv).2

/-- A 39-bit regime with one block in it. -/
def shortRange : Regime where
  memory := holding [(0x1000, 0x44D)]
  ttbr0 := 0x1000
  tcr := 25

/-- The first address behind the range is answered to be readable. -/
theorem address_behind_range_readable :
    ¬ ∀ (r : Regime) (address : UInt64) (write : Bool), 16 ≤ r.t0sz → r.t0sz ≤ 39 →
      InsideRegime r address write := by
  intro hall
  have inside := hall shortRange 0x8000000000 false (by decide) (by decide)
  have readable := (checkPageAccess_iff shortRange 0x8000000000 false).mpr
    ⟨by decide, 0x44D, by decide +kernel, by decide, by decide⟩
  exact absurd (inside.in_range readable) (by decide)

/-- The theorem at an address in range. -/
theorem checkPageAccess_inside_iff_block : InsideRegime shortRange 0x2345 true :=
  (checkPageAccess_inside_iff shortRange 0x2345 true (by decide) (by decide)).mpr
    (Or.inr (Or.inl (by decide)))

end UefiDebugger.AArch64
