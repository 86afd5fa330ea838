import UefiDebugger.StateEffect
import UefiDebugger.TableWalk
import UefiDebugger.WordFields

/-!
# The AArch64 page walk

`CheckPageAccess` follows the tables that `TTBR0` names, from the level that `T0SZ` selects, until
`ParsePageTableLevel` finds a block or page descriptor, and looks at the descriptor's attributes.
As for X64 the places read are recorded, and `parsePageTableLevel_run` restates the recursion as a
walk.
-/
namespace UefiDebugger.AArch64
open StateEffect TableWalk WordFields

/-! ## The code -/

/-- What the walk reads: memory, and the registers of the translation regime. -/
structure Regime where
  memory : Nat → UInt8
  ttbr0 : UInt64
  tcr : UInt64

/-- A computation with the places of the descriptors it has read. -/
abbrev Walking := StateM (List Nat)

/-- Dereferences a pointer to a descriptor. -/
def Regime.load (r : Regime) (pointer : UInt64) : Walking UInt64 := do
  modify (· ++ [pointer.toNat])
  pure (load64 r.memory pointer.toNat)

/-- `TT_ADDRESS_OFFSET_AT_LEVEL`. -/
def addressOffsetAtLevel (level : Int) : Nat := (12 + (3 - level) * 9).toNat

/-- `TT_GET_ENTRY_FOR_ADDRESS`. -/
def entryForAddress (table : UInt64) (level : Int) (address : UInt64) : UInt64 :=
  table + ((address >>> (addressOffsetAtLevel level).toUInt64) &&& 0x1FF) * 8

/-- `TT_LAST_BLOCK_ADDRESS`. -/
def lastBlockAddress (table entryCount : UInt64) : UInt64 := table + (entryCount - 1) * 8

/-- `TT_ENTRY_COUNT`. -/
def ttEntryCount : UInt64 := 512

/-- `TT_ADDRESS_MASK_DESCRIPTION_TABLE`. -/
def addressMaskDescriptionTable : UInt64 := (0xFFFFFFFFF : UInt64) <<< 12

/-- `TT_ATTRIBUTES_MASK`. -/
def ttAttributesMask : UInt64 := (0xFFF : UInt64) <<< 52 ||| (0x3FF : UInt64) <<< 2

/-- `TT_TYPE_BLOCK_ENTRY`, or `TT_TYPE_BLOCK_ENTRY_LEVEL3`. -/
def blockEntryType (level : Int) : UInt64 := if level ≠ 3 then 1 else 3

/-- `ParsePageTableLevel`, with the attributes where it returns `TRUE`.  `LastBlockEntry` is passed
on from level to level, and nothing looks at it. -/
def parsePageTableLevel (r : Regime) (translationTable : UInt64) (tableLevel : Int)
    (_lastBlockEntry : UInt64) (address : UInt64) : Walking (Option UInt64) := do
  let blockEntry ← r.load (entryForAddress translationTable tableLevel address)
  let entryType := blockEntry &&& 3
  if _h : tableLevel < 3 ∧ entryType = 3 then
    let nextTranslationTable := blockEntry &&& addressMaskDescriptionTable
    parsePageTableLevel r nextTranslationTable (tableLevel + 1)
      (lastBlockAddress nextTranslationTable ttEntryCount) address
  else if entryType = blockEntryType tableLevel then
    pure (some (blockEntry &&& ttAttributesMask))
  else
    pure none
termination_by (3 - tableLevel).toNat
decreasing_by omega

/-- `DebugGetTTBR0BaseAddress`. -/
def Regime.ttbr0BaseAddress (r : Regime) : UInt64 := r.ttbr0 &&& 0xFFFFFFFFFFFF

/-- `T0SZ`, of a `TCR` masked with `TCR_T0SZ_MASK`. -/
def Regime.t0sz (r : Regime) : Nat := (r.tcr &&& 0x3F).toNat

/-- The `TableLevel` that `CheckPageAccess` starts at. -/
def Regime.tableLevel (r : Regime) : Int := if r.t0sz < 16 then -1 else ((r.t0sz : Int) - 16) / 9

/-- `EntryCount`, the size of the first table. -/
def Regime.entryCount (r : Regime) : UInt64 :=
  ttEntryCount >>> ((((r.t0sz : Int) - 16).tmod 9).toNat).toUInt64

/-- `TT_ATTR_INDX_MASK`. -/
def ttAttrIndxMask : UInt64 := (0x7 : UInt64) <<< 2

/-- `TT_ATTR_INDX_DEVICE_MEMORY`. -/
def ttAttrIndxDeviceMemory : UInt64 := (0x0 : UInt64) <<< 2

/-- `TT_AP_MASK`. -/
def ttApMask : UInt64 := (0x3 : UInt64) <<< 6

/-- `TT_AP_RW_RW`. -/
def ttApRwRw : UInt64 := (0x1 : UInt64) <<< 6

/-- `TT_AF`. -/
def ttAf : UInt64 := 0x400

/-- What `CheckPageAccess` makes of the attributes. -/
def attributesAllow (attributes : UInt64) (write : Bool) : Bool :=
  if attributes &&& ttAttrIndxMask = ttAttrIndxDeviceMemory then false
  else if write then (attributes &&& ttApRwRw != 0) || (attributes &&& ttApMask == 0)
  else attributes &&& ttAf != 0

/-- `CheckPageAccess`. -/
def checkPageAccess (r : Regime) (address : UInt64) (write : Bool) : Walking Bool :=
  if 0xfffff00000000000 ≤ address then pure false
  else do
    let result ← parsePageTableLevel r r.ttbr0BaseAddress r.tableLevel
      (lastBlockAddress r.ttbr0BaseAddress r.entryCount) address
    match result with
    | none => pure false
    | some attributes => pure (attributesAllow attributes write)

/-- `IsPageReadable`. -/
def isPageReadable (r : Regime) (address : UInt64) : Walking Bool := checkPageAccess r address false

/-- `IsPageWritable`. -/
def isPageWritable (r : Regime) (address : UInt64) : Walking Bool := checkPageAccess r address true

/-! ## The walk, level by level -/

/-- What a descriptor says on a level. -/
def decodeDescriptor (level : Int) (e : UInt64) : Outcome UInt64 :=
  if level < 3 ∧ e &&& 3 = 3 then .next (e &&& addressMaskDescriptionTable)
  else if e &&& 3 = blockEntryType level then .leaf
  else .absent

/-- Where the descriptor of a level is. -/
def scheme (address : UInt64) : Scheme Int UInt64 Nat UInt64 where
  place level table := some (entryForAddress table level address).toNat
  decode := decodeDescriptor

/-- The levels from `level` to the last. -/
def levelsFrom (level : Int) : List Int :=
  (List.range ((3 - level).toNat + 1)).map fun i : Nat => level + (i : Int)

theorem levelsFrom_step {level : Int} (h : level < 3) :
    levelsFrom level = level :: levelsFrom (level + 1) := by
  obtain ⟨n, hn⟩ : ∃ n, (3 - level).toNat = n + 1 := ⟨(3 - level).toNat - 1, by omega⟩
  have hn' : (3 - (level + 1)).toNat = n := by omega
  rw [levelsFrom, levelsFrom, hn, hn', List.range_succ_eq_map, List.map_cons, List.map_map]
  refine congrArg₂ List.cons (by simp) (List.map_congr_left fun i _ => ?_)
  simp only [Function.comp_apply]
  omega

theorem levelsFrom_last {level : Int} (h : ¬ level < 3) : levelsFrom level = [level] := by
  have hz : (3 - level).toNat = 0 := by omega
  simp [levelsFrom, hz]

theorem mem_levelsFrom {level l : Int} (h : l ∈ levelsFrom level) (hlevel : level ≤ 3) :
    level ≤ l ∧ l ≤ 3 := by
  obtain ⟨i, hi, rfl⟩ := List.mem_map.mp h
  have := List.mem_range.mp hi
  omega

theorem load_run (r : Regime) (pointer : UInt64) (log : List Nat) :
    (r.load pointer).run log = (load64 r.memory pointer.toNat, log ++ [pointer.toNat]) := rfl

theorem levelsFrom_cons (level : Int) : ∃ rest, levelsFrom level = level :: rest := by
  by_cases h : level < 3
  · exact ⟨_, levelsFrom_step h⟩
  · exact ⟨[], levelsFrom_last h⟩

/-- One call: the descriptor is read, and decoded. -/
theorem parsePageTableLevel_step (r : Regime) (table : UInt64) (level : Int) (last address : UInt64)
    (log : List Nat) :
    (parsePageTableLevel r table level last address).run log =
      let p := (entryForAddress table level address).toNat
      match decodeDescriptor level (load64 r.memory p) with
      | .next table' => (parsePageTableLevel r table' (level + 1)
          (lastBlockAddress table' ttEntryCount) address).run (log ++ [p])
      | .leaf => (some (load64 r.memory p &&& ttAttributesMask), log ++ [p])
      | .absent => (none, log ++ [p]) := by
  rw [parsePageTableLevel, run_bind, load_run]
  simp only [decodeDescriptor]
  split
  · rfl
  · rw [run_ite]
    split <;> rfl

/-- `ParsePageTableLevel` is the walk from its level on, and returns the attributes of the leaf. -/
theorem parsePageTableLevel_run (r : Regime) (table : UInt64) (level : Int) (last address : UInt64)
    (log : List Nat) :
    (parsePageTableLevel r table level last address).run log =
      ((walk (scheme address) (load64 r.memory) (levelsFrom level) table).leaf.map
        (· &&& ttAttributesMask),
        log ++ (walk (scheme address) (load64 r.memory) (levelsFrom level) table).places) := by
  have hp : (scheme address).place level table = some (entryForAddress table level address).toNat :=
    rfl
  obtain ⟨rest, hrest⟩ := levelsFrom_cons level
  rw [parsePageTableLevel_step]
  cases hd : decodeDescriptor level
    (load64 r.memory (entryForAddress table level address).toNat) with
  | absent =>
    rw [hrest, walk_absent hp hd]
    simp [Trail.places, hd]
  | leaf =>
    rw [hrest, walk_leaf hp hd]
    simp [Trail.places, hd]
  | next table' =>
    have hlevel : level < 3 := by
      by_contra h
      simp only [decodeDescriptor, h, false_and, if_false] at hd
      split at hd <;> cases hd
    have ih := parsePageTableLevel_run r table' (level + 1) (lastBlockAddress table' ttEntryCount)
      address (log ++ [(entryForAddress table level address).toNat])
    rw [levelsFrom_step hlevel, walk_next hp hd]
    simp [hd, ih]
termination_by (3 - level).toNat

/-! ## What is read and answered -/

/-- The walk `CheckPageAccess` makes for the addresses it does not refuse. -/
def Regime.trail (r : Regime) (address : UInt64) : Trail Int UInt64 Nat UInt64 :=
  walk (scheme address) (load64 r.memory) (levelsFrom r.tableLevel) r.ttbr0BaseAddress

theorem checkPageAccess_run (r : Regime) (address : UInt64) (write : Bool) (log : List Nat) :
    (checkPageAccess r address write).run log =
      if 0xfffff00000000000 ≤ address then (false, log)
      else (match (r.trail address).leaf with
        | none => false
        | some e => attributesAllow (e &&& ttAttributesMask) write,
        log ++ (r.trail address).places) := by
  rw [checkPageAccess, run_ite]
  split
  · rfl
  · rw [run_bind, parsePageTableLevel_run]
    cases h : (r.trail address).leaf <;> rw [Regime.trail] at h <;> simp [h, Regime.trail]

end UefiDebugger.AArch64
