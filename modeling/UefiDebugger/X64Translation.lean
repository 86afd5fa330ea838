import Mathlib.Data.List.TakeWhile
import UefiDebugger.X64PageWalk

/-!
# What the X64 page walk says about the hardware

The code masks a table's address with bits 35:12 and adds the index of the two upper levels as a
number of bytes, so it looks where the processor looks only in tables below 64 GB and only through
the first entry of a `PML5` or `PML4` table.  `isPageReadable_walks_like_hardware_iff` says exactly
when its answer and its reads are the processor's.

Its answer about writing is the `ReadWrite` bit of the leaf.  A processor wants that bit on every
level; `isPageWritable_permitted_iff` says when the difference does not show.
-/
namespace UefiDebugger.X64
open StateEffect TableWalk WordFields

variable {s : Paging} {address : UInt64}

/-! ## Where the code looks -/

/-- Addresses that the processor translates at all. -/
def Canonical (s : Paging) (address : UInt64) : Prop :=
  let bits := if s.la57 then 56 else 47
  address.toNat < 2 ^ bits ∨ 2 ^ 64 - 2 ^ bits ≤ address.toNat

instance : Decidable (Canonical s address) := inferInstanceAs (Decidable (_ ∨ _))

/-- An entry the code does not look at: its pointer would be `NULL`, or `CR3` has no base. -/
def Skipped (s : Paging) (address : UInt64) (v : Visit Level UInt64 Nat UInt64) : Prop :=
  codeBase v.table = 0 ∧ (s.levels.head? = some v.level ∨ v.level.index address = 0)

instance (v : Visit Level UInt64 Nat UInt64) : Decidable (Skipped s address v) :=
  inferInstanceAs (Decidable (_ ∧ _))

/-- An entry the code finds: its table is below 64 GB, and on the two upper levels it is the
first. -/
def Reachable (address : UInt64) (v : Visit Level UInt64 Nat UInt64) : Prop :=
  tableBase v.table < 2 ^ 36 ∧ (v.level = .pml5 ∨ v.level = .pml4 → v.level.index address = 0)

instance (v : Visit Level UInt64 Nat UInt64) : Decidable (Reachable address v) :=
  inferInstanceAs (Decidable (_ ∧ _))

theorem refuses_iff {v : Visit Level UInt64 Nat UInt64} :
    s.refuses address v.level v.table = true ↔ Skipped s address v := by
  unfold Paging.refuses Skipped
  by_cases hroot : s.levels.head? = some v.level
  · rw [if_pos hroot, beq_iff_eq, ← UInt64.toNat_inj, toNat_addressBits, UInt64.toNat_zero]
    simp [hroot]
  · have hstride : 0 < v.level.stride := by cases v.level <;> decide
    rw [if_neg hroot, beq_iff_eq, ← UInt64.toNat_inj, toNat_pointer, UInt64.toNat_zero,
      Nat.add_eq_zero_iff, Nat.mul_eq_zero]
    have : v.level.stride ≠ 0 := by omega
    simp [hroot, this]

theorem codeBase_eq_iff (e : UInt64) : codeBase e = tableBase e ↔ tableBase e < 2 ^ 36 := by
  unfold codeBase tableBase
  omega

/-- The code's pointer is the processor's entry for the entries it can reach, and for no others. -/
theorem pointer_eq_iff (l : Level) (address table : UInt64) :
    (l.pointer address table).toNat = tableBase table + 8 * l.index address ↔
      tableBase table < 2 ^ 36 ∧ (l = .pml5 ∨ l = .pml4 → l.index address = 0) := by
  rw [toNat_pointer, ← codeBase_eq_iff]
  have hi := l.index_lt address
  -- bases are multiples of the page size, and no index reaches past a page
  have hcode : codeBase table % 2 ^ 12 = 0 := Nat.mul_mod_left _ _
  have htable : tableBase table % 2 ^ 12 = 0 := Nat.mul_mod_left _ _
  cases l with
  | pml5 => simp [Level.stride]; omega
  | pml4 => simp [Level.stride]; omega
  | pdpt => simp [Level.stride]
  | pd => simp [Level.stride]
  | pt => simp [Level.stride]

/-! ## Reading -/

theorem found_iff_answer (t : Trail Level UInt64 Nat UInt64) :
    (answer t == .readOnly || answer t == .readWrite) = t.found := by
  unfold answer Trail.found
  cases t.leaf with
  | none => rfl
  | some e => cases hw : readWrite e <;> simp [leafIs, hw]

theorem isPageReadable_run (h : ¬ Excluded address) (log : List Nat) :
    (isPageReadable s address).run log =
      ((walk (codeScheme s address) s.entryAt s.levels s.cr3).found,
        log ++ (walk (codeScheme s address) s.entryAt s.levels s.cr3).places) := by
  rw [isPageReadable, run_bind, getPageIs_walks h, run_pure, found_iff_answer]

/-- The answer is whether the processor finds a translation, and every entry is read where the
processor reads it. -/
def WalksLikeHardware (s : Paging) (address : UInt64) : Prop :=
  ((isPageReadable s address).run []).1 = (hardwareWalk s address).found ∧
  ((isPageReadable s address).run []).2 <+: (hardwareWalk s address).places

instance : Decidable (WalksLikeHardware s address) := inferInstanceAs (Decidable (_ ∧ _))

/-- The processor's visits in front of the first one the code skips. -/
def visitsBeforeSkip (s : Paging) (address : UInt64) : List (Visit Level UInt64 Nat UInt64) :=
  (hardwareWalk s address).visits.takeWhile fun v => ¬ Skipped s address v

theorem accepted_eq : accepted (codeScheme s address) (hardwareWalk s address).visits =
    visitsBeforeSkip s address := by
  unfold accepted visitsBeforeSkip
  congr 1
  funext v
  by_cases hv : Skipped s address v
  · simp [codeScheme, refuses_iff.mpr hv, hv]
  · simp [codeScheme, mt refuses_iff.mp hv, hv]

/-- **The walk is the processor's exactly when it stays within reach.**  Up to the first entry it
skips, the code reaches every entry the processor visits; and if it skips one, the processor finds
no translation. -/
theorem isPageReadable_walks_like_hardware_iff (s : Paging) (address : UInt64)
    (h : ¬ Excluded address) :
    WalksLikeHardware s address ↔
      (∀ v ∈ visitsBeforeSkip s address, Reachable address v) ∧
      (visitsBeforeSkip s address = (hardwareWalk s address).visits ∨
        (hardwareWalk s address).found = false) := by
  have hfollows : WalksLikeHardware s address ↔
      Follows (walk (codeScheme s address) s.entryAt s.levels s.cr3) (hardwareWalk s address) := by
    unfold WalksLikeHardware Follows
    rw [isPageReadable_run h, List.nil_append]
  have hdecode : (codeScheme s address).decode = (hardwareScheme address).decode := rfl
  have htotal : ∀ level table, ((hardwareScheme address).place level table).isSome := fun _ _ => rfl
  have hagree : WalksLikeHardware s address ↔ _ :=
    (hfollows.trans (walk_agrees_iff hdecode)).trans (agree_iff_visits hdecode htotal)
  rw [← hardwareWalk, accepted_eq] at hagree
  rw [hagree]
  refine and_congr_left fun _ => forall₂_congr fun v hv => ?_
  have hvisit : v ∈ (hardwareWalk s address).visits := (List.takeWhile_prefix _).mem hv
  have hskip : ¬ Skipped s address v := by simpa using List.mem_takeWhile_imp hv
  obtain ⟨-, hplace, -⟩ := mem_walk hvisit
  have hcode : (codeScheme s address).place v.level v.table =
      some (v.level.pointer address v.table).toNat := if_neg (mt refuses_iff.mp hskip)
  rw [hcode, ← hplace, Reachable, ← pointer_eq_iff]
  exact Option.some_inj

/-! ### An address above the first 512 GB -/

/-- The 1 GB page at 512 GB is mapped, through the second entry of the root table. -/
def secondRootEntry : Paging where
  memory := holding [(0x1008, 0x2003), (0x2000, 0x8000000083)]
  cr3 := 0x1000
  cr4 := 0

/-- The processor translates the address; the code looks at `CR3 + 1` and finds nothing. -/
theorem second_root_entry_missed :
    ¬ ∀ (s : Paging) (address : UInt64), Canonical s address → ¬ Excluded address →
      WalksLikeHardware s address := by
  intro hall
  have walks := hall secondRootEntry 0x8000000000 (by decide) (by decide)
  exact absurd walks (by decide +kernel)

/-- The theorem at an address the walk reaches. -/
theorem isPageReadable_walks_like_hardware_iff_first :
    WalksLikeHardware ⟨holding [(0x1000, 0x2003), (0x2000, 0x83)], 0x1000, 0⟩ 0x2345 :=
  (isPageReadable_walks_like_hardware_iff _ _ (by decide)).mpr
    ⟨by decide +kernel, Or.inl (by decide +kernel)⟩

/-! ## Writing -/

/-- Bit 1 of an entry, which the processor wants on every level for a supervisor write with `CR0.WP`
set. -/
def writable (e : UInt64) : Bool := e.toNat.testBit 1

theorem readWrite_eq (e : UInt64) : readWrite e = writable e := and_ne_zero_eq_testBit e 2 1 rfl

/-- A positive check of the code promises that every entry used in the translation allows the
write. -/
def WritePermitted (s : Paging) (address : UInt64) : Prop :=
  ((isPageWritable s address).run []).1 = true →
    (hardwareWalk s address).found = true ∧ ∀ v ∈ (hardwareWalk s address).visits,
    writable v.entry = true

instance : Decidable (WritePermitted s address) := inferInstanceAs (Decidable (_ → _))

/-- 4-level tables, of which those that translate the address are below 64 GB. -/
structure LowTables (s : Paging) (address : UInt64) : Prop where
  four_levels : s.la57 = false
  below : ∀ v ∈ (hardwareWalk s address).visits, tableBase v.table < 2 ^ 36

instance : Decidable (LowTables s address) :=
  decidable_of_iff (_ ∧ _) ⟨fun h => ⟨h.1, h.2⟩, fun h => ⟨h.1, h.2⟩⟩

/-- In low tables and the first 512 GB the code looks where the processor looks, or does not
look. -/
theorem codeScheme_place (hlow : LowTables s address) (haddress : address.toNat < 2 ^ 39)
    {v : Visit Level UInt64 Nat UInt64} (hv : v ∈ (hardwareWalk s address).visits) :
    (codeScheme s address).place v.level v.table =
      if Skipped s address v then none else some v.place := by
  obtain ⟨hlevel, hplace, -⟩ := mem_walk hv
  by_cases hskip : Skipped s address v
  · rw [if_pos hskip]
    exact if_pos (refuses_iff.mpr hskip)
  · rw [if_neg hskip, ← hplace]
    have hindex : v.level = .pml5 ∨ v.level = .pml4 → v.level.index address = 0 := by
      rintro (h | h)
      · simp [Paging.levels, hlow.four_levels, h] at hlevel
      · rw [h]
        show address.toNat / 2 ^ 39 % 512 = 0
        rw [Nat.div_eq_of_lt haddress]
    refine (if_neg (mt refuses_iff.mp hskip)).trans (congrArg some ?_)
    exact (pointer_eq_iff _ _ _).mpr ⟨hlow.below v hv, hindex⟩

/-- What the code finds there: the processor's leaf, unless it skips an entry on the way. -/
theorem leaf_codeWalk (hlow : LowTables s address) (haddress : address.toNat < 2 ^ 39) :
    (walk (codeScheme s address) s.entryAt s.levels s.cr3).leaf =
      if ∀ v ∈ (hardwareWalk s address).visits, ¬ Skipped s address v
      then (hardwareWalk s address).leaf else none := by
  have hplaces : ∀ v ∈ (hardwareWalk s address).visits,
      (codeScheme s address).place v.level v.table = none ∨
        (codeScheme s address).place v.level v.table = some v.place := by
    intro v hv
    rw [codeScheme_place hlow haddress hv]
    by_cases hskip : Skipped s address v
    · exact Or.inl (if_pos hskip)
    · exact Or.inr (if_neg hskip)
  have hdecode : (codeScheme s address).decode = (hardwareScheme address).decode := rfl
  rw [walk_eq_accepted hdecode hplaces fun _ _ => rfl, ← hardwareWalk]
  refine if_congr (forall₂_congr fun v hv => ?_) rfl rfl
  rw [codeScheme_place hlow haddress hv]
  by_cases hskip : Skipped s address v
  · simp [hskip]
  · simp [hskip]

theorem answer_readWrite (t : Trail Level UInt64 Nat UInt64) :
    (answer t == .readWrite) = true ↔ ∃ e, t.leaf = some e ∧ writable e = true := by
  unfold answer
  cases t.leaf with
  | none => simp
  | some e =>
    cases hw : writable e <;> simp [leafIs, readWrite_eq, hw]

/-- **The answer about writing holds exactly when no upper entry takes the permission away.**  In
4-level tables below 64 GB and the first 512 GB: nothing is mapped, or the code skips an entry on
the way, or the leaf is read-only itself, or every entry on the way is writable. -/
theorem isPageWritable_permitted_iff (s : Paging) (address : UInt64) (hlow : LowTables s address)
    (haddress : address.toNat < 2 ^ 39) (h : ¬ Excluded address) :
    WritePermitted s address ↔
      (hardwareWalk s address).found = false ∨
      (∃ v ∈ (hardwareWalk s address).visits, Skipped s address v) ∨
      (∃ e, (hardwareWalk s address).leaf = some e ∧ writable e = false) ∨
      ∀ v ∈ (hardwareWalk s address).visits, writable v.entry = true := by
  have hanswer : ((isPageWritable s address).run []).1 = true ↔
      (∀ v ∈ (hardwareWalk s address).visits, ¬ Skipped s address v) ∧
        ∃ e, (hardwareWalk s address).leaf = some e ∧ writable e = true := by
    have hrun : ((isPageWritable s address).run []).1 =
        (answer (walk (codeScheme s address) s.entryAt s.levels s.cr3) == .readWrite) := by
      rw [isPageWritable, run_bind, getPageIs_walks h, run_pure]
    rw [hrun, answer_readWrite, leaf_codeWalk hlow haddress]
    by_cases hskip : ∀ v ∈ (hardwareWalk s address).visits, ¬ Skipped s address v
    · rw [if_pos hskip]
      exact ⟨fun he => ⟨hskip, he⟩, fun he => he.2⟩
    · rw [if_neg hskip]
      exact iff_of_false (fun ⟨_, he, _⟩ => nomatch he) fun he => hskip he.1
  -- The code answers by the leaf alone, the processor by all entries on the way.
  rw [WritePermitted, hanswer]
  constructor
  · intro hpermits
    by_cases hskip : ∃ v ∈ (hardwareWalk s address).visits, Skipped s address v
    · exact Or.inr (Or.inl hskip)
    · have hnone : ∀ v ∈ (hardwareWalk s address).visits, ¬ Skipped s address v :=
        fun v hv hs => hskip ⟨v, hv, hs⟩
      cases hleaf : (hardwareWalk s address).leaf with
      | none => exact Or.inl (by simp [Trail.found, hleaf])
      | some e =>
        cases hw : writable e with
        | false => exact Or.inr (Or.inr (Or.inl ⟨e, rfl, hw⟩))
        | true => exact Or.inr (Or.inr (Or.inr (hpermits ⟨hnone, e, hleaf, hw⟩).2))
  · rintro hcases ⟨hnone, e, hleaf, hw⟩
    have hfound : (hardwareWalk s address).found = true := by simp [Trail.found, hleaf]
    rcases hcases with habsent | ⟨v, hv, hskip⟩ | ⟨e', hleaf', hw'⟩ | hall
    · rw [habsent] at hfound
      exact absurd hfound Bool.false_ne_true
    · exact absurd hskip (hnone v hv)
    · rw [hleaf] at hleaf'
      cases hleaf'
      rw [hw] at hw'
      exact absurd hw' (nomatch ·)
    · exact ⟨hfound, hall⟩

/-! ### A read-only directory entry above a writable page -/

/-- A writable 1 GB page under a root entry without the `ReadWrite` bit. -/
def readOnlyRoot : Paging where
  memory := holding [(0x1000, 0x2001), (0x2000, 0x83)]
  cr3 := 0x1000
  cr4 := 0

/-- The code answers that the page may be written; the processor would fault. -/
theorem read_only_root_missed :
    ¬ ∀ (s : Paging) (address : UInt64), LowTables s address → address.toNat < 2 ^ 39 →
      ¬ Excluded address → WritePermitted s address := by
  intro hall
  have permitted := hall readOnlyRoot 0x2345 (by decide +kernel) (by decide) (by decide)
  exact absurd permitted (by decide +kernel)

/-- The theorem at a page that is writable on every level. -/
theorem isPageWritable_permitted_iff_writable :
    WritePermitted ⟨holding [(0x1000, 0x2003), (0x2000, 0x83)], 0x1000, 0⟩ 0x2345 :=
  (isPageWritable_permitted_iff _ _ (by decide +kernel) (by decide) (by decide)).mpr
    (Or.inr (Or.inr (Or.inr (by decide +kernel))))

end UefiDebugger.X64
