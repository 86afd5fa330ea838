import UefiDebugger.AArch64StageOne
import UefiDebugger.PageTransfer
import UefiDebugger.X64Translation

/-!
# Accesses without faults

`AccessMemory` without the Memory Attribute Protocol, put together with the page walks that
`IsPageReadable` and `IsPageWritable` make.  A check is made once for the bytes of a page, before
they are copied, and what is copied may itself be a paging structure; so each copy is looked at with
the memory it is made in.  `copiesOf` lists the copies of an access with that memory.

Where the tables are such that the code's walk is the processor's, no copy touches a byte whose
translation the processor does not find or whose permissions it would not grant
(`X64.accesses_do_not_fault`, `AArch64.accesses_are_permitted`).
-/
namespace UefiDebugger
open ByteString PatchedMemory StateEffect TableWalk

/-! ## The copies of an access -/

section Copies
variable {τ : Type} {A : Option (AttributeService τ)} {openPage : OpenPage τ} {Write : Bool}

/-- A copy, with the machine it is made in. -/
structure Copy (τ : Type) where
  machine : PagedMachine τ
  address : Nat
  length : Nat

/-- The copies that the loop of `AccessMemory` makes. -/
def copiesOf (A : Option (AttributeService τ)) (openPage : OpenPage τ) (Write : Bool) :
    (fuel Address Data Length : Nat) → PagedMachine τ → List (Copy τ)
  | 0, _, _, _, _ => []
  | fuel + 1, Address, Data, Length, s =>
      if Length = 0 then []
      else match ((openPage Address).run s).1 with
        | none => []
        | some changed =>
            let LengthInPage := lengthInPage Address Length
            let opened := ((openPage Address).run s).2
            ⟨opened, Address, LengthInPage⟩ ::
            copiesOf A openPage Write fuel ((Address + LengthInPage) % 2 ^ 64) (Data + LengthInPage)
            (Length - LengthInPage) (afterCopy A Write Address Data LengthInPage changed opened)

/-- A copy as the record has it. -/
def Copy.event (c : Copy τ) : PageEvent := .copied c.address c.length

def PageEvent.isCopy : PageEvent → Bool
  | .checked _ _ => false
  | .copied _ _ => true

/-- The record has these copies, and no others. -/
theorem copiesOf_recorded (hopen : Opens openPage) : ∀ (fuel a d l : Nat) (s : PagedMachine τ),
    l < fuel → ((accessLoop A openPage Write fuel a d l).run s).2.events.filter PageEvent.isCopy =
      s.events.filter PageEvent.isCopy ++ (copiesOf A openPage Write fuel a d l s).map
      Copy.event := by
  intro fuel
  induction fuel with
  | zero => intro a d l s hfuel; omega
  | succ fuel ih =>
    intro a d l s hfuel
    rcases Nat.eq_zero_or_pos l with rfl | hl
    · rw [copiesOf, if_pos rfl]
      exact (List.append_nil _).symm
    · rw [copiesOf, if_neg (by omega)]
      cases hopened : ((openPage a).run s).1 with
      | none =>
        obtain ⟨s', hrun, htransferred⟩ := accessLoop_stops (A := A) Write fuel d hopen hl hopened
        rw [hrun, htransferred.events, List.filter_append]
        rfl
      | some changed =>
        obtain ⟨hrun, hround⟩ := accessLoop_round (A := A) Write fuel d hopen hl hopened
        rw [hrun, ih _ _ _ _ (by have := lengthInPage_pos (a := a) hl; omega), hround.events,
          List.filter_append, List.append_assoc]
        rfl

/-- A copy of an access to the `l` bytes at `a` from `s`: its page was opened for it, it lies in
that page and in the range, and the memory it is made in differs from that of `s` at most in the
range, and only by a write. -/
structure MadeIn (openPage : OpenPage τ) (Write : Bool) (a l : Nat) (s : PagedMachine τ)
    (c : Copy τ) : Prop where
  opened : ∃ t, ((openPage c.address).run t).1.isSome = true ∧
    c.machine = ((openPage c.address).run t).2
  inside : a ≤ c.address ∧ c.address + c.length ≤ a + l
  nonempty : 0 < c.length
  page : ∀ x, c.address ≤ x → x < c.address + c.length → pageBase x = pageBase c.address
  outside : ∀ x, ¬ (a ≤ x ∧ x < a + l) → c.machine.memory x = s.memory x
  read : Write = false → c.machine.memory = s.memory

theorem mem_copiesOf (hopen : Opens openPage) : ∀ (fuel a d l : Nat) (s : PagedMachine τ),
    a + l ≤ 2 ^ 64 → ∀ c ∈ copiesOf A openPage Write fuel a d l s,
    MadeIn openPage Write a l s c := by
  intro fuel
  induction fuel with
  | zero => intro a d l s _ c hc; cases hc
  | succ fuel ih =>
    intro a d l s hwrap c hc
    rw [copiesOf] at hc
    rcases Nat.eq_zero_or_pos l with rfl | hl
    · rw [if_pos rfl] at hc
      cases hc
    · rw [if_neg (by omega)] at hc
      cases hopened : ((openPage a).run s).1 with
      | none =>
        rw [hopened] at hc
        cases hc
      | some changed =>
        rw [hopened] at hc
        have hmemory := (memory_of_bytes (hopen.bytes a s)).1
        have hk := lengthInPage_le a l
        have hkpos := lengthInPage_pos (a := a) hl
        -- The copy is that of this page, or one behind it.
        rcases List.mem_cons.mp hc with rfl | hc
        · exact ⟨⟨s, by rw [hopened]; rfl, rfl⟩, ⟨le_refl a, by dsimp only; omega⟩, hkpos,
            fun x => pageBase_of_round, fun x _ => congrFun hmemory x, fun _ => hmemory⟩
        · obtain ⟨-, hround⟩ := accessLoop_round (A := A) Write fuel d hopen hl hopened
          rcases Nat.lt_or_ge (lengthInPage a l) l with hlast | hlast
          · rw [Nat.mod_eq_of_lt (by omega)] at hc
            have hrest := ih (a + lengthInPage a l) _ _ _ (by omega) c hc
            obtain ⟨hlow, hhigh⟩ := hrest.inside
            refine ⟨hrest.opened, ⟨by omega, by omega⟩, hrest.nonempty, hrest.page, fun x hx => ?_,
              fun hread => ?_⟩
            · rw [hrest.outside x (by omega), hround.memory]
              split
              · refine writeBlock_of_not_covers ?_
                rw [slice_length, covers_iff (by omega)]
                omega
              · rfl
            · rw [hrest.read hread, hround.memory, hread]
              rfl
          · -- The range ended in this page.
            rw [Nat.sub_eq_zero_of_le hlast] at hc
            cases fuel with
            | zero => cases hc
            | succ fuel =>
              rw [copiesOf, if_pos rfl] at hc
              cases hc

/-- Without the protocol nothing changes the state behind the checks. -/
theorem world_copiesOf (hworld : ∀ a, Keeps PagedMachine.world (openPage a)) :
    ∀ (fuel a d l : Nat) (s : PagedMachine τ), ∀ c ∈ copiesOf none openPage Write fuel a d l s,
      c.machine.world = s.world := by
  intro fuel
  induction fuel with
  | zero => intro a d l s c hc; cases hc
  | succ fuel ih =>
    intro a d l s c hc
    rw [copiesOf] at hc
    by_cases hl : l = 0
    · rw [if_pos hl] at hc
      cases hc
    · rw [if_neg hl] at hc
      cases hopened : ((openPage a).run s).1 with
      | none =>
        rw [hopened] at hc
        cases hc
      | some changed =>
        rw [hopened] at hc
        rcases List.mem_cons.mp hc with rfl | hc
        · exact hworld a s
        · rw [ih _ _ _ _ c hc]
          refine Eq.trans ?_ (hworld a s)
          cases changed with
          | none => rfl
          | some Attributes => rfl

/-- What a passed check promises of its page holds of every copy of an access, if it holds in every
memory that differs from the first one at most in the range, and only by a write. -/
theorem copies_allowed {C : PageChecks τ} {Q : (Nat → UInt8) → τ → Nat → Prop} {a l : Nat}
    {s : PagedMachine τ} (hwrap : a + l ≤ 2 ^ 64)
    (hcheck : ∀ memory : Nat → UInt8, (∀ x, ¬ (a ≤ x ∧ x < a + l) → memory x = s.memory x) →
      (Write = false → memory = s.memory) → ∀ b, a ≤ b → b < a + l →
      C.allows Write memory s.world b = true → ∀ x, a ≤ x → x < a + l → pageBase x = pageBase b →
      Q memory s.world x) :
    ∀ c ∈ copiesOf none (Dxe.openPage ⟨C, none⟩ Write) Write (l + 1) a 0 l s,
      ∀ x, c.address ≤ x → x < c.address + c.length → Q c.machine.memory c.machine.world x := by
  intro c hc x hx hxl
  have hopen := Dxe.opens ⟨C, none⟩ Write
  have hmade := mem_copiesOf hopen (l + 1) a 0 l s hwrap c hc
  have hworld := world_copiesOf (world_openPage C Write) (l + 1) a 0 l s c hc
  obtain ⟨hlow, hhigh⟩ := hmade.inside
  have hnonempty := hmade.nonempty
  obtain ⟨t, hpassed, hmachine⟩ := hmade.opened
  have hmemory : c.machine.memory = t.memory := by
    rw [hmachine]
    exact (memory_of_bytes (hopen.bytes c.address t)).1
  have hsame : t.world = s.world := by
    rw [← hworld, hmachine]
    exact (world_openPage C Write c.address t).symm
  have hallows : C.allows Write t.memory t.world c.address = true :=
    C.allows_iff.mpr ((Dxe.openPage_isSome ⟨C, none⟩ Write _ _).mp hpassed)
  rw [hworld]
  rw [← hmemory, hsame] at hallows
  exact hcheck c.machine.memory hmade.outside hmade.read c.address hlow (by omega) hallows x
    (by omega) (by omega) (hmade.page x hx hxl)

end Copies

/-! ## Pages and the bits of an address -/

/-- Addresses of one page agree above their lowest twelve bits. -/
theorem div_of_pageBase {x y : Nat} (h : pageBase x = pageBase y) {k : Nat} (hk : 12 ≤ k) :
    x / 2 ^ k = y / 2 ^ k := by
  have hpages : x / 2 ^ 12 = y / 2 ^ 12 := by
    unfold pageBase efiPageSize at h
    omega
  obtain ⟨j, rfl⟩ := Nat.exists_eq_add_of_le hk
  rw [Nat.pow_add, ← Nat.div_div_eq_div_mul, hpages, Nat.div_div_eq_div_mul]

/-- What holds at every offset into a range holds at every address of it. -/
theorem forall_offset {Q : Nat → Prop} {a l : Nat} (h : ∀ k < l, Q (a + k)) :
    ∀ x, a ≤ x → x < a + l → Q x := by
  intro x hx hxl
  have hk := h (x - a) (by omega)
  rwa [Nat.add_sub_cancel' hx] at hk

theorem toNat_address {x : Nat} (h : x < 2 ^ 64) : x.toUInt64.toNat = x := by
  rw [Nat.toUInt64_eq, UInt64.toNat_ofNat', Nat.mod_eq_of_lt h]

/-! ## X64 -/

namespace X64

/-- `CR3` and `CR4`. -/
structure ControlRegisters where
  cr3 : UInt64
  cr4 : UInt64

/-- What a walk reads. -/
def paging (memory : Nat → UInt8) (registers : ControlRegisters) : Paging :=
  ⟨memory, registers.cr3, registers.cr4⟩

/-- `IsPageReadable` and `IsPageWritable` of X64. -/
def pageChecks : PageChecks ControlRegisters where
  isPageReadable memory registers a :=
    ((isPageReadable (paging memory registers) a.toUInt64).run []).1
  isPageWritable memory registers a :=
    ((isPageWritable (paging memory registers) a.toUInt64).run []).1

/-- The processor lets the supervisor access the byte: it finds a translation, and for a write with
`CR0.WP` set every entry on the way allows it. -/
def ProcessorAllows (Write : Bool) (s : Paging) (x : Nat) : Prop :=
  (hardwareWalk s x.toUInt64).found = true ∧
    (Write = true → ∀ v ∈ (hardwareWalk s x.toUInt64).visits, writable v.entry = true)

/-- The tables are in reach of the code for the `l` bytes at `a`: 4-level tables below 64 GB, for
addresses below 512 GB; and for a write no upper entry takes a permission away, and no entry lies in
the range. -/
structure InReach (Write : Bool) (s : Paging) (a l : Nat) : Prop where
  low : ∀ x, a ≤ x → x < a + l → LowTables s x.toUInt64
  first : a + l ≤ 2 ^ 39
  upper : Write = true → ∀ x, a ≤ x → x < a + l → ∀ v ∈ (hardwareWalk s x.toUInt64).visits.dropLast,
    writable v.entry = true
  apart : Write = true → ∀ x, a ≤ x → x < a + l → ∀ v ∈ (hardwareWalk s x.toUInt64).visits,
    v.place + 8 ≤ a ∨ a + l ≤ v.place

variable {Write : Bool} {a l : Nat}

/-- Addresses of one page are translated alike. -/
theorem hardwareWalk_page {s : Paging} {x y : Nat} (hx : x < 2 ^ 64) (hy : y < 2 ^ 64)
    (h : pageBase x = pageBase y) : hardwareWalk s x.toUInt64 = hardwareWalk s y.toUInt64 := by
  have hdecode : (hardwareScheme x.toUInt64).decode = (hardwareScheme y.toUInt64).decode := rfl
  refine walk_congr hdecode (fun level _ => ?_) _
  have hshift : 12 ≤ level.shift := by cases level <;> decide
  funext table
  show some (tableBase table + 8 * level.index x.toUInt64) =
    some (tableBase table + 8 * level.index y.toUInt64)
  rw [Level.index, Level.index, toNat_address hx, toNat_address hy, div_of_pageBase h hshift]

/-- What a write outside the tables leaves alone. -/
theorem hardwareWalk_apart {memory memory' : Nat → UInt8} {registers : ControlRegisters}
    {address : UInt64}
    (hsame : ∀ v ∈ (hardwareWalk (paging memory registers) address).visits, ∀ i < 8,
      memory' (v.place + i) = memory (v.place + i)) :
    hardwareWalk (paging memory' registers) address = hardwareWalk (paging memory registers)
    address :=
  walk_fetch_congr fun v hv => load64_congr (hsame v hv)

/-- A check that passes finds the processor's leaf. -/
theorem leaf_of_allows {s : Paging} {address : UInt64} (hlow : LowTables s address)
    (haddress : address.toNat < 2 ^ 39)
    (h : ((isPageReadable s address).run []).1 = true ∨
      ((isPageWritable s address).run []).1 = true) :
    (hardwareWalk s address).found = true ∧ (((isPageWritable s address).run []).1 = true →
      ∃ e, (hardwareWalk s address).leaf = some e ∧ writable e = true) := by
  by_cases hexcluded : Excluded address
  · have hnone : getPageIs s address = pure .notValid := if_pos hexcluded
    rw [isPageReadable, isPageWritable, hnone] at h
    rcases h with h | h
    · cases h
    · cases h
  · have hleaf := leaf_codeWalk hlow haddress
    have hwritable : ((isPageWritable s address).run []).1 =
        (answer (walk (codeScheme s address) s.entryAt s.levels s.cr3) == .readWrite) := by
      rw [isPageWritable, run_bind, getPageIs_walks hexcluded, run_pure]
    rw [isPageReadable_run hexcluded, hwritable, answer_readWrite, hleaf] at h
    rw [hwritable, answer_readWrite, hleaf]
    dsimp only [Trail.found] at h ⊢
    rw [hleaf] at h
    by_cases hskip : ∀ v ∈ (hardwareWalk s address).visits, ¬ Skipped s address v
    · rw [if_pos hskip] at h ⊢
      refine ⟨?_, fun he => he⟩
      rcases h with h | ⟨e, he, -⟩
      · exact h
      · rw [he]
        rfl
    · rw [if_neg hskip] at h
      rcases h with h | ⟨e, he, -⟩
      · cases h
      · cases he

/-- **The debugger's accesses do not fault on X64.**  Without the Memory Attribute Protocol, with
the tables in reach for the range: every byte that `AccessMemory` copies, the processor lets it
access, with the memory as it is at that copy; and the copies are those on record. -/
theorem accesses_do_not_fault {s : PagedMachine ControlRegisters}
    (hreach : InReach Write (paging s.memory s.world) a l) :
    (∀ c ∈ copiesOf none (Dxe.openPage ⟨pageChecks, none⟩ Write) Write (l + 1) a 0 l s,
      ∀ x, c.address ≤ x → x < c.address + c.length →
        ProcessorAllows Write (paging c.machine.memory c.machine.world) x) ∧
      ((Dxe.accessMemory ⟨pageChecks, none⟩ Write a l).run s).2.events.filter PageEvent.isCopy =
        s.events.filter PageEvent.isCopy ++
          (copiesOf none (Dxe.openPage ⟨pageChecks, none⟩ Write) Write (l + 1) a 0 l s).map
          Copy.event := by
  have hfirst := hreach.first
  have hwrap : a + l ≤ 2 ^ 64 := by omega
  refine ⟨copies_allowed (Q := fun memory world => ProcessorAllows Write (paging memory world))
    hwrap
    fun memory houtside hread b hb hbl hallows x hx hxl hpage => ?_,
    copiesOf_recorded (Dxe.opens _ Write) (l + 1) a 0 l s (Nat.lt_succ_self l)⟩
  -- What was copied so far lies apart from the tables, so that they translate as at the start.
  have hsame : ∀ y, a ≤ y → y < a + l → hardwareWalk (paging memory s.world) y.toUInt64 =
      hardwareWalk (paging s.memory s.world) y.toUInt64 := by
    intro y hy hyl
    cases Write with
    | false => rw [hread rfl]
    | true =>
      refine hardwareWalk_apart fun v hv i hi => houtside _ ?_
      have := hreach.apart rfl y hy hyl v hv
      omega
  have hwalk : hardwareWalk (paging memory s.world) x.toUInt64 =
      hardwareWalk (paging memory s.world) b.toUInt64 :=
    hardwareWalk_page (by omega) (by omega) hpage
  have hlow : LowTables (paging memory s.world) b.toUInt64 :=
    ⟨(hreach.low b hb hbl).four_levels, fun v hv =>
      (hreach.low b hb hbl).below v (hsame b hb hbl ▸ hv)⟩
  have hbelow : b.toUInt64.toNat < 2 ^ 39 := by
    rw [toNat_address (by omega)]
    omega
  have hanswer : ((isPageReadable (paging memory s.world) b.toUInt64).run []).1 = true ∨
      ((isPageWritable (paging memory s.world) b.toUInt64).run []).1 = true := by
    cases Write with
    | false => exact Or.inl hallows
    | true => exact Or.inr hallows
  obtain ⟨hfound, hleaf⟩ := leaf_of_allows hlow hbelow hanswer
  refine ⟨hwalk ▸ hfound, fun hwrite v hv => ?_⟩
  subst hwrite
  obtain ⟨e, he, hwritable⟩ := hleaf hallows
  obtain ⟨last, hvisits, hlast⟩ := visits_of_leaf he
  have hupper := hreach.upper rfl x hx hxl
  rw [← hsame x hx hxl, hwalk] at hupper
  rw [hwalk] at hv
  have hsplit : v ∈ (hardwareWalk (paging memory s.world) b.toUInt64).visits.dropLast ++ [last] :=
    hvisits ▸ hv
  rcases List.mem_append.mp hsplit with hv | hv
  · exact hupper v hv
  · rw [List.mem_singleton.mp hv, hlast]
    exact hwritable

/-- The first 1 GB mapped by one writable entry, and two bytes to write. -/
def identityMapped : PagedMachine ControlRegisters :=
  ⟨holding [(0x1000, 0x2003), (0x2000, 0x83)], ⟨0x1000, 0⟩, fun _ => 0xCC, []⟩

/-- A write of four bytes across the end of a page. -/
theorem accesses_do_not_fault_write :
    (∀ c ∈ copiesOf none (Dxe.openPage ⟨pageChecks, none⟩ true) true 5 0x3FFE 0 4 identityMapped,
      ∀ x, c.address ≤ x → x < c.address + c.length →
        ProcessorAllows true (paging c.machine.memory c.machine.world) x) ∧
      ((Dxe.accessMemory ⟨pageChecks, none⟩ true 0x3FFE 4).run identityMapped).2.events.filter
      PageEvent.isCopy =
        identityMapped.events.filter PageEvent.isCopy ++
          (copiesOf none (Dxe.openPage ⟨pageChecks, none⟩ true) true 5 0x3FFE 0 4
            identityMapped).map Copy.event :=
  accesses_do_not_fault ⟨forall_offset (by decide +kernel), by decide,
    fun _ => forall_offset (by decide +kernel), fun _ => forall_offset (by decide +kernel)⟩

end X64

/-! ## AArch64 -/

namespace AArch64

/-- `TTBR0` and `TCR`. -/
structure TranslationRegisters where
  ttbr0 : UInt64
  tcr : UInt64

/-- What a walk reads. -/
def regime (memory : Nat → UInt8) (registers : TranslationRegisters) : Regime :=
  ⟨memory, registers.ttbr0, registers.tcr⟩

/-- `IsPageReadable` and `IsPageWritable` of AArch64. -/
def pageChecks : PageChecks TranslationRegisters where
  isPageReadable memory registers a :=
    ((isPageReadable (regime memory registers) a.toUInt64).run []).1
  isPageWritable memory registers a :=
    ((isPageWritable (regime memory registers) a.toUInt64).run []).1

/-- The tables are plain for the `l` bytes at `a`: a regime with a granule of 4 KB whose range holds
them, an aligned first table, no block on level 0, and leaves that have their access flag and are
not read-only for all; and for a write no table on the way bars it, and no descriptor lies in the
range. -/
structure InReach (Write : Bool) (r : Regime) (a l : Nat) : Prop where
  granule : 16 ≤ r.t0sz ∧ r.t0sz ≤ 39
  range : a + l ≤ 2 ^ (64 - r.t0sz)
  aligned : r.ttbr0.toNat % 2 ^ 48 % r.firstTableBytes = 0
  blocks : ∀ x, a ≤ x → x < a + l → ∀ v ∈ (r.stageOneWalk x).visits, v.level = 0 →
    v.entry.toNat % 4 ≠ 1
  leaf : ∀ x, a ≤ x → x < a + l → ∀ d, (r.stageOneWalk x).leaf = some d →
    accessFlag d = true ∧ accessPermissions d ≠ 3
  upper : Write = true → ∀ x, a ≤ x → x < a + l → ∀ v ∈ (r.stageOneWalk x).visits.dropLast,
    writesBarred v.entry = false
  apart : Write = true → ∀ x, a ≤ x → x < a + l → ∀ v ∈ (r.stageOneWalk x).visits,
    v.place + 8 ≤ a ∨ a + l ≤ v.place

variable {Write : Bool} {a l : Nat}

/-- A leaf that passes the check of the code permits the access, if it has its access flag and is
not read-only for all. -/
theorem permits_of_checked {d : UInt64} (hflag : accessFlag d = true)
    (hnot : accessPermissions d ≠ 3)
    (h : if Write = true then accessPermissions d ≠ 2 else accessFlag d = true) :
    Permits d Write := by
  refine ⟨hflag, fun hwrite => ?_⟩
  rw [if_pos hwrite] at h
  have hlt : accessPermissions d < 4 := Nat.mod_lt _ (by decide)
  rw [Nat.testBit_eq_decide_div_mod_eq, decide_eq_false_iff_not]
  unfold accessPermissions at *
  omega

/-- **The debugger's accesses do not fault on AArch64.**  Without the Memory Attribute Protocol,
with plain tables for the range: every byte that `AccessMemory` copies, the processor lets it
access, with the memory as it is at that copy; and the copies are those on record. -/
theorem accesses_are_permitted {s : PagedMachine TranslationRegisters}
    (hreach : InReach Write (regime s.memory s.world) a l) :
    (∀ c ∈ copiesOf none (Dxe.openPage ⟨pageChecks, none⟩ Write) Write (l + 1) a 0 l s,
      ∀ x, c.address ≤ x → x < c.address + c.length →
        ProcessorAllows Write (regime c.machine.memory c.machine.world) x) ∧
      ((Dxe.accessMemory ⟨pageChecks, none⟩ Write a l).run s).2.events.filter PageEvent.isCopy =
        s.events.filter PageEvent.isCopy ++
          (copiesOf none (Dxe.openPage ⟨pageChecks, none⟩ Write) Write (l + 1) a 0 l s).map
          Copy.event := by
  obtain ⟨hmin, hmax⟩ := hreach.granule
  have hrange := hreach.range
  have hpow : 2 ^ (64 - (regime s.memory s.world).t0sz) ≤ 2 ^ 64 :=
    Nat.pow_le_pow_right (by decide) (Nat.sub_le ..)
  have hwrap : a + l ≤ 2 ^ 64 := hrange.trans hpow
  refine ⟨copies_allowed (Q := fun memory world => ProcessorAllows Write (regime memory world))
    hwrap
    fun memory houtside hread b hb hbl hallows x hx hxl hpage => ?_,
    copiesOf_recorded (Dxe.opens _ Write) (l + 1) a 0 l s (Nat.lt_succ_self l)⟩
  have hsame : ∀ y, a ≤ y → y < a + l →
      (regime memory s.world).stageOneWalk y = (regime s.memory s.world).stageOneWalk y := by
    intro y hy hyl
    cases Write with
    | false => rw [hread rfl]
    | true =>
      refine stageOneWalk_apart fun v hv i hi => houtside _ ?_
      have := hreach.apart rfl y hy hyl v hv
      omega
  have hwalk : (regime memory s.world).stageOneWalk x = (regime memory s.world).stageOneWalk b :=
    stageOneWalk_congr fun _ => div_of_pageBase hpage
  have htrail : (regime memory s.world).trail b.toUInt64 = (regime memory s.world).stageOneWalk b :=
    trail_eq_stageOneWalk (r := regime memory s.world) hmin hmax hreach.aligned (by omega)
      fun v hv => hreach.blocks b hb hbl v (hsame b hb hbl ▸ hv)
  have hanswer : ((checkPageAccess (regime memory s.world) b.toUInt64 Write).run []).1 = true := by
    cases Write with
    | false => exact hallows
    | true => exact hallows
  obtain ⟨-, d, hd, -, hallowed⟩ := (checkPageAccess_iff _ _ _).mp hanswer
  rw [htrail] at hd
  obtain ⟨hflag, hnot⟩ := hreach.leaf b hb hbl d (hsame b hb hbl ▸ hd)
  refine ⟨Nat.lt_of_lt_of_le hxl hrange, ⟨d, hwalk ▸ hd, permits_of_checked hflag hnot hallowed⟩,
    fun hwrite => ?_⟩
  rw [hsame x hx hxl]
  exact hreach.upper hwrite x hx hxl

/-- One 1 GB block of accessed normal memory. -/
def blockMapped : PagedMachine TranslationRegisters :=
  ⟨(oneBlock 0).memory, ⟨(oneBlock 0).ttbr0, (oneBlock 0).tcr⟩, fun _ => 0xCC, []⟩

/-- A write of four bytes across the end of a page. -/
theorem accesses_are_permitted_block :
    (∀ c ∈ copiesOf none (Dxe.openPage ⟨pageChecks, none⟩ true) true 5 0x3FFE 0 4 blockMapped,
      ∀ x, c.address ≤ x → x < c.address + c.length →
        ProcessorAllows true (regime c.machine.memory c.machine.world) x) ∧
      ((Dxe.accessMemory ⟨pageChecks, none⟩ true 0x3FFE 4).run blockMapped).2.events.filter
      PageEvent.isCopy =
        blockMapped.events.filter PageEvent.isCopy ++
          (copiesOf none (Dxe.openPage ⟨pageChecks, none⟩ true) true 5 0x3FFE 0 4 blockMapped).map
          Copy.event := by
  have hleaf : ∀ k < 4,
      ((regime blockMapped.memory blockMapped.world).stageOneWalk (0x3FFE + k)).leaf =
      some 0x40D := by decide +kernel
  refine accesses_are_permitted ⟨by decide, by decide, by decide, forall_offset (by decide +kernel),
    forall_offset fun k hk d hd => ?_, fun _ => forall_offset (by decide +kernel),
    fun _ => forall_offset (by decide +kernel)⟩
  rw [hleaf k hk] at hd
  cases hd
  exact ⟨by decide, by decide⟩

end AArch64
end UefiDebugger
