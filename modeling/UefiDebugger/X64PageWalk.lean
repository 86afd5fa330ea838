import UefiDebugger.StateEffect
import UefiDebugger.TableWalk
import UefiDebugger.WordFields

/-!
# The X64 page walk

`AddressCheck.c` decides whether an address may be read or written by walking the page tables that
`CR3` names.  `getPageIs` is that walk, entry by entry as the code makes it, with the places it
reads recorded; `GetPageIs` reads each entry once here where the C reads its fields one after the
other.

`codeScheme` restates the walk level by level (`getPageIs_run`), next to `hardwareScheme`, the walk
the processor makes.
-/
namespace UefiDebugger.X64
open StateEffect TableWalk WordFields

/-! ## The code -/

/-- What the walk reads: the memory that holds the paging structures and the two control
registers. -/
structure Paging where
  memory : Nat → UInt8
  cr3 : UInt64
  cr4 : UInt64

/-- The entry at `p`. -/
def Paging.entryAt (s : Paging) : Nat → UInt64 := load64 s.memory

/-- `ADDRESS_BITS`. -/
def addressBits : UInt64 := 0x0000000FFFFFF000

/-- `Pml5Index`. -/
def pml5Index (a : UInt64) : UInt64 := (a &&& 0x01FF000000000000) >>> 47

/-- `Pml4Index`. -/
def pml4Index (a : UInt64) : UInt64 := (a &&& 0x0000FF8000000000) >>> 39

/-- `PdpteIndex`. -/
def pdpteIndex (a : UInt64) : UInt64 := (a &&& 0x0000007FC0000000) >>> 30

/-- `PdeIndex`. -/
def pdeIndex (a : UInt64) : UInt64 := (a &&& 0x000000003FE00000) >>> 21

/-- `PteIndex`. -/
def pteIndex (a : UInt64) : UInt64 := (a &&& 0x00000000001FF000) >>> 12

/-- `Bits.Present`. -/
def present (e : UInt64) : Bool := e &&& 1 != 0

/-- `Bits.ReadWrite`. -/
def readWrite (e : UInt64) : Bool := e &&& 2 != 0

/-- `Bits.MustBe1`, the page size bit. -/
def mustBe1 (e : UInt64) : Bool := e &&& 0x80 != 0

/-- `Cr4.Bits.LA57`. -/
def Paging.la57 (s : Paging) : Bool := s.cr4 &&& 0x1000 != 0

/-- `PAGE_IS`. -/
inductive PageIs where
  | notValid
  | readOnly
  | readWrite
deriving DecidableEq

/-- A computation with the places of the entries it has read. -/
abbrev Walking := StateM (List Nat)

/-- Dereferences a pointer to an entry. -/
def Paging.load (s : Paging) (pointer : UInt64) : Walking UInt64 := do
  modify (· ++ [pointer.toNat])
  pure (s.entryAt pointer.toNat)

/-- What a leaf entry says of its page. -/
def leafIs (e : UInt64) : PageIs := if readWrite e then .readWrite else .readOnly

/-- `GetPageIs` from `Pte4K` on. -/
def getPageIsPte4K (s : Paging) (pte4K : UInt64) : Walking PageIs :=
  if pte4K = 0 then pure .notValid
  else do
    let e ← s.load pte4K
    if ¬ present e then pure .notValid
    else pure (leafIs e)

/-- `GetPageIs` from `Pte2M` on. -/
def getPageIsPte2M (s : Paging) (address pte2M : UInt64) : Walking PageIs :=
  if pte2M = 0 then pure .notValid
  else do
    let e ← s.load pte2M
    if ¬ present e then pure .notValid
    else if mustBe1 e then pure (leafIs e)
    else getPageIsPte4K s ((e &&& addressBits) + 8 * pteIndex address)

/-- `GetPageIs` from `Pte1G` on. -/
def getPageIsPte1G (s : Paging) (address pte1G : UInt64) : Walking PageIs :=
  if pte1G = 0 then pure .notValid
  else do
    let e ← s.load pte1G
    if ¬ present e then pure .notValid
    else if mustBe1 e then pure (leafIs e)
    else getPageIsPte2M s address ((e &&& addressBits) + 8 * pdeIndex address)

/-- `GetPageIs` from `Pml4` on. -/
def getPageIsPml4 (s : Paging) (address pml4 : UInt64) : Walking PageIs :=
  if pml4 = 0 then pure .notValid
  else do
    let e ← s.load pml4
    if ¬ present e then pure .notValid
    else getPageIsPte1G s address ((e &&& addressBits) + 8 * pdpteIndex address)

/-- The addresses `GetPageIs` refuses without a walk. -/
def Excluded (address : UInt64) : Prop :=
  address = 0 ∨ (0x83000000 ≤ address ∧ address ≤ 0x87c00000)

instance (address : UInt64) : Decidable (Excluded address) :=
  inferInstanceAs (Decidable (_ ∨ _))

/-- `GetPageIs`.  The tables of the two upper levels are integers when the index is added, those of
the lower levels are pointers to entries of eight bytes. -/
def getPageIs (s : Paging) (address : UInt64) : Walking PageIs :=
  if Excluded address then pure .notValid
  else if s.cr3 &&& addressBits = 0 then pure .notValid
  else if s.la57 then do
    let e ← s.load ((s.cr3 &&& addressBits) + pml5Index address)
    if ¬ present e then pure .notValid
    else getPageIsPml4 s address ((e &&& addressBits) + pml4Index address)
  else getPageIsPml4 s address ((s.cr3 &&& addressBits) + pml4Index address)

/-- `IsPageReadable`. -/
def isPageReadable (s : Paging) (address : UInt64) : Walking Bool := do
  let pageIs ← getPageIs s address
  pure (pageIs == .readOnly || pageIs == .readWrite)

/-- `IsPageWritable`. -/
def isPageWritable (s : Paging) (address : UInt64) : Walking Bool := do
  let pageIs ← getPageIs s address
  pure (pageIs == .readWrite)

/-! ## The processor -/

/-- The paging structures, from the root down. -/
inductive Level where
  | pml5
  | pml4
  | pdpt
  | pd
  | pt
deriving DecidableEq

/-- The lowest address bit of a level's index. -/
def Level.shift : Level → Nat
  | .pml5 => 48
  | .pml4 => 39
  | .pdpt => 30
  | .pd => 21
  | .pt => 12

/-- The nine address bits that select an entry. -/
def Level.index (l : Level) (address : UInt64) : Nat := address.toNat / 2 ^ l.shift % 512

/-- Bits 51:12 of `CR3` or of an entry, the base of a table. -/
def tableBase (e : UInt64) : Nat := e.toNat / 2 ^ 12 % 2 ^ 40 * 2 ^ 12

/-- Bit 0 of an entry says whether it is there, bit 7 whether it maps a large page. -/
def hardwareDecode (l : Level) (e : UInt64) : Outcome UInt64 :=
  if e.toNat.testBit 0 then
    match l with
    | .pml5 | .pml4 => .next e
    | .pdpt | .pd => if e.toNat.testBit 7 then .leaf else .next e
    | .pt => .leaf
  else .absent

/-- The processor reads the entry of eight bytes at the index, in the table at bits 51:12. -/
def hardwareScheme (address : UInt64) : Scheme Level UInt64 Nat UInt64 where
  place l table := some (tableBase table + 8 * l.index address)
  decode := hardwareDecode

/-- The levels of a walk. -/
def Paging.levels (s : Paging) : List Level :=
  if s.la57 then [.pml5, .pml4, .pdpt, .pd, .pt] else [.pml4, .pdpt, .pd, .pt]

/-- The architectural walk for an address. -/
def hardwareWalk (s : Paging) (address : UInt64) : Trail Level UInt64 Nat UInt64 :=
  walk (hardwareScheme address) s.entryAt s.levels s.cr3

/-! ## The walk of the code, level by level -/

/-- The pointer the code computes on a level. -/
def Level.pointer (l : Level) (address table : UInt64) : UInt64 :=
  match l with
  | .pml5 => (table &&& addressBits) + pml5Index address
  | .pml4 => (table &&& addressBits) + pml4Index address
  | .pdpt => (table &&& addressBits) + 8 * pdpteIndex address
  | .pd => (table &&& addressBits) + 8 * pdeIndex address
  | .pt => (table &&& addressBits) + 8 * pteIndex address

/-- The code does not follow a `CR3` whose base it takes for 0, nor a pointer that is `NULL`. -/
def Paging.refuses (s : Paging) (address : UInt64) (l : Level) (table : UInt64) : Bool :=
  if s.levels.head? = some l then table &&& addressBits == 0 else l.pointer address table == 0

/-- Where the code looks. -/
def codeScheme (s : Paging) (address : UInt64) : Scheme Level UInt64 Nat UInt64 where
  place l table := if s.refuses address l table then none else some (l.pointer address table).toNat
  decode := hardwareDecode

/-- The answer that a walk gives. -/
def answer (t : Trail Level UInt64 Nat UInt64) : PageIs :=
  match t.leaf with
  | none => .notValid
  | some e => leafIs e

/-! ## Masks and shifts -/

/-- An index as the macros compute it: the field, moved down by `j` bits. -/
theorem toNat_index (a mask j : UInt64) (k d : Nat) (h : mask.toNat = (2 ^ 9 - 1) * 2 ^ k)
    (hj : j.toNat + d = k) (hk : k < 64) :
    ((a &&& mask) >>> j).toNat = a.toNat / 2 ^ k % 2 ^ 9 * 2 ^ d := by
  have hj' : j.toNat % 64 = j.toNat := Nat.mod_eq_of_lt (by omega)
  have hpow : 2 ^ k = 2 ^ d * 2 ^ j.toNat := by rw [← Nat.pow_add, Nat.add_comm, hj]
  rw [UInt64.toNat_shiftRight, toNat_and_field a mask 9 k h, hj', Nat.shiftRight_eq_div_pow]
  conv_lhs => rw [hpow, ← Nat.mul_assoc, Nat.mul_div_cancel _ (Nat.two_pow_pos _), ← hpow]

theorem toNat_pml5Index (a : UInt64) : (pml5Index a).toNat = Level.pml5.index a * 2 :=
  toNat_index a _ 47 48 1 rfl rfl (by decide)

theorem toNat_pml4Index (a : UInt64) : (pml4Index a).toNat = Level.pml4.index a :=
  (toNat_index a _ 39 39 0 rfl rfl (by decide)).trans (Nat.mul_one _)

theorem toNat_pdpteIndex (a : UInt64) : (pdpteIndex a).toNat = Level.pdpt.index a :=
  (toNat_index a _ 30 30 0 rfl rfl (by decide)).trans (Nat.mul_one _)

theorem toNat_pdeIndex (a : UInt64) : (pdeIndex a).toNat = Level.pd.index a :=
  (toNat_index a _ 21 21 0 rfl rfl (by decide)).trans (Nat.mul_one _)

theorem toNat_pteIndex (a : UInt64) : (pteIndex a).toNat = Level.pt.index a :=
  (toNat_index a _ 12 12 0 rfl rfl (by decide)).trans (Nat.mul_one _)

theorem Level.index_lt (l : Level) (a : UInt64) : l.index a < 512 := Nat.mod_lt _ (by decide)

/-- Bits 35:12, what the code takes for the base of a table. -/
def codeBase (e : UInt64) : Nat := e.toNat / 2 ^ 12 % 2 ^ 24 * 2 ^ 12

theorem toNat_addressBits (e : UInt64) : (e &&& addressBits).toNat = codeBase e :=
  toNat_and_field e _ 24 12 rfl

/-- The distance from one entry to the next, as the code adds the index. -/
def Level.stride : Level → Nat
  | .pml5 => 2
  | .pml4 => 1
  | .pdpt | .pd | .pt => 8

theorem toNat_pointer (l : Level) (address table : UInt64) :
    (l.pointer address table).toNat = codeBase table + l.stride * l.index address := by
  have hbase := toNat_addressBits table
  have hlt : codeBase table < 2 ^ 36 := by unfold codeBase; omega
  have hi := l.index_lt address
  cases l with
  | pml5 =>
    rw [Level.pointer, UInt64.toNat_add, hbase, toNat_pml5Index, Nat.mod_eq_of_lt (by omega)]
    simp only [Level.stride]
    omega
  | pml4 =>
    rw [Level.pointer, UInt64.toNat_add, hbase, toNat_pml4Index, Nat.mod_eq_of_lt (by omega)]
    simp only [Level.stride]
    omega
  | pdpt =>
    rw [Level.pointer, UInt64.toNat_add, UInt64.toNat_mul, hbase, toNat_pdpteIndex]
    simp only [Level.stride, UInt64.reduceToNat]
    omega
  | pd =>
    rw [Level.pointer, UInt64.toNat_add, UInt64.toNat_mul, hbase, toNat_pdeIndex]
    simp only [Level.stride, UInt64.reduceToNat]
    omega
  | pt =>
    rw [Level.pointer, UInt64.toNat_add, UInt64.toNat_mul, hbase, toNat_pteIndex]
    simp only [Level.stride, UInt64.reduceToNat]
    omega

theorem present_eq (e : UInt64) : present e = e.toNat.testBit 0 :=
  and_ne_zero_eq_testBit e 1 0 rfl

theorem mustBe1_eq (e : UInt64) : mustBe1 e = e.toNat.testBit 7 :=
  and_ne_zero_eq_testBit e 0x80 7 rfl

theorem load_run (s : Paging) (pointer : UInt64) (log : List Nat) :
    (s.load pointer).run log = (s.entryAt pointer.toNat, log ++ [pointer.toNat]) := rfl

/-- What a walk of the code adds to what it was started with. -/
def WalksAs (m : Walking PageIs) (t : Trail Level UInt64 Nat UInt64) : Prop :=
  ∀ log, m.run log = (answer t, log ++ t.places)

section Levels
variable {s : Paging} {address table : UInt64}

theorem walksAs_refused {l : Level} {rest : List Level} (h : s.refuses address l table = true) :
    WalksAs (pure .notValid) (walk (codeScheme s address) s.entryAt (l :: rest) table) := by
  intro log
  rw [walk_refused (if_pos h)]
  simp [answer, Trail.places]

/-- One level of the code: the `NULL` check, the load, and the entry's bits. -/
theorem WalksAs.level (l : Level) (rest : List Level) {check : Prop} [Decidable check]
    (leaf : UInt64 → Bool) (go : UInt64 → Walking PageIs)
    (hcheck : check ↔ s.refuses address l table = true)
    (hleaf : ∀ e, present e = true → leaf e = true → hardwareDecode l e = .leaf)
    (hnext : ∀ e, present e = true → leaf e = false → hardwareDecode l e = .next e)
    (hgo : ∀ e, leaf e = false → WalksAs (go e) (walk (codeScheme s address) s.entryAt rest e)) :
    WalksAs (if check then pure .notValid
      else do
        let e ← s.load (l.pointer address table)
        if ¬ present e then pure .notValid
        else if leaf e then pure (leafIs e)
        else go e) (walk (codeScheme s address) s.entryAt (l :: rest) table) := by
  by_cases hc : check
  · rw [if_pos hc]
    exact walksAs_refused (hcheck.mp hc)
  · intro log
    have hp : (codeScheme s address).place l table = some (l.pointer address table).toNat :=
      if_neg fun h => hc (hcheck.mpr h)
    rw [if_neg hc, run_bind, load_run, run_ite]
    generalize he : s.entryAt (l.pointer address table).toNat = e
    cases hpresent : present e with
    | false =>
      have hd : (codeScheme s address).decode l (s.entryAt (l.pointer address table).toNat) =
          .absent := by
        rw [he]
        exact if_neg (by rw [← present_eq, hpresent]; exact Bool.false_ne_true)
      rw [walk_absent hp hd]
      simp [answer, Trail.places]
    | true =>
      rw [if_neg (by simp), run_ite]
      cases hl : leaf e with
      | true =>
        rw [walk_leaf hp (he ▸ hleaf e hpresent hl)]
        simp [answer, Trail.places, he]
      | false =>
        rw [walk_next hp (he ▸ hnext e hpresent hl), if_neg (by simp), hgo e hl]
        simp [answer, he]

theorem decode_present {l : Level} {e : UInt64} (h : present e = true) :
    hardwareDecode l e =
      match l with
      | .pml5 | .pml4 => .next e
      | .pdpt | .pd => if mustBe1 e then .leaf else .next e
      | .pt => .leaf := by
  rw [present_eq] at h
  rw [mustBe1_eq]
  exact if_pos h

/-- Below the root the code refuses a `NULL` pointer only. -/
theorem refuses_inner (address table : UInt64) {l : Level} (hl : s.levels.head? ≠ some l) :
    l.pointer address table = 0 ↔ s.refuses address l table = true := by
  rw [Paging.refuses, if_neg hl, beq_iff_eq]

theorem head_levels_ne {l : Level} (h₅ : l ≠ .pml5) (h₄ : l ≠ .pml4) : s.levels.head? ≠ some l := by
  unfold Paging.levels
  split
  · exact fun h => h₅ (Option.some.inj h).symm
  · exact fun h => h₄ (Option.some.inj h).symm

theorem getPageIsPte4K_walks (e : UInt64) :
    WalksAs (getPageIsPte4K s (Level.pt.pointer address e))
      (walk (codeScheme s address) s.entryAt [.pt] e) := by
  have hinner : s.levels.head? ≠ some .pt := head_levels_ne (nomatch ·) (nomatch ·)
  have h := WalksAs.level .pt [] (fun _ => true) (fun _ => pure .notValid)
    (refuses_inner address e hinner)
    (fun e he _ => decode_present he) (fun _ _ h => (nomatch h)) (fun _ h => (nomatch h))
  simpa [getPageIsPte4K] using h

theorem getPageIsPte2M_walks (e : UInt64) :
    WalksAs (getPageIsPte2M s address (Level.pd.pointer address e))
      (walk (codeScheme s address) s.entryAt [.pd, .pt] e) := by
  refine WalksAs.level .pd [.pt] mustBe1 _
    (refuses_inner address e (head_levels_ne (nomatch ·) (nomatch ·))) ?_ ?_ ?_
  · intro e he hl
    rw [decode_present he]
    exact if_pos hl
  · intro e he hl
    rw [decode_present he]
    exact if_neg (by simp [hl])
  · exact fun e _ => getPageIsPte4K_walks e

theorem getPageIsPte1G_walks (e : UInt64) :
    WalksAs (getPageIsPte1G s address (Level.pdpt.pointer address e))
      (walk (codeScheme s address) s.entryAt [.pdpt, .pd, .pt] e) := by
  refine WalksAs.level .pdpt [.pd, .pt] mustBe1 _
    (refuses_inner address e (head_levels_ne (nomatch ·) (nomatch ·))) ?_ ?_ ?_
  · intro e he hl
    rw [decode_present he]
    exact if_pos hl
  · intro e he hl
    rw [decode_present he]
    exact if_neg (by simp [hl])
  · exact fun e _ => getPageIsPte2M_walks e

theorem getPageIsPml4_walks (e : UInt64) (hcheck : Level.pml4.pointer address e = 0 ↔
    s.refuses address .pml4 e = true) :
    WalksAs (getPageIsPml4 s address (Level.pml4.pointer address e))
      (walk (codeScheme s address) s.entryAt [.pml4, .pdpt, .pd, .pt] e) := by
  have h := WalksAs.level .pml4 [.pdpt, .pd, .pt] (fun _ => false)
    (fun e => getPageIsPte1G s address (Level.pdpt.pointer address e)) hcheck
    (fun _ _ h => (nomatch h)) (fun e he _ => decode_present he) (fun e _ => getPageIsPte1G_walks e)
  simp only [Bool.false_eq_true, if_false] at h
  exact h

/-- The code walks as its scheme says. -/
theorem getPageIs_walks (h : ¬ Excluded address) :
    WalksAs (getPageIs s address) (walk (codeScheme s address) s.entryAt s.levels s.cr3) := by
  rw [getPageIs, if_neg h]
  cases hla : s.la57 with
  | true =>
    have hlevels : s.levels = [.pml5, .pml4, .pdpt, .pd, .pt] := if_pos hla
    have hroot : s.cr3 &&& addressBits = 0 ↔ s.refuses address .pml5 s.cr3 = true := by
      rw [Paging.refuses, hlevels, List.head?_cons, if_pos rfl, beq_iff_eq]
    have walks := WalksAs.level .pml5 [.pml4, .pdpt, .pd, .pt] (fun _ => false)
      (fun e => getPageIsPml4 s address (Level.pml4.pointer address e)) hroot
      (fun _ _ h => (nomatch h)) (fun e he _ => decode_present he)
      (fun e _ =>
        getPageIsPml4_walks e (refuses_inner address e (by rw [hlevels]; exact (nomatch ·))))
    rw [hlevels]
    simp only [Bool.false_eq_true, if_false] at walks
    exact walks
  | false =>
    have hlevels : s.levels = [.pml4, .pdpt, .pd, .pt] := if_neg (by simp [hla])
    have hroot : s.refuses address .pml4 s.cr3 = true ↔ s.cr3 &&& addressBits = 0 := by
      rw [Paging.refuses, hlevels, List.head?_cons, if_pos rfl, beq_iff_eq]
    rw [hlevels]
    by_cases hbase : s.cr3 &&& addressBits = 0
    · rw [if_pos hbase]
      exact walksAs_refused (hroot.mpr hbase)
    · rw [if_neg hbase]
      refine getPageIsPml4_walks s.cr3
        (iff_of_false (fun hp => hbase ?_) fun hr => hbase (hroot.mp hr))
      -- the base is a part of the pointer, so the pointer is not `NULL`
      have hzero := congrArg UInt64.toNat hp
      rw [toNat_pointer, UInt64.toNat_zero] at hzero
      rw [← UInt64.toNat_inj, toNat_addressBits, UInt64.toNat_zero]
      omega

end Levels

end UefiDebugger.X64
