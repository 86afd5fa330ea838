import UefiDebugger.DebugRegisters

/-!
# What a watchpoint covers

An X64 slot monitors as many bytes as its length says, from the address rounded down to that length.
An AArch64 slot has a bit for each byte behind the address rounded down to a word, and only four of
them count when the address lies in the upper half of a doubleword.

The registers are given the length they can hold: X64 has four of them and takes one byte for any
other (`LengthToDebugRegLen`), AArch64 cuts a length to eight.  On the boundary of that length all
of it is monitored.
-/
namespace UefiDebugger
open SlotTable WordFields

/-! ## Monitored bytes -/

/-- What an enabled slot monitors, by its contents. -/
structure Monitoring where
  byte : WatchKey → Nat → Bool
  read : WatchKey → Bool
  write : WatchKey → Bool

namespace DebugUnit
variable {ρ : Type} (U : DebugUnit ρ) (M : Monitoring)

/-- Some enabled slot monitors the byte, for at least the accesses requested. -/
def Monitored (s : ρ) (Read Write : Bool) (x : Nat) : Prop :=
  ∃ i, ∃ k ∈ U.table s i, M.byte k x = true ∧ (Read = true → M.read k = true) ∧
  (Write = true → M.write k = true)

/-- What `AddWatchpoint` promises in the state `s`, for the length the registers are given. -/
structure Covers (watchLength : UInt64 → Nat) (OnBoundary : UInt64 → Nat → Prop) (a l : UInt64)
    (r w : Bool) (s : ρ) : Prop where
  covered : (U.addWatchpoint a l r w s).1 = true → OnBoundary a (watchLength l) →
    ∀ x, a.toNat ≤ x → x < a.toNat + watchLength l →
    U.Monitored M (U.addWatchpoint a l r w s).2 r w x
  refused : (U.addWatchpoint a l r w s).1 = false ↔
    U.accepts l = false ∨ ¬ U.Armed s (U.key a l r w) ∧ ∀ i, U.table s i ≠ none

variable {U M} {a l : UInt64} {r w : Bool} {s : ρ}

/-- A watchpoint that was added is armed. -/
theorem armed_of_added (h : (U.addWatchpoint a l r w s).1 = true) :
    U.Armed (U.addWatchpoint a l r w s).2 (U.key a l r w) := by
  cases hl : U.accepts l with
  | false =>
    rw [(U.refused a l r w s hl).1] at h
    cases h
  | true =>
    have hinsert := addWatchpoint_refines (s := s) (a := a) (r := r) (w := w) hl
    have hheld := holds_insert ((congrArg Prod.fst hinsert).trans h)
    rwa [hinsert] at hheld

/-- A watchpoint is refused for its length, or because all slots are taken. -/
theorem addWatchpoint_refused_iff : (U.addWatchpoint a l r w s).1 = false ↔
    U.accepts l = false ∨ ¬ U.Armed s (U.key a l r w) ∧ ∀ i, U.table s i ≠ none := by
  cases hl : U.accepts l with
  | false => simp [(U.refused a l r w s hl).1]
  | true =>
    have hinsert := addWatchpoint_refines (s := s) (a := a) (r := r) (w := w) hl
    have hresult : (U.addWatchpoint a l r w s).1 =
        (SlotTable.insert (U.table s) (U.key a l r w)).1 := by rw [hinsert]
    rw [hresult, insert_eq_false_iff]
    simp [Armed]

/-- A unit covers what its encoding of the request monitors. -/
theorem covers_of_key {watchLength : UInt64 → Nat} {OnBoundary : UInt64 → Nat → Prop}
    (hbyte : OnBoundary a (watchLength l) → ∀ x, a.toNat ≤ x → x < a.toNat + watchLength l →
      M.byte (U.key a l r w) x = true)
    (hread : r = true → M.read (U.key a l r w) = true)
    (hwrite : w = true → M.write (U.key a l r w) = true) :
    U.Covers M watchLength OnBoundary a l r w s where
  covered hadded hboundary x hlo hhi := by
    obtain ⟨i, hi⟩ := armed_of_added hadded
    exact ⟨i, _, hi, hbyte hboundary x hlo hhi, hread, hwrite⟩
  refused := addWatchpoint_refused_iff

end DebugUnit

/-! ## X64 -/

namespace X64

/-- The bytes that a length in `DR7` stands for. -/
def slotLength (Len : Nat) : Nat :=
  if Len = 0b10 then 8 else if Len = 0b11 then 4 else if Len = 0b01 then 2 else 1

/-- A slot monitors as many bytes as its length says, on writes, or on reads and writes. -/
def monitoring : Monitoring where
  byte k x :=
    let base := k.address.toNat / slotLength k.length * slotLength k.length
    decide (base ≤ x ∧ x < base + slotLength k.length)
  read k := decide (k.condition = dr7ReadWrite.toNat)
  write k := decide (k.condition = dr7WriteOnly.toNat ∨ k.condition = dr7ReadWrite.toNat)

/-- The length that the registers are given: unsupported sizes default to one byte. -/
def watchLength (Length : UInt64) : Nat :=
  if Length = 8 ∨ Length = 4 ∨ Length = 2 then Length.toNat else 1

/-- The address is a multiple of the length. -/
def OnBoundary (Address : UInt64) (n : Nat) : Prop := n ∣ Address.toNat

/-- That is what the length in `DR7` stands for. -/
theorem slotLength_lengthToDebugRegLen (Length : UInt64) :
    slotLength (lengthToDebugRegLen Length).toNat = watchLength Length := by
  rw [watchLength, lengthToDebugRegLen]
  by_cases h8 : Length = 8
  · simp [h8, slotLength]
  · by_cases h4 : Length = 4
    · simp [h4, slotLength]
    · by_cases h2 : Length = 2
      · simp [h2, slotLength]
      · simp [h8, h4, h2, slotLength]

/-- **X64 covers the length its registers are given.** -/
theorem covers (Address Length : UInt64) (Read Write : Bool) (s : DebugRegisters) :
    debugUnit.Covers monitoring watchLength OnBoundary Address Length Read Write s := by
  refine DebugUnit.covers_of_key (fun hboundary x hlo hhi => ?_) (fun hread => ?_) fun _ => ?_
  · have hlength : slotLength (debugUnit.key Address Length Read Write).length =
        watchLength Length :=
      slotLength_lengthToDebugRegLen Length
    have hbase : Address.toNat / watchLength Length * watchLength Length = Address.toNat :=
      Nat.div_mul_cancel hboundary
    refine decide_eq_true ?_
    have haddress : (debugUnit.key Address Length Read Write).address = Address := rfl
    rw [hlength, haddress, hbase]
    exact ⟨hlo, hhi⟩
  · subst hread
    rfl
  · cases Read with
    | false => rfl
    | true => rfl

end X64

/-! ## AArch64 -/

namespace AArch64

/-- The word that `Bas` counts the bytes from. -/
def watchBase (Address : UInt64) : Nat := Address.toNat / 4 * 4

/-- A slot monitors the bytes of its `Bas` bits, the first four of them only where the base is the
upper half of a doubleword; and loads, stores or both. -/
def monitoring : Monitoring where
  byte k x :=
    decide (∃ i ∈ List.range 8, k.length.testBit i = true ∧ (i < 4 ∨ 8 ∣ watchBase k.address) ∧
      x = watchBase k.address + i)
  read k := k.condition.testBit 0
  write k := k.condition.testBit 1

/-- The length that the registers are given. -/
def watchLength (Length : UInt64) : Nat := min Length.toNat 8

/-- The address starts a doubleword, or a word that the length does not leave. -/
def OnBoundary (Address : UInt64) (n : Nat) : Prop := 8 ∣ Address.toNat ∨ 4 ∣ Address.toNat ∧ n ≤ 4

/-- `Bas` has a bit for each byte of the length. -/
theorem watchBas_testBit (Length : UInt64) {i : Nat} (hi : i < watchLength Length) :
    (watchBas Length).toNat.testBit i = true := by
  have hbits : ∀ n < 9, ∀ i < n, (0xFF#8 >>> (8 - n)).toNat.testBit i = true := by decide
  exact hbits (min Length.toNat 8) (by omega) i hi

/-- **AArch64 covers the length its registers are given.** -/
theorem covers (Address Length : UInt64) (Read Write : Bool) (s : DebugRegisters) :
    debugUnit.Covers monitoring watchLength OnBoundary Address Length Read Write s := by
  refine DebugUnit.covers_of_key (fun hboundary x hlo hhi => ?_) (fun hread => ?_) fun hwrite => ?_
  · have hword : 4 ∣ Address.toNat := by
      rcases hboundary with h8 | ⟨h4, -⟩
      · exact Nat.dvd_trans (by decide) h8
      · exact h4
    have hbase : watchBase Address = Address.toNat := Nat.div_mul_cancel hword
    have hn : watchLength Length ≤ 8 := Nat.min_le_right ..
    have hbit := watchBas_testBit Length (show x - Address.toNat < watchLength Length by omega)
    refine decide_eq_true ⟨x - Address.toNat, List.mem_range.mpr (by omega), hbit, ?_, ?_⟩
    · show x - Address.toNat < 4 ∨ 8 ∣ watchBase Address
      rw [hbase]
      rcases hboundary with h8 | ⟨-, hfour⟩
      · exact Or.inr h8
      · exact Or.inl (by omega)
    · show x = watchBase Address + (x - Address.toNat)
      rw [hbase]
      omega
  · have hbit : ∀ Write, (watchLsc true Write).toNat.testBit 0 = true := by decide
    subst hread
    exact hbit Write
  · have hbit : ∀ Read, (watchLsc Read true).toNat.testBit 1 = true := by decide
    subst hwrite
    exact hbit Read

end AArch64

/-! ## Both -/

/-- **What a watchpoint reported as set covers**: on the boundary of the length its registers are
given, all of that length.  It is refused only when that length is none or all slots are taken by
others. -/
theorem watchpoint_covers (Address Length : UInt64) (Read Write : Bool) :
    (∀ s, X64.debugUnit.Covers X64.monitoring X64.watchLength X64.OnBoundary
        Address Length Read Write s) ∧
      ∀ s, AArch64.debugUnit.Covers AArch64.monitoring AArch64.watchLength AArch64.OnBoundary
        Address Length Read Write s :=
  ⟨fun s => X64.covers Address Length Read Write s,
    fun s => AArch64.covers Address Length Read Write s⟩

/-- The registers behind `DebugArchInit`. -/
def freshX64 : X64.DebugRegisters := X64.debugArchInit ⟨fun _ => 0, 0⟩

def freshAArch64 : AArch64.DebugRegisters :=
  AArch64.debugArchInit ⟨fun _ => 0, fun _ => 0, 0, 0, 0, 0⟩

/-- The last byte of a word. -/
theorem watchpoint_covers_word :
    X64.debugUnit.Monitored X64.monitoring (X64.addWatchpoint 0x1004 4 true true freshX64).2
        true true 0x1007 ∧
      AArch64.debugUnit.Monitored AArch64.monitoring
        (AArch64.addWatchpoint 0x1004 4 true true freshAArch64).2 true true 0x1007 := by
  obtain ⟨hx64, haarch64⟩ := watchpoint_covers 0x1004 4 true true
  have hword : 4 ∣ (0x1004 : UInt64).toNat := by decide
  refine ⟨(hx64 freshX64).covered (by decide +kernel) hword _ (by decide) (by decide), ?_⟩
  exact (haarch64 freshAArch64).covered (by decide +kernel) (Or.inr ⟨hword, by decide⟩) _
    (by decide) (by decide)

/-- A byte that no slot monitors, slot by slot. -/
theorem not_monitored {ρ : Type} {U : DebugUnit ρ} {M : Monitoring} {s : ρ} {r w : Bool} {x : Nat}
    (h : ∀ i, ∀ k ∈ U.table s i, M.byte k x = false) : ¬ U.Monitored M s r w x := by
  rintro ⟨i, k, hk, hbyte, -⟩
  rw [h i k hk] at hbyte
  cases hbyte

/-- Three bytes on X64 are set as one, and sixteen on AArch64 as eight; the calls say that they were
set. -/
theorem long_watchpoints_cut :
    ((X64.addWatchpoint 0x1000 3 false true freshX64).1 = true ∧
        ¬ X64.debugUnit.Monitored X64.monitoring (X64.addWatchpoint 0x1000 3 false true freshX64).2
        false true 0x1001) ∧
      (AArch64.addWatchpoint 0x1000 16 false true freshAArch64).1 = true ∧
        ¬ AArch64.debugUnit.Monitored AArch64.monitoring
        (AArch64.addWatchpoint 0x1000 16 false true freshAArch64).2
          false true 0x1008 := by
  refine ⟨⟨by decide +kernel, not_monitored ?_⟩, by decide +kernel, not_monitored ?_⟩
  · decide +kernel
  · decide +kernel

end UefiDebugger
