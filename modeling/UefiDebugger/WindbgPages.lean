import UefiDebugger.MemoryReadReply

/-!
# Reads of the pages Windbg expects to succeed

With `PcdEnableWindbgWorkarounds`, an `m` command does not ask memory for page 0 and for the Windows
shared data page, but answers zeros.  The test is made on the first address of a chunk, and the
whole chunk is zeros if it holds: a read that starts in one of the two pages and ends behind it
hides the bytes of the next page as well.
-/
namespace UefiDebugger
open HexText ByteString PatchedMemory StateEffect

variable {σ : Type}

/-- The address lies in page 0 or in the Windows shared data page. -/
def OnWindbgPage (Address : Nat) : Prop :=
  Address < efiPageSize ∨ Address / efiPageSize * efiPageSize = 0xfffff78000000000

instance (Address : Nat) : Decidable (OnWindbgPage Address) :=
  inferInstanceAs
  (Decidable (Address < efiPageSize ∨ Address / efiPageSize * efiPageSize = 0xfffff78000000000))

/-- The reply of a read of `n` bytes at `a` is an error, or shows each byte as it is in memory, but
for zeros in place of bytes that lie on the two pages. -/
def HidesOnlyWindbgPages (P : Platform σ) (a n : Nat) (s t : Stub σ) : Prop :=
  (∃ e, t.output = s.output ++ [.packet (gdbFrame (errorString e))]) ∨
    ∃ bytes : List UInt8, bytes.length = n ∧
    t.output = s.output ++ [.packet (gdbFrame (spell bytes))] ∧ ∀ i < n,
    bytes[i]? = some (P.view s.target (a + i)) ∨ (OnWindbgPage (a + i) ∧ bytes[i]? = some 0)

/-! ## One chunk -/

/-- The test of the workaround, on a chunk. -/
theorem windbgWorkaround_iff {P : Platform σ} (hw : P.pcdEnableWindbgWorkarounds = true) {a n : Nat}
    (hn : n ≤ scratchSize) : windbgWorkaround P a n = true ↔ OnWindbgPage a := by
  have hpage : n < efiPageSize := by
    unfold scratchSize at hn
    unfold efiPageSize
    omega
  simp [windbgWorkaround, hw, hpage, OnWindbgPage]

/-- A read of one chunk that fails is answered by an error. -/
theorem memoryReadTransfer_fails (P : Platform σ) {a n : Nat} (hpos : 0 < n) (hn : n ≤ scratchSize)
    {s s₁ : Stub σ} (hrange : (readRange P a n).run s = (false, s₁)) (hout : s₁.output = s.output) :
    ((memoryReadTransfer P a n).run s).2.output =
      s.output ++ [.packet (gdbFrame (errorString gdbErrorBadMemAddress))] := by
  obtain ⟨fuel, rfl⟩ : ∃ fuel, n = fuel + 1 := ⟨n - 1, by omega⟩
  have hloop : (memoryReadLoop P (fuel + 1) a (fuel + 1) 0).run s =
      (none, ((sendGdbError gdbErrorBadMemAddress).run s₁).2) := by
    rw [memoryReadLoop, if_neg (by omega), run_bind, Nat.min_eq_left hn, hrange]
    rfl
  have hrun : ((memoryReadTransfer P a (fuel + 1)).run s).2 =
      ((sendGdbError gdbErrorBadMemAddress).run s₁).2 := by
    rw [memoryReadTransfer, run_bind, hloop]
    rfl
  rw [hrun, sendGdbError, output_sendGdbResponse_text, hout]

/-- A read that starts on one of the two pages is answered by zeros. -/
theorem memoryReadTransfer_zeros {P : Platform σ} (hw : P.pcdEnableWindbgWorkarounds = true)
    {a n : Nat} (hpos : 0 < n) (hn : n ≤ scratchSize) (ha : OnWindbgPage a) (s : Stub σ) :
    ((memoryReadTransfer P a n).run s).2.output = s.output ++
    [.packet (gdbFrame (spell (List.replicate n 0)))] := by
  have hrange : (readRange P a n).run s =
      (true, { s with mScratch := s.mScratch.writeAll 0 (List.replicate n 0) }) := by
    rw [readRange, (windbgWorkaround_iff hw hn).mpr ha]
    rfl
  exact (memoryReadTransfer_chunk P hpos hn List.length_replicate hrange ⟨rfl, rfl, rfl, rfl⟩).1

/-- A read that starts elsewhere is answered by memory, or by an error. -/
theorem memoryReadTransfer_asks {P : Platform σ} (hw : P.pcdEnableWindbgWorkarounds = true)
    {a n : Nat} (hpos : 0 < n) (hn : n ≤ scratchSize) (ha : ¬ OnWindbgPage a) (s : Stub σ) :
    (∃ e, ((memoryReadTransfer P a n).run s).2.output = s.output ++
      [.packet (gdbFrame (errorString e))]) ∨ ((memoryReadTransfer P a n).run s).2.output =
        s.output ++ [.packet (gdbFrame (spell (readBlock (2 ^ 64) (P.view s.target) a n)))] := by
  have hoff : windbgWorkaround P a n = false :=
    Bool.eq_false_of_not_eq_true (mt (windbgWorkaround_iff hw hn).mp ha)
  obtain ⟨s₁, hrange, -, hfetched⟩ := readRange_run P hoff s
  cases hok : (P.dbgReadMemory a n s.target).1 with
  | false =>
    rw [hok] at hrange
    exact Or.inl ⟨_, memoryReadTransfer_fails P hpos hn hrange hfetched.output⟩
  | true =>
    rw [hok] at hrange
    rw [P.read_true _ _ _ hok] at hfetched
    exact Or.inr (memoryReadTransfer_chunk P hpos hn (readBlock_length ..) hrange hfetched).1

/-! ## The reply -/

section Reply
variable {P : Platform σ} {a n : Nat} {s t : Stub σ}

/-- What memory holds hides nothing. -/
theorem hidesOnly_memory (hwrap : a + n ≤ 2 ^ 64)
    (h : t.output = s.output ++
      [.packet (gdbFrame (spell (readBlock (2 ^ 64) (P.view s.target) a n)))]) :
    HidesOnlyWindbgPages P a n s t := by
  refine Or.inr ⟨_, readBlock_length .., h, fun i hi => Or.inl ?_⟩
  rw [getElem?_readBlock hi, Nat.mod_eq_of_lt (by omega)]

/-- Zeros hide only the two pages exactly when the bytes elsewhere are zero. -/
theorem hidesOnly_zeros_iff
    (h : t.output = s.output ++ [.packet (gdbFrame (spell (List.replicate n 0)))]) :
    HidesOnlyWindbgPages P a n s t ↔ ∀ x, a ≤ x → x < a + n → OnWindbgPage x ∨
    P.view s.target x = 0 := by
  constructor
  · rintro (⟨e, herror⟩ | ⟨bytes, -, hreply, hbytes⟩) x hax hxn
    · exact absurd (reply_injective (h.symm.trans herror)) (spell_ne_errorString _ e)
    · obtain rfl := spell_injective (reply_injective (h.symm.trans hreply))
      have hzero : (List.replicate n (0 : UInt8))[x - a]? = some 0 :=
        List.getElem?_replicate_of_lt (by omega)
      rcases hbytes (x - a) (by omega) with hmemory | ⟨hpage, -⟩
      · rw [hzero, Nat.add_sub_cancel' hax] at hmemory
        exact Or.inr (Option.some.inj hmemory).symm
      · rw [Nat.add_sub_cancel' hax] at hpage
        exact Or.inl hpage
  · intro hall
    refine Or.inr ⟨_, List.length_replicate, h, fun i hi => ?_⟩
    rw [List.getElem?_replicate_of_lt hi]
    rcases hall (a + i) (by omega) (by omega) with hpage | hzero
    · exact Or.inr ⟨hpage, rfl⟩
    · exact Or.inl (by rw [hzero])

end Reply

/-- **When the workaround hides only its own pages.**  Exactly when the range does not start on one
of the two pages, or every byte of it behind that page is zero in memory as well. -/
theorem windbg_hides_only_iff (P : Platform σ) (hw : P.pcdEnableWindbgWorkarounds = true)
    {s : Stub σ} {as ls : List UInt8} (ha : Digits as) (hl : Digits ls)
    (h : Payload s.mRequest (char 'm' :: (as ++ char ',' :: ls))) (hpos : 1 ≤ value ls)
    (hlength : value ls ≤ 1024) (hwrap : value as + value ls ≤ 2 ^ 64) :
    HidesOnlyWindbgPages P (value as) (value ls) s
    ((executeGdbCommand P 1 ((as ++ char ',' :: ls).length + 1)).run s).2 ↔
      (OnWindbgPage (value as) → ∀ x, value as ≤ x → x < value as + value ls →
        OnWindbgPage x ∨ P.view s.target x = 0) := by
  obtain ⟨z, s', hrun, hparsing⟩ := memoryRead_run P ha hl h
  have hout : s'.output = s.output := by rw [hparsing.same]
  have htarget : s'.target = s.target := by rw [hparsing.same]
  rw [hrun]
  by_cases hpage : OnWindbgPage (value as)
  · have hzeros := memoryReadTransfer_zeros hw hpos hlength hpage s'
    rw [hout] at hzeros
    rw [hidesOnly_zeros_iff hzeros]
    exact ⟨fun hall _ => hall, fun hall => hall hpage⟩
  · refine ⟨fun _ hon => absurd hon hpage, fun _ => ?_⟩
    rcases memoryReadTransfer_asks hw hpos hlength hpage s' with ⟨e, herror⟩ | hreply
    · rw [hout] at herror
      exact Or.inl ⟨e, herror⟩
    · rw [hout, htarget] at hreply
      exact hidesOnly_memory hwrap hreply

/-! ## A read across the end of page 0 -/

/-- The flat machine with the workarounds of Windbg. -/
def windbgPlatform : Platform FlatMachine :=
  { flatPlatform with pcdEnableWindbgWorkarounds := true }

/-- `mfff,2` is about to be executed, and memory is all ones. -/
def readAcrossPageZero : Stub FlatMachine :=
  { Stub.initial ⟨fun _ => 0xFF, []⟩ with mRequest := requestOf (text "mfff,2") }

theorem digits_fff : Digits (text "fff") := .of_all (by decide)

theorem digits_two : Digits (text "2") := .of_all (by decide)

theorem readAcrossPageZero_payload :
    Payload readAcrossPageZero.mRequest (char 'm' :: (text "fff" ++ char ',' :: text "2")) :=
  payload_requestOf (by decide)

/-- The byte at `0x1000` is answered as zero. -/
theorem readAcrossPageZero_hides : ¬ HidesOnlyWindbgPages windbgPlatform (value (text "fff"))
    (value (text "2")) readAcrossPageZero ((executeGdbCommand windbgPlatform 1
      ((text "fff" ++ char ',' :: text "2").length + 1)).run readAcrossPageZero).2 := by
  have hreply : ((executeGdbCommand windbgPlatform 1
      ((text "fff" ++ char ',' :: text "2").length + 1)).run readAcrossPageZero).2.output =
        readAcrossPageZero.output ++ [.packet (gdbFrame (spell (List.replicate 2 0)))] := by
          decide +kernel
  rw [show value (text "2") = 2 from by decide, hidesOnly_zeros_iff hreply]
  intro hall
  rcases hall 0x1000 (by decide) (by decide) with hpage | hzero
  · exact absurd hpage (by decide)
  · exact absurd hzero (by decide)

/-- Not every read hides only the two pages. -/
theorem windbg_hides_next_page :
    ¬ ∀ (s : Stub FlatMachine) (as ls : List UInt8), Digits as → Digits ls →
      Payload s.mRequest (char 'm' :: (as ++ char ',' :: ls)) → 1 ≤ value ls → value ls ≤ 1024 →
      value as + value ls ≤ 2 ^ 64 →
        HidesOnlyWindbgPages windbgPlatform (value as) (value ls) s
          ((executeGdbCommand windbgPlatform 1 ((as ++ char ',' :: ls).length + 1)).run s).2 :=
          fun h =>
  readAcrossPageZero_hides (h readAcrossPageZero (text "fff") (text "2") digits_fff digits_two
    readAcrossPageZero_payload (by decide) (by decide) (by decide))

theorem windbg_hides_only_iff_across :
    HidesOnlyWindbgPages windbgPlatform (value (text "fff")) (value (text "2")) readAcrossPageZero
        ((executeGdbCommand windbgPlatform 1 ((text "fff" ++ char ',' :: text "2").length + 1)).run
          readAcrossPageZero).2 ↔
      (OnWindbgPage (value (text "fff")) → ∀ x, value (text "fff") ≤ x →
        x < value (text "fff") + value (text "2") →
          OnWindbgPage x ∨ windbgPlatform.view readAcrossPageZero.target x = 0) :=
  windbg_hides_only_iff windbgPlatform rfl digits_fff digits_two readAcrossPageZero_payload
  (by decide) (by decide) (by decide)

end UefiDebugger
