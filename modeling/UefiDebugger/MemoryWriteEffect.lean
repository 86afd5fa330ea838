import UefiDebugger.CommandRuns
import UefiDebugger.BreakpointTable

/-!
# What a memory write does

On digits, `HexToByte` reads the byte they spell, and the chunk loop of an `M` command stores one
chunk after the other.  When its accesses succeed, the chunks add up to the block the digits spell,
and nothing but memory is touched.
-/
namespace UefiDebugger
open HexText ByteString PatchedMemory StateEffect

variable {σ : Type}

/-! ## Digits to bytes -/

theorem hexCharValue_digit : ∀ c : UInt8, isDigit c = true →
    hexCharValue c = (UInt8.ofNat (digitValue c), true) :=
  forall_byte (by decide +kernel)

theorem nibbles : ∀ a < 16, ∀ b < 16,
    (UInt8.ofNat a <<< 4) ||| UInt8.ofNat b = UInt8.ofNat (16 * a + b) := by decide +kernel

/-- On two digits `HexToByte` asserts nothing wrong and reads their byte. -/
theorem hexToByte_run {s : Stub σ} {v : Nat} {c d : UInt8} (h : Holds s.mRequest.bytes v [c, d])
    (hc : isDigit c = true) (hd : isDigit d = true) :
    (hexToByte v).run s = (readByte c d, { s with
      mRequest := s.mRequest.mark (max (v + 1) (v + 1 + 1)) }) := by
  have hv := nibbles _ (digitValue_lt c hc) _ (digitValue_lt d hd)
  simp only [hexToByte, readRequest, run_bind, run_modifyGet, assert_run, h.1, h.2.1,
    hexCharValue_digit c hc, hexCharValue_digit d hd, ByteBuffer.mark_bytes, ByteBuffer.mark_mark,
    if_true, run_pure, hv, readByte]

/-- Two digits, and those behind them. -/
theorem exists_pair {ds : List UInt8} {n : Nat} (h : ds.length = 2 * (n + 1)) :
    ∃ c d ds', ds = c :: d :: ds' ∧ ds'.length = 2 * n := by
  rcases ds with _ | ⟨c, _ | ⟨d, ds⟩⟩
  · simp at h
  · simp at h
    omega
  · exact ⟨c, d, ds, rfl, by simp at h; omega⟩

/-- The inner loop of a write: the scratch buffer holds the bytes the digits spell. -/
theorem decodeRange_run : ∀ (n i v : Nat) (ds : List UInt8) (s : Stub σ), ds.length = 2 * n →
    (∀ c ∈ ds, isDigit c = true) → Holds s.mRequest.bytes v ds →
    ∃ b sc, (decodeRange n i v).run s = (v + 2 * n, { s with mRequest := b, mScratch := sc }) ∧
      b.bytes = s.mRequest.bytes ∧ sc.bytes = store s.mScratch.bytes i (readBytes ds)
  | 0, i, v, ds, s, hlen, _, _ => by
      obtain rfl := List.length_eq_zero_iff.mp hlen
      exact ⟨s.mRequest, s.mScratch, rfl, rfl, rfl⟩
  | n + 1, i, v, ds, s, hlen, hd, h => by
      obtain ⟨c, d, ds, rfl, hrest⟩ := exists_pair hlen
      have hc : isDigit c = true := hd c (by simp)
      have hd' : isDigit d = true := hd d (by simp)
      set s1 : Stub σ := { s with
        mRequest := s.mRequest.mark (max (v + 1) (v + 1 + 1))
        mScratch := s.mScratch.write i (readByte c d) } with hs1
      obtain ⟨b, sc, hrun, hb, hsc⟩ := decodeRange_run n (i + 1) (v + 2) ds s1
        hrest (fun x hx => hd x (by simp [hx])) h.2.2
      refine ⟨b, sc, ?_, hb, hsc⟩
      have hbyte := hexToByte_run (s := s) (v := v) ⟨h.1, h.2.1, trivial⟩ hc hd'
      rw [decodeRange, run_bind, hbyte, run_bind]
      show (decodeRange n (i + 1) (v + 2)).run s1 = _
      rw [hrun, show v + 2 + 2 * n = v + 2 * (n + 1) from by omega]

/-! ## The chunk loop -/

/-- One round on digits: their bytes are handed to memory. -/
theorem memoryWriteLoop_round (P : Platform σ) (fuel Address v n : Nat) {Length : Nat}
    (hL : 0 < Length) (hn : n = min Length scratchSize) {ds : List UInt8} {s : Stub σ}
    (hlen : ds.length = 2 * n) (hd : ∀ c ∈ ds, isDigit c = true) (h : Holds s.mRequest.bytes v ds) :
    ∃ s', (memoryWriteLoop P (fuel + 1) Address Length v).run s =
        (if (P.dbgWriteMemory Address (readBytes ds) s.target).1 = true then
          memoryWriteLoop P fuel ((Address + n) % 2 ^ 64) (Length - n) (v + 2 * n)
        else do
          sendGdbError gdbErrorBadMemAddress
          pure false).run s' ∧
      s'.target = (P.dbgWriteMemory Address (readBytes ds) s.target).2 ∧
      s'.mBreakpoints = s.mBreakpoints ∧ s'.mRequest.bytes = s.mRequest.bytes ∧
      s'.failedAsserts = s.failedAsserts ∧ s'.output = s.output ∧
      s'.accesses = s.accesses ++ [⟨.memoryCommand, true, Address, readBytes ds,
        (P.dbgWriteMemory Address (readBytes ds) s.target).1⟩] := by
  obtain ⟨b, sc, hrun, hb, hsc⟩ := decodeRange_run n 0 v ds s hlen hd h
  have hdata : slice sc.bytes 0 n = readBytes ds := by
    have hslice := (holds_store s.mScratch.bytes 0 (readBytes ds)).slice_eq
    rwa [readBytes_length hlen, ← hsc] at hslice
  set s' : Stub σ := { s with
    mRequest := b
    mScratch := sc.mark n
    target := (P.dbgWriteMemory Address (readBytes ds) s.target).2
    accesses := s.accesses ++ [⟨.memoryCommand, true, Address, readBytes ds,
      (P.dbgWriteMemory Address (readBytes ds) s.target).1⟩] }
  refine ⟨s', ?_, rfl, rfl, hb, rfl, rfl, rfl⟩
  rw [memoryWriteLoop, if_neg (by omega), run_bind, ← hn, hrun]
  simp only [scratchData, dbgWriteMemory, run_bind, run_modifyGet, hdata]
  rfl

/-- The loop of an `M` command on the digits of `Length` bytes, when its accesses succeed. -/
theorem memoryWriteLoop_run (P : Platform σ) :
    ∀ (fuel Address Length v : Nat) (ds : List UInt8) (s : Stub σ), Length ≤ fuel →
      ds.length = 2 * Length → (∀ c ∈ ds, isDigit c = true) → Holds s.mRequest.bytes v ds →
      AccessesSucceed s ((memoryWriteLoop P fuel Address Length v).run s).2 →
      P.view ((memoryWriteLoop P fuel Address Length v).run s).2.target =
          writeBlock (2 ^ 64) (P.view s.target) Address (readBytes ds) ∧
        ((memoryWriteLoop P fuel Address Length v).run s).2.mBreakpoints = s.mBreakpoints := by
  intro fuel
  induction fuel with
  | zero =>
    intro Address Length v ds s hfuel hlen _ _ _
    obtain rfl : Length = 0 := Nat.le_zero.mp hfuel
    obtain rfl := List.length_eq_zero_iff.mp hlen
    exact ⟨rfl, rfl⟩
  | succ fuel ih =>
    intro Address Length v ds s hfuel hlen hd h hok
    by_cases hzero : Length = 0
    · subst hzero
      obtain rfl := List.length_eq_zero_iff.mp hlen
      exact ⟨rfl, rfl⟩
    · set n := min Length scratchSize with hn
      have hnL : n ≤ Length := Nat.min_le_left _ _
      have hnpos : 0 < n := Nat.lt_min.mpr ⟨Nat.pos_of_ne_zero hzero, by decide⟩
      -- The digits of this chunk, and those of the rest.
      set as := ds.take (2 * n) with has
      set bs := ds.drop (2 * n) with hbs
      have hsplit : as ++ bs = ds := List.take_append_drop ..
      have halen : as.length = 2 * n := by rw [has, List.length_take]; omega
      have hblen : bs.length = 2 * (Length - n) := by rw [hbs, List.length_drop]; omega
      rw [← hsplit] at h hd
      obtain ⟨hha, hhb⟩ := holds_append.mp h
      obtain ⟨s', hrun, htarget, htable, hbytes, -, -, haccesses⟩ :=
        memoryWriteLoop_round P fuel Address v n (Nat.pos_of_ne_zero hzero) hn halen
        (fun c hc => hd c (List.mem_append_left _ hc)) hha
      rw [hrun] at hok ⊢
      have hprefix : s.accesses <+: s'.accesses := haccesses ▸ List.prefix_append ..
      by_cases hwrite : (P.dbgWriteMemory Address (readBytes as) s.target).1 = true
      · rw [if_pos hwrite] at hok ⊢
        have hrest := (hok.split hprefix (extends_memoryWriteLoop P s'.accesses fuel _ _ _ s'
          (List.prefix_refl _))).2
        rw [halen, ← hbytes] at hhb
        obtain ⟨hview, hbreak⟩ := ih ((Address + n) % 2 ^ 64) (Length - n) (v + 2 * n) bs s'
          (by omega) hblen (fun c hc => hd c (List.mem_append_right _ hc)) hhb hrest
        refine ⟨?_, hbreak.trans htable⟩
        rw [hview, htarget, P.write_true _ _ _ hwrite, writeBlock_mod, ← hsplit,
          readBytes_append bs halen, writeBlock_append, readBytes_length halen]
      · rw [if_neg hwrite] at hok
        have hfail : ((do
            sendGdbError gdbErrorBadMemAddress
            pure false : StubM σ Bool).run s').2.accesses = s'.accesses :=
          accesses_of_device (keeps_sendGdbError gdbErrorBadMemAddress) s'
        exact absurd (hok.all (hfail.trans haccesses) _ (List.mem_singleton_self _)) hwrite

/-- A write of one chunk that memory accepts is answered `OK`. -/
theorem memoryWriteTransfer_chunk (P : Platform σ) {Address Length v : Nat} (hpos : 0 < Length)
    (hL : Length ≤ scratchSize) {ds : List UInt8} {s : Stub σ} (hlen : ds.length = 2 * Length)
    (hd : ∀ c ∈ ds, isDigit c = true) (h : Holds s.mRequest.bytes v ds)
    (hwrite : (P.dbgWriteMemory Address (readBytes ds) s.target).1 = true) :
    let t := ((memoryWriteTransfer P Address Length v).run s).2
    t.output = s.output ++ [.packet (gdbFrame (text "OK"))] ∧
      t.target = (P.dbgWriteMemory Address (readBytes ds) s.target).2 ∧
      t.mBreakpoints = s.mBreakpoints := by
  obtain ⟨fuel, rfl⟩ : ∃ fuel, Length = fuel + 1 := ⟨Length - 1, by omega⟩
  have hmin : fuel + 1 = min (fuel + 1) scratchSize := (Nat.min_eq_left hL).symm
  obtain ⟨s', hrun, htarget, htable, -, -, hout, -⟩ :=
    memoryWriteLoop_round P fuel Address v (fuel + 1) hpos hmin hlen hd h
  have hdone : ∀ a k, (memoryWriteLoop P fuel a 0 k).run s' = (true, s') := fun _ _ => by
    cases fuel <;> rfl
  rw [if_pos hwrite, Nat.sub_self, hdone] at hrun
  intro t
  have ht : t = ((sendGdbResponse (.text (text "OK"))).run s').2 := by
    show ((memoryWriteTransfer P Address (fuel + 1) v).run s).2 = _
    rw [memoryWriteTransfer, run_bind, hrun]
    rfl
  have hdevice := keeps_sendGdbResponse (π := Stub.device) (.text (text "OK")) s'
  rw [ht]
  refine ⟨?_, ?_, ?_⟩
  · rw [output_sendGdbResponse_text, hout]
  · exact (congrArg Device.target hdevice).trans htarget
  · exact (congrArg Device.mBreakpoints hdevice).trans htable

end UefiDebugger
