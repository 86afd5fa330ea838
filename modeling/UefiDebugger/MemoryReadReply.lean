import UefiDebugger.CommandRuns

/-!
# Replies to memory reads

The chunk loop of an `m` command fills the scratch buffer with `RangeLength` bytes and then spells
`Length` of it, whatever is left of the command.  With one chunk the two are the same and the reply
is the memory. With more, the first round already reads the scratch buffer to offset `Length`.
-/
namespace UefiDebugger
open HexText ByteString PatchedMemory StateEffect

variable {σ : Type}

/-! ## Spelling a chunk -/

theorem hexChar_high : ∀ b : UInt8, hexChar ((b &&& 0xF0) >>> 4) = digit (b.toNat / 16) :=
  forall_byte (by decide +kernel)

theorem hexChar_low : ∀ b : UInt8, hexChar (b &&& 0xF) = digit (b.toNat % 16) :=
  forall_byte (by decide +kernel)

/-- The inner loop of a read: `mResponse` holds the spelling of the bytes looked at, and the scratch
buffer was read up to their end. -/
theorem encodeRange_run : ∀ (bs : List UInt8) (i r : Nat) (s : Stub σ),
    Holds s.mScratch.bytes i bs → ∃ b top rtop,
      (encodeRange bs.length i r).run s = (r + 2 * bs.length, { s with
        mScratch := s.mScratch.mark top
        mResponseFull := b
        mResponseTop := rtop }) ∧
      b.bytes = store s.mResponseFull.bytes (1 + r) (spell bs) ∧
      top ≤ i + bs.length ∧ (bs ≠ [] → top = i + bs.length) ∧
      rtop ≤ max s.mResponseTop (r + 2 * bs.length)
  | [], i, r, s, _ => by
      refine ⟨s.mResponseFull, 0, s.mResponseTop, ?_, rfl, Nat.zero_le _, fun h => absurd rfl h,
        Nat.le_max_left _ _⟩
      simp [encodeRange, ByteBuffer.mark]
  | v :: bs, i, r, s, h => by
      obtain ⟨hv, hbs⟩ := h
      obtain ⟨b, top, rtop, hrun, hb, htop, hlast, hr⟩ := encodeRange_run bs (i + 1) (r + 2)
        { s with
          mScratch := s.mScratch.mark (i + 1)
          mResponseFull := (s.mResponseFull.write (1 + r) (digit (v.toNat / 16))).write
            (1 + (r + 1)) (digit (v.toNat % 16))
          mResponseTop := max (max s.mResponseTop (r + 1)) (r + 1 + 1) } hbs
      refine ⟨b, max (i + 1) top, rtop, ?_, ?_, ?_, ?_, ?_⟩
      · rw [List.length_cons, encodeRange]
        simp only [readScratch, writeResponse, run_bind, run_modifyGet, run_modify, hv,
          hexChar_high, hexChar_low, hrun, ByteBuffer.mark_mark]
        rw [show r + 2 + 2 * bs.length = r + 2 * (bs.length + 1) from by omega]
      · rw [hb]
        rfl
      · rw [List.length_cons]
        omega
      · intro _
        rw [List.length_cons]
        rcases bs with _ | ⟨v', bs⟩
        · simp only [List.length_nil] at htop ⊢
          omega
        · have := hlast (List.cons_ne_nil _ _)
          omega
      · rw [List.length_cons]
        simp only at hr
        omega

/-! ## One round -/

/-- From `s` to `s₁` the chunk `Data` was stored at the front of the scratch buffer, and no reply
begun. -/
structure Fetched (Data : List UInt8) (s s₁ : Stub σ) : Prop where
  scratch : s₁.mScratch = s.mScratch.writeAll 0 Data
  output : s₁.output = s.output
  response : s₁.mResponseFull = s.mResponseFull
  top : s₁.mResponseTop = s.mResponseTop

/-- Where the workaround does not apply, a chunk is asked of memory, and is what memory holds if
that succeeds. -/
theorem readRange_run (P : Platform σ) {a n : Nat} (hw : windbgWorkaround P a n = false)
    (s : Stub σ) : ∃ s₁, (readRange P a n).run s = ((P.dbgReadMemory a n s.target).1, s₁) ∧
      s₁.target = (P.dbgReadMemory a n s.target).2.2 ∧
      Fetched (P.dbgReadMemory a n s.target).2.1 s s₁ := by
  rw [readRange, hw]
  exact ⟨_, rfl, rfl, rfl, rfl, rfl, rfl⟩

theorem windbgWorkaround_off {P : Platform σ} (hw : P.pcdEnableWindbgWorkarounds = false)
    (a n : Nat) :
    windbgWorkaround P a n = false := by simp [windbgWorkaround, hw]

theorem writeAll_readTop : ∀ (bs : List UInt8) (b : ByteBuffer) (i : Nat),
    (b.writeAll i bs).readTop = b.readTop
  | [], _, _ => rfl
  | v :: bs, b, i => writeAll_readTop bs (b.write i v) (i + 1)

/-- A round that goes on: it spells `Length` bytes of the scratch buffer, of which the chunk is the
front, and reads the scratch buffer up to offset `Length`. -/
theorem memoryReadLoop_round (P : Platform σ) (fuel Address r : Nat) {Length : Nat}
    (hL : 0 < Length) {s s₁ : Stub σ} {Data : List UInt8}
    (hrange : (readRange P Address (min Length scratchSize)).run s = (true, s₁))
    (hfetched : Fetched Data s s₁) : ∃ s', (memoryReadLoop P (fuel + 1) Address Length r).run s =
        (memoryReadLoop P fuel ((Address + min Length scratchSize) % 2 ^ 64)
          (Length - min Length scratchSize) (r + 2 * Length)).run s' ∧
      s'.output = s.output ∧ s'.target = s₁.target ∧
      s'.mScratch.readTop = max s.mScratch.readTop Length ∧
      s'.mResponseTop ≤ max s.mResponseTop (r + 2 * Length) ∧
      s'.mResponseFull.bytes = store s.mResponseFull.bytes (1 + r)
        (spell (slice (store s.mScratch.bytes 0 Data) 0 Length)) := by
  rw [memoryReadLoop, if_neg (by omega), run_bind, hrange, if_pos rfl]
  obtain ⟨b, top, rtop, hrun, hb, htop, hlast, hr⟩ :=
    encodeRange_run (slice s₁.mScratch.bytes 0 Length) 0 r s₁ (holds_slice ..)
  rw [slice_length] at hrun htop hlast hr
  have hne : slice s₁.mScratch.bytes 0 Length ≠ [] := by
    intro he
    have := congrArg List.length he
    rw [slice_length, List.length_nil] at this
    omega
  refine ⟨{ s₁ with mScratch := s₁.mScratch.mark top, mResponseFull := b, mResponseTop := rtop },
    ?_, hfetched.output, rfl, ?_, ?_, ?_⟩
  · rw [run_bind, hrun]
  · show max s₁.mScratch.readTop top = _
    rw [hlast hne, Nat.zero_add, hfetched.scratch]
    exact congrArg (max · Length) (writeAll_readTop ..)
  · rwa [hfetched.top] at hr
  · rwa [hfetched.scratch, hfetched.response, ByteBuffer.writeAll_bytes] at hb

theorem memoryReadLoop_done (P : Platform σ) (fuel Address r : Nat) (s : Stub σ) :
    (memoryReadLoop P fuel Address 0 r).run s = (some r, s) := by
  cases fuel <;> rfl

/-! ## One chunk -/

theorem spell_ne_zero (bs : List UInt8) : (0 : UInt8) ∉ spell bs := fun h =>
  absurd (isDigit_of_mem_spell h) (by decide)

/-- Bytes that are spelled in `mResponse` are what is sent. -/
theorem reply_spelled {Data : List UInt8} {s : Stub σ}
    (hheld : Holds s.mResponseFull.bytes 1 (spell Data))
    (hshort : 2 * Data.length < pcdMaximumAsciiStringLength) :
    ((sendGdbResponse .mResponse).run ((writeResponse (2 * Data.length) 0).run s).2).2.output =
    s.output ++ [.packet (gdbFrame (spell Data))] := by
  rw [← spell_length] at hshort ⊢
  have hterminated : Holds ((writeResponse (spell Data).length 0).run s).2.mResponseFull.bytes 1
      (spell Data ++ [0]) :=
    holds_snoc hheld 0
  exact output_sendGdbResponse_string hterminated (spell_ne_zero Data) hshort

/-- A read of one chunk leaves the spelling of the chunk in `mResponse`. -/
theorem memoryReadLoop_chunk (P : Platform σ) {Address Length : Nat} (hpos : 0 < Length)
    (hL : Length ≤ scratchSize) {s s₁ : Stub σ} {Data : List UInt8} (hlen : Data.length = Length)
    (hrange : (readRange P Address Length).run s = (true, s₁)) (hfetched : Fetched Data s s₁) :
    ∃ s', (memoryReadLoop P Length Address Length 0).run s = (some (2 * Length), s') ∧
      s'.output = s.output ∧ s'.target = s₁.target ∧
      s'.mScratch.readTop ≤ max s.mScratch.readTop Length ∧
      s'.mResponseTop ≤ max s.mResponseTop (2 * Length) ∧
      Holds s'.mResponseFull.bytes 1 (spell Data) := by
  obtain ⟨fuel, rfl⟩ : ∃ fuel, Length = fuel + 1 := ⟨Length - 1, by omega⟩
  have hmin : min (fuel + 1) scratchSize = fuel + 1 := Nat.min_eq_left hL
  rw [← hmin] at hrange
  obtain ⟨s', hrun, hout, htarget, htop, hr, hbytes⟩ :=
    memoryReadLoop_round P fuel Address 0 hpos hrange hfetched
  rw [hmin, Nat.sub_self, memoryReadLoop_done, Nat.zero_add] at hrun
  refine ⟨s', hrun, hout, htarget, Nat.le_of_eq htop, ?_, ?_⟩
  · rwa [Nat.zero_add] at hr
  · have hslice : slice (store s.mScratch.bytes 0 Data) 0 (fuel + 1) = Data := by
      rw [← hlen]
      exact (holds_store ..).slice_eq
    rw [hbytes, hslice]
    exact holds_store ..

/-- A read of one chunk is answered by the chunk. -/
theorem memoryReadTransfer_chunk (P : Platform σ) {Address Length : Nat} (hpos : 0 < Length)
    (hL : Length ≤ scratchSize) {s s₁ : Stub σ} {Data : List UInt8} (hlen : Data.length = Length)
    (hrange : (readRange P Address Length).run s = (true, s₁)) (hfetched : Fetched Data s s₁) :
    let t := ((memoryReadTransfer P Address Length).run s).2
    t.output = s.output ++ [.packet (gdbFrame (spell Data))] ∧ t.target = s₁.target ∧
      t.mScratch.readTop ≤ max s.mScratch.readTop Length ∧
      t.mResponseTop ≤ max s.mResponseTop (2 * Length + 1) := by
  obtain ⟨s', hrun, hout, htarget, htop, hr, hheld⟩ :=
    memoryReadLoop_chunk P hpos hL hlen hrange hfetched
  intro t
  have ht : t = ((sendGdbResponse .mResponse).run
      ((writeResponse (2 * Length) 0).run s').2).2 := by
    show ((memoryReadTransfer P Address Length).run s).2 = _
    rw [memoryReadTransfer, run_bind, hrun]
    rfl
  refine ⟨?_, ?_, ?_, ?_⟩
  · have hshort : 2 * Data.length < pcdMaximumAsciiStringLength := by
      unfold scratchSize at hL
      unfold pcdMaximumAsciiStringLength
      omega
    have hreply := reply_spelled hheld hshort
    rw [hlen] at hreply
    rw [ht, hreply, hout]
  · have hkeep : Keeps Stub.target (sendGdbResponse .mResponse : StubM σ Unit) :=
      keeps_reply (fun _ _ _ _ _ _ => rfl) _
    rw [ht]
    exact (hkeep _).trans htarget
  · have hkeep : Keeps (fun s => s.mScratch.readTop) (sendGdbResponse .mResponse : StubM σ Unit) :=
      keeps_reply (fun _ _ _ _ _ _ => rfl) _
    rw [ht]
    exact (Nat.le_of_eq (hkeep _)).trans htop
  · have hkeep : Keeps (fun s => s.mResponseTop) (sendGdbResponse .mResponse : StubM σ Unit) :=
      keeps_reply (fun _ _ _ _ _ _ => rfl) _
    rw [ht]
    refine (Nat.le_of_eq (hkeep _)).trans ?_
    show max s'.mResponseTop (2 * Length + 1) ≤ _
    omega

/-- The first access of a read succeeds. -/
def FirstReadSucceeds (P : Platform σ) (Address Length : Nat) (s : Stub σ) : Prop :=
  0 < Length → (P.dbgReadMemory Address (min Length scratchSize) s.target).1 = true

/-- A read of no bytes is answered by none. -/
theorem memoryReadTransfer_zero (P : Platform σ) (Address : Nat) (s : Stub σ) :
    let t := ((memoryReadTransfer P Address 0).run s).2
    t.output = s.output ++ [.packet (gdbFrame [])] ∧ t.mScratch.readTop = s.mScratch.readTop ∧
      t.mResponseTop = max s.mResponseTop 1 := by
  have hzero : ((writeResponse 0 0).run s).2.mResponseFull.bytes 1 = 0 := by
    show Function.update s.mResponseFull.bytes 1 0 1 = 0
    exact Function.update_self ..
  have hempty : cString ((writeResponse 0 0).run s).2.mResponseFull.bytes
      pcdMaximumAsciiStringLength 1 = [] := by
    have hheld : Holds ((writeResponse 0 0).run s).2.mResponseFull.bytes 1 ([] ++ [0]) :=
      ⟨hzero, trivial⟩
    exact cString_of_holds hheld (by decide)
  refine ⟨?_, ?_, ?_⟩
  · show ((sendGdbResponse .mResponse).run ((writeResponse 0 0).run s).2).2.output = _
    rw [output_sendGdbResponse_mResponse, hempty]
    rfl
  · exact keeps_reply (π := fun s => s.mScratch.readTop) (fun _ _ _ _ _ _ => rfl) .mResponse
      ((writeResponse 0 0).run s).2
  · exact keeps_reply (π := fun s => s.mResponseTop) (fun _ _ _ _ _ _ => rfl) .mResponse
      ((writeResponse 0 0).run s).2

/-- Without the workaround, a read of at most one chunk is answered by the memory. -/
theorem memoryReadTransfer_memory (P : Platform σ) (hw : P.pcdEnableWindbgWorkarounds = false)
    {Address Length : Nat} (hL : Length ≤ scratchSize) {s : Stub σ}
    (hread : FirstReadSucceeds P Address Length s) :
    let t := ((memoryReadTransfer P Address Length).run s).2
    t.output = s.output ++
        [.packet (gdbFrame (spell (readBlock (2 ^ 64) (P.view s.target) Address Length)))] ∧
      P.view t.target = P.view s.target ∧
      t.mScratch.readTop ≤ max s.mScratch.readTop Length ∧
      t.mResponseTop ≤ max s.mResponseTop (2 * Length + 1) := by
  rcases Nat.eq_zero_or_pos Length with rfl | hpos
  · obtain ⟨hout, htop, hr⟩ := memoryReadTransfer_zero P Address s
    have htarget := keeps_reply (π := Stub.target) (fun _ _ _ _ _ _ => rfl) .mResponse
      ((writeResponse 0 0).run s).2
    exact ⟨hout, congrArg P.view htarget, by omega, by omega⟩
  · have hok := hread hpos
    rw [Nat.min_eq_left hL] at hok
    obtain ⟨s₁, hrange, htarget, hfetched⟩ :=
      readRange_run P (windbgWorkaround_off hw Address Length) s
    rw [hok] at hrange
    rw [P.read_true _ _ _ hok] at hfetched
    obtain ⟨hout, ht, htop, hr⟩ :=
      memoryReadTransfer_chunk P hpos hL (readBlock_length ..) hrange hfetched
    exact ⟨hout, by rw [ht, htarget, P.read_view], htop, hr⟩

/-! ## More than one chunk -/

section Scratch
variable {k : Nat}

theorem scratch_of_keeps {α : Type} {m : StubM σ α} (h : Keeps (fun s => s.mScratch.readTop) m) :
    Ensures (fun s => k ≤ s.mScratch.readTop) m fun _ s => k ≤ s.mScratch.readTop :=
  h.ensures fun top => k ≤ top

theorem scratch_sendGdbResponse (r : Response) :
    Keeps (fun s => s.mScratch.readTop) (sendGdbResponse r : StubM σ Unit) :=
  keeps_reply (fun _ _ _ _ _ _ => rfl) r

theorem scratch_encodeRange : ∀ n i r, Ensures (fun s => k ≤ s.mScratch.readTop)
    (encodeRange n i r : StubM σ Nat) fun _ s => k ≤ s.mScratch.readTop
  | 0, _, _ => ensures_pure fun _ hs => hs
  | n + 1, i, r => by
      have hread : Ensures (fun s => k ≤ s.mScratch.readTop) (readScratch i : StubM σ UInt8)
          fun _ s => k ≤ s.mScratch.readTop := fun s hs => hs.trans (Nat.le_max_left _ _)
      exact ensures_bind hread fun _ =>
        ensures_bind (scratch_of_keeps fun _ => rfl) fun _ =>
          ensures_bind (scratch_of_keeps fun _ => rfl) fun _ => scratch_encodeRange n _ _

theorem scratch_readRange (P : Platform σ) (a n : Nat) :
    Keeps (fun s => s.mScratch.readTop) (readRange P a n) := by
  have hstore : ∀ Data, Keeps (fun s => s.mScratch.readTop) (storeScratch Data : StubM σ Unit) :=
    fun Data s => writeAll_readTop Data s.mScratch 0
  exact keeps_ite (keeps_bind (hstore _) fun _ => keeps_pure _)
    (keeps_bind (keeps_modifyGet fun _ => rfl) fun _ =>
      keeps_bind (hstore _) fun _ => keeps_pure _)

/-- What was read of the scratch buffer stays read. -/
theorem scratch_memoryReadLoop (P : Platform σ) :
    ∀ fuel a l r, Ensures (fun s => k ≤ s.mScratch.readTop) (memoryReadLoop P fuel a l r)
      fun _ s => k ≤ s.mScratch.readTop
  | 0, _, _, _ => ensures_pure fun _ hs => hs
  | fuel + 1, _, _, _ => ensures_ite (fun _ => ensures_pure fun _ hs => hs) fun _ =>
      ensures_bind (scratch_of_keeps (scratch_readRange P _ _)) fun _ =>
        ensures_ite
          (fun _ => ensures_bind (scratch_encodeRange _ _ _) fun _ =>
            scratch_memoryReadLoop P fuel _ _ _)
          (fun _ => ensures_bind (scratch_of_keeps (scratch_sendGdbResponse _)) fun _ =>
            ensures_pure fun _ hs => hs)

end Scratch

/-- A read whose first access succeeds reads the scratch buffer up to offset `Length`. -/
theorem memoryReadTransfer_scratch (P : Platform σ) (hw : P.pcdEnableWindbgWorkarounds = false)
    {Address Length : Nat} (hL : 0 < Length) {s : Stub σ}
    (hread : FirstReadSucceeds P Address Length s) :
    Length ≤ ((memoryReadTransfer P Address Length).run s).2.mScratch.readTop := by
  obtain ⟨fuel, rfl⟩ : ∃ fuel, Length = fuel + 1 := ⟨Length - 1, by omega⟩
  obtain ⟨s₁, hrange, -, hfetched⟩ :=
    readRange_run P (windbgWorkaround_off hw Address (min (fuel + 1) scratchSize)) s
  rw [hread hL] at hrange
  obtain ⟨s', hrun, -, -, htop, -⟩ := memoryReadLoop_round P fuel Address 0 hL hrange hfetched
  rw [memoryReadTransfer, run_bind, hrun]
  have hs' : fuel + 1 ≤ s'.mScratch.readTop := by omega
  have hloop := scratch_memoryReadLoop P fuel
    ((Address + min (fuel + 1) scratchSize) % 2 ^ 64) (fuel + 1 - min (fuel + 1) scratchSize)
    (0 + 2 * (fuel + 1)) s' hs'
  generalize (memoryReadLoop P fuel _ _ _).run s' = r at hloop
  obtain ⟨done, s''⟩ := r
  cases done with
  | none => exact hloop
  | some RespIndex =>
    have hreply := scratch_of_keeps (k := fuel + 1) (scratch_sendGdbResponse (σ := σ) .mResponse)
    exact hreply ((writeResponse RespIndex 0).run s'').2 hloop

/-! ## The command -/

/-- From `s` to `t` a read of `Length` bytes at `Address` was answered as it should be, inside the
two buffers. -/
structure ReadReplied (P : Platform σ) (Address Length : Nat) (s t : Stub σ) : Prop where
  reply : 2 * Length ≤ maxResponseSize → t.output = s.output ++
    [.packet (gdbFrame (spell (readBlock (2 ^ 64) (P.view s.target) Address Length)))]
  tooLong : maxResponseSize < 2 * Length →
    ∃ e, t.output = s.output ++ [.packet (gdbFrame (errorString e))]
  scratch : t.mScratch.readTop ≤ scratchSize
  response : t.mResponseTop ≤ maxResponseSize + 1

/-- Every read inside the range succeeds. -/
def RangeReadable (P : Platform σ) (Address Length : Nat) (t : σ) : Prop :=
  ∀ a n, Address ≤ a → a + n ≤ Address + Length → (P.dbgReadMemory a n t).1 = true

theorem RangeReadable.first {P : Platform σ} {Address Length : Nat} {s : Stub σ}
    (h : RangeReadable P Address Length s.target) : FirstReadSucceeds P Address Length s :=
  fun _ => h Address _ (Nat.le_refl _) (by omega)

/-- An `m` command with a hexadecimal address and length is their transfer. -/
theorem memoryRead_run (P : Platform σ) {s : Stub σ} {as ls : List UInt8} (ha : Digits as)
    (hl : Digits ls) (h : Payload s.mRequest (char 'm' :: (as ++ char ',' :: ls))) :
    ∃ z s', (executeGdbCommand P 1 ((as ++ char ',' :: ls).length + 1)).run s =
      (memoryReadTransfer P (value as) (value ls)).run s' ∧ Parsing 2 z s s' := by
  obtain ⟨s1, hrun1, h1⟩ := executeGdbCommand_run P h
  have hdispatch : dispatchGdbCommand P (char 'm') 1 ((as ++ char ',' :: ls).length + 1) =
      processMemoryCommand P false 2 (as ++ char ',' :: ls).length := rfl
  obtain ⟨z, s2, hrun2, h2⟩ := h1.processMemoryRead P
  refine ⟨z, s2, ?_, h2⟩
  rw [hrun1, hdispatch, hrun2, parseMemoryRead_digits P ha hl, finishMemoryRead]

/-- **When a memory read is answered correctly.**  With the Windbg workaround off and the range
readable, an `m` command with a hexadecimal address and length replies with the memory, or with an
error if that does not fit, and stays inside its buffers, exactly when the length is at most the
size of the scratch buffer. -/
theorem memoryRead_replied_iff (P : Platform σ) (hw : P.pcdEnableWindbgWorkarounds = false)
    {s : Stub σ} {as ls : List UInt8} (ha : Digits as) (hl : Digits ls)
    (h : Payload s.mRequest (char 'm' :: (as ++ char ',' :: ls)))
    (hscratch : s.mScratch.readTop ≤ scratchSize) (hresponse : s.mResponseTop ≤ maxResponseSize + 1)
    (hread : RangeReadable P (value as) (value ls) s.target) :
    ReadReplied P (value as) (value ls) s
        ((executeGdbCommand P 1 ((as ++ char ',' :: ls).length + 1)).run s).2 ↔
      value ls ≤ scratchSize := by
  obtain ⟨z, s', hrun, hparsing⟩ := memoryRead_run P ha hl h
  have hsame := hparsing.same
  have htarget : s'.target = s.target := by rw [hsame]
  have hfirst : FirstReadSucceeds P (value as) (value ls) s' := (htarget ▸ hread).first
  rw [hrun]
  constructor
  · intro hreplied
    by_contra hlong
    have hpos : 0 < value ls := by omega
    have hfar := memoryReadTransfer_scratch P hw hpos hfirst
    have := hreplied.scratch
    omega
  · intro hshort
    obtain ⟨hout, -, htop, hr⟩ := memoryReadTransfer_memory P hw hshort hfirst
    have houtput : s'.output = s.output := by rw [hsame]
    have hscratch' : s'.mScratch = s.mScratch := by rw [hsame]
    have hresponse' : s'.mResponseTop = s.mResponseTop := by rw [hsame]
    rw [houtput, htarget] at hout
    have hsize : 2 * value ls ≤ maxResponseSize := by
      unfold scratchSize at hshort
      unfold maxResponseSize
      omega
    refine ⟨fun _ => hout, fun hbig => absurd hbig (by omega), ?_, ?_⟩
    · rw [hscratch'] at htop
      omega
    · rw [hresponse'] at hr
      omega

/-! ## A read of two chunks -/

/-- `m0,401` is about to be executed. -/
def readOfTwoChunks : Stub FlatMachine :=
  { Stub.initial ⟨fun _ => 0, []⟩ with mRequest := requestOf (text "m0,401") }

theorem digits_zero : Digits (text "0") := .of_all (by decide)

theorem digits_two_chunks : Digits (text "401") := .of_all (by decide)

theorem readOfTwoChunks_payload :
    Payload readOfTwoChunks.mRequest (char 'm' :: (text "0" ++ char ',' :: text "401")) :=
  payload_requestOf (by decide)

theorem readOfTwoChunks_readable :
    RangeReadable flatPlatform (value (text "0")) (value (text "401")) readOfTwoChunks.target :=
  fun _ _ _ _ => rfl

/-- Not every read is answered correctly: this one takes `0x401` bytes off a scratch buffer of
`0x400`. -/
theorem long_read_leaves_scratch :
    ¬ ∀ (s : Stub FlatMachine) (as ls : List UInt8), Digits as → Digits ls →
      Payload s.mRequest (char 'm' :: (as ++ char ',' :: ls)) →
      s.mScratch.readTop ≤ scratchSize → s.mResponseTop ≤ maxResponseSize + 1 →
      RangeReadable flatPlatform (value as) (value ls) s.target →
        ReadReplied flatPlatform (value as) (value ls) s
          ((executeGdbCommand flatPlatform 1 ((as ++ char ',' :: ls).length + 1)).run s).2 := by
  intro h
  have hreplied := h readOfTwoChunks (text "0") (text "401") digits_zero digits_two_chunks
    readOfTwoChunks_payload (Nat.zero_le _) (Nat.zero_le _) readOfTwoChunks_readable
  obtain ⟨z, s', hrun, hparsing⟩ :=
    memoryRead_run flatPlatform digits_zero digits_two_chunks readOfTwoChunks_payload
  have htarget : s'.target = readOfTwoChunks.target := by rw [hparsing.same]
  have hfar := memoryReadTransfer_scratch flatPlatform rfl (show 0 < value (text "401") by decide)
    (htarget ▸ readOfTwoChunks_readable).first
  have hnear := hreplied.scratch
  rw [hrun] at hnear
  exact absurd (hfar.trans hnear) (by decide)

theorem memoryRead_replied_iff_two_chunks :
    ReadReplied flatPlatform (value (text "0")) (value (text "401")) readOfTwoChunks
        ((executeGdbCommand flatPlatform 1 ((text "0" ++ char ',' :: text "401").length + 1)).run
          readOfTwoChunks).2 ↔
      value (text "401") ≤ scratchSize :=
  memoryRead_replied_iff flatPlatform rfl digits_zero digits_two_chunks readOfTwoChunks_payload
    (Nat.zero_le _) (Nat.zero_le _) readOfTwoChunks_readable

end UefiDebugger
