import UefiDebugger.RequestBounds
import Mathlib.Data.List.DropRight

/-!
# Packet decoding

What a stream of bytes and timeouts means is said once, without buffers: `decodeStep` keeps the
bytes of the packet under way and judges it when its checksum is complete.  `ProcessInputData`
stores the bytes in `mRequest` and looks three bytes back for the `#`; `ProcessGdbPacket` then looks
for it from the front. `Standing` relates the two, and `receiveAll_decodes` carries it over every
stream.
-/
namespace UefiDebugger
open HexText ByteString StateEffect

variable {σ : Type}

/-! ## The reference decoder -/

/-- What becomes of a packet. -/
inductive Verdict where
  | executed (payload : List UInt8)
  | refused
  deriving DecidableEq, Repr

/-- The payload and the two checksum characters of a complete packet, given the bytes after its `$`:
a packet is complete two bytes after its first `#`. -/
def splitPacket (w : List UInt8) : Option (List UInt8 × UInt8 × UInt8) :=
  match w.dropWhile (· ≠ char '#') with
  | [_, c, d] => some (w.takeWhile (· ≠ char '#'), c, d)
  | _ => none

/-- A complete packet is executed when its checksum is right. -/
def judge (payload : List UInt8) (c d : UInt8) : Verdict :=
  if isDigit c = true ∧ isDigit d = true ∧
      value [c, d] = (payload.map UInt8.toNat).sum % 256 then .executed payload
  else .refused

/-- One event.  The decoder's state is the bytes after the `$` of the packet under way, `none`
outside packets. -/
def decodeStep : Option (List UInt8) → Receive → Option (List UInt8) × List Verdict
  | none, .timeout => (none, [])
  | none, .byte b => (if b = char '$' then some [] else none, [])
  | some _, .timeout => (none, [.refused])
  | some w, .byte b =>
      match splitPacket (w ++ [b]) with
      | some (payload, c, d) => (none, [judge payload c d])
      | none =>
          if maxRequestSize ≤ w.length + 2 then (none, [.refused]) else (some (w ++ [b]), [])

/-- The verdicts on a stream of events. -/
def decode : Option (List UInt8) → List Receive → Option (List UInt8) × List Verdict
  | d, [] => (d, [])
  | d, e :: es =>
      ((decode (decodeStep d e).1 es).1, (decodeStep d e).2 ++ (decode (decodeStep d e).1 es).2)

/-- What the stub lets the outside see of a verdict. -/
def Verdict.render : Verdict → List Output
  | .executed payload => [.ack true, .command payload]
  | .refused => [.ack false]

/-! ## Splitting and judging -/

theorem splitPacket_some {w p : List UInt8} {c d : UInt8} (h : splitPacket w = some (p, c, d)) :
    w = p ++ [char '#', c, d] ∧ char '#' ∉ p := by
  unfold splitPacket at h
  split at h
  · rename_i x c' d' hw
    simp only [Option.some.injEq, Prod.mk.injEq] at h
    obtain ⟨rfl, rfl, rfl⟩ := h
    have hx : x = char '#' := by
      have := List.head?_dropWhile_not (fun b => decide (b ≠ char '#')) w
      rw [hw] at this
      simpa using this
    refine ⟨?_, fun hp => ?_⟩
    · conv_lhs =>
        rw [← List.takeWhile_append_dropWhile (p := fun b => decide (b ≠ char '#')) (l := w)]
      rw [hw, hx]
    · simpa using List.mem_takeWhile_imp hp
  · cases h

theorem splitPacket_none {w : List UInt8} (h : splitPacket w = none) :
    (w.dropWhile (· ≠ char '#')).length ≠ 3 := by
  intro hl
  obtain ⟨x, c, d, hw⟩ := List.length_eq_three.mp hl
  rw [splitPacket, hw] at h
  cases h

/-- A packet that is not complete has fewer than two bytes behind its first `#`. -/
def Open (w : List UInt8) : Prop := (w.dropWhile (· ≠ char '#')).length < 3

theorem open_nil : Open [] := by simp [Open]

theorem Open.snoc_le {w : List UInt8} (h : Open w) (b : UInt8) :
    ((w ++ [b]).dropWhile (· ≠ char '#')).length ≤ 3 := by
  rw [List.dropWhile_append]
  unfold Open at h
  split
  · exact (List.dropWhile_suffix _).length_le.trans (by simp)
  · rw [List.length_append, List.length_singleton]
    omega

theorem Open.snoc {w : List UInt8} (h : Open w) {b : UInt8} (hs : splitPacket (w ++ [b]) = none) :
    Open (w ++ [b]) := Nat.lt_of_le_of_ne (h.snoc_le b) (splitPacket_none hs)

theorem takeWhile_length_le {p : UInt8 → Bool} {x : UInt8} (hx : p x = false) :
    ∀ {w : List UInt8} {i : Nat}, w[i]? = some x → (w.takeWhile p).length ≤ i
  | [], i, _ => Nat.zero_le i
  | y :: w, 0, h => by
      have hy : y = x := by simpa using h
      simp [hy, hx]
  | y :: w, i + 1, h => by
      have := takeWhile_length_le hx (w := w) (i := i) (by simpa using h)
      rw [List.takeWhile_cons]
      split
      · simpa using this
      · simp

/-- In an open packet the byte two before the end is no `#`: the collector does not stop early. -/
theorem Open.lookback {w : List UInt8} (h : Open w) (hl : 3 ≤ w.length) :
    w[w.length - 3]? ≠ some (char '#') := by
  intro he
  have htake := takeWhile_length_le (p := fun b => decide (b ≠ char '#')) (by simp) he
  have hsum := congrArg List.length
    (List.takeWhile_append_dropWhile (p := fun b => decide (b ≠ char '#')) (l := w))
  rw [List.length_append] at hsum
  unfold Open at h
  omega

theorem calculateSum8_toNat (bs : List UInt8) :
    (calculateSum8 bs).toNat = (bs.map UInt8.toNat).sum % 256 := by
  have loop : ∀ (bs : List UInt8) (a : UInt8),
      (bs.foldl (· + ·) a).toNat = (a.toNat + (bs.map UInt8.toNat).sum) % 256 := by
    intro bs
    induction bs with
    | nil =>
      intro a
      have := a.toNat_lt
      simp only [List.foldl_nil, List.map_nil, List.sum_nil]
      omega
    | cons b bs ih =>
      intro a
      rw [List.foldl_cons, ih, UInt8.toNat_add, List.map_cons, List.sum_cons]
      omega
  rw [calculateSum8, loop]
  simp

/-! ## The complete packet -/

/-- The `n` bytes of a packet with payload `p` are in the buffer. -/
structure Complete (b : ByteBuffer) (n : Nat) (p : List UInt8) (c d : UInt8) : Prop where
  length : n = p.length + 4
  fits : n ≤ maxRequestSize
  held : Holds b.bytes 0 (char '$' :: (p ++ [char '#', c, d]))
  clean : char '#' ∉ p

section Complete
variable {b : ByteBuffer} {n : Nat} {p : List UInt8} {c d : UInt8} (h : Complete b n p c d)
include h

theorem Complete.payload : slice b.bytes 1 p.length = p := (holds_append.mp h.held.2).1.slice_eq

theorem Complete.char0 : b.bytes (p.length + 2) = c := by
  have := (holds_append.mp h.held.2).2.2.1
  rwa [show 0 + 1 + p.length + 1 = p.length + 2 from by omega] at this

theorem Complete.char1 : b.bytes (p.length + 3) = d := by
  have := (holds_append.mp h.held.2).2.2.2.1
  rwa [show 0 + 1 + p.length + 1 + 1 = p.length + 3 from by omega] at this

end Complete

/-- The rescan finds the first `#`, or the end of what it was told to look at. -/
theorem findChecksum_run : ∀ (bs : List UInt8) (i : Nat) (s : Stub σ), Holds s.mRequest.bytes i bs →
    ∃ top, (findChecksum bs.length i).run s =
      (i + (bs.takeWhile (· ≠ char '#')).length, { s with mRequest := s.mRequest.mark top })
  | [], i, s, _ => ⟨0, by simp [findChecksum, ByteBuffer.mark]⟩
  | b :: bs, i, s, h => by
      obtain ⟨hb, hbs⟩ := h
      by_cases hc : b = char '#'
      · refine ⟨i + 1, ?_⟩
        simp [findChecksum, readRequest, hb, hc]
      · obtain ⟨top, ih⟩ := findChecksum_run bs (i + 1)
          { s with mRequest := s.mRequest.mark (i + 1) } hbs
        refine ⟨max (i + 1) top, ?_⟩
        simp only [findChecksum, List.length_cons, readRequest, run_bind, run_modifyGet, hb, hc,
          if_false, ih, ByteBuffer.mark_mark, List.takeWhile_cons, ne_eq, not_false_eq_true,
          decide_true, if_true]
        rw [Nat.add_assoc, Nat.add_comm 1]

/-- On a complete packet the rescan and the collector agree on where the payload ends. -/
theorem findChecksum_complete {s : Stub σ} {n : Nat} {p : List UInt8} {c d : UInt8}
    (h : Complete s.mRequest n p c d) :
    ∃ top, (findChecksum (n - 1) 1).run s =
      (p.length + 1, { s with mRequest := s.mRequest.mark top }) := by
  obtain ⟨top, hrun⟩ := findChecksum_run _ 1 s h.held.2
  have htake : (p ++ [char '#', c, d]).takeWhile (· ≠ char '#') = p := by
    rw [List.takeWhile_append_of_pos fun x hx => by
      simpa using fun he : x = char '#' => h.clean (he ▸ hx)]
    simp
  refine ⟨top, ?_⟩
  rw [htake, List.length_append] at hrun
  rw [h.length, Nat.add_comm p.length 1]
  exact hrun

/-- The comparison `ProcessGdbPacket` makes is the reference decoder's. -/
theorem checksum_iff (p : List UInt8) (c d : UInt8) :
    readByte c d = calculateSum8 p ↔ value [c, d] % 256 = (p.map UInt8.toNat).sum % 256 := by
  rw [← UInt8.toNat_inj, calculateSum8_toNat, readByte,
    UInt8.toNat_ofNat']
  simp [value]

theorem value_pair_lt {c d : UInt8} (hc : isDigit c = true) (hd : isDigit d = true) :
    value [c, d] < 256 := by
  have h1 := digitValue_lt c hc
  have h2 := digitValue_lt d hd
  simp only [value, List.foldl_cons, List.foldl_nil]
  omega

theorem judge_eq (p : List UInt8) (c d : UInt8) : judge p c d =
    if isDigit c = true ∧ isDigit d = true ∧ readByte c d = calculateSum8 p then .executed p
    else .refused := by
  refine if_congr ?_ rfl rfl
  rw [checksum_iff]
  refine and_congr_right fun hc => and_congr_right fun hd => ?_
  rw [Nat.mod_eq_of_lt (value_pair_lt hc hd)]

/-- **`ProcessGdbPacket` judges a complete packet as the reference decoder does.** -/
theorem validateGdbPacket_run (P : Platform σ) {s : Stub σ} {n : Nat} {p : List UInt8} {c d : UInt8}
    (h : Complete s.mRequest n p c d) :
    ∃ top, (validateGdbPacket P n).run s =
      match judge p c d with
      | .refused => (none, { s with
          mRequest := s.mRequest.mark top
          output := s.output ++ [.ack false] })
      | .executed payload => (some (p.length + 1), { s with
          mRequest := (s.mRequest.mark top).write (p.length + 1) 0
          mConnectionOccurred := true
          output := s.output ++ [.ack true, .command payload] }) := by
  obtain ⟨top, hfind⟩ := findChecksum_complete (s := { s with mRequest := s.mRequest.mark 1 })
    (n := n) (p := p) (c := c) (d := d) ⟨h.length, h.fits, h.held, h.clean⟩
  have hstart : s.mRequest.bytes 0 = char '$' := h.held.1
  have hlen : ¬ n ≤ p.length + 1 + 2 := by have := h.length; omega
  have hpayload : slice s.mRequest.bytes 1 (p.length + 1 - 1) = p := h.payload
  refine ⟨max (max (max 1 top) (p.length + 1 + 1 + 1)) (p.length + 1 + 2 + 1), ?_⟩
  have hc : s.mRequest.bytes (p.length + 1 + 1) = c := h.char0
  have hd : s.mRequest.bytes (p.length + 1 + 2) = d := h.char1
  -- The terminator is behind the payload, which the record reads again.
  have hkept : slice (Function.update s.mRequest.bytes (p.length + 1) 0) 1 p.length = p :=
    (slice_congr fun j _ hj => Function.update_of_ne (by omega) ..).trans h.payload
  simp only [validateGdbPacket, readRequest, assert, run_bind, run_modifyGet, run_modify, hstart,
    decide_true, if_true, hfind, hlen, if_false, run_get, ByteBuffer.mark_mark,
    ByteBuffer.mark_bytes, hc, hd, hpayload, P.baseLib.bytes_pair, judge_eq]
  by_cases hdig : isDigit c = true ∧ isDigit d = true
  · by_cases hsum : readByte c d = calculateSum8 p
    · simp [hdig, hsum, sendGdbAck, emit, writeRequest, recordCommand, commandArguments, hkept]
    · simp [hdig, hsum, sendGdbAck, emit]
  · have hno : ¬ (isDigit c = true ∧ isDigit d = true ∧ readByte c d = calculateSum8 p) :=
      fun hall => hdig ⟨hall.1, hall.2.1⟩
    rw [if_neg hdig, if_neg hno]
    simp [sendGdbAck, emit]

/-! ## The collector follows the reference decoder -/

/-- The input loop, waiting at a point with a request buffer, is where the reference decoder is. -/
def Standing (b : ByteBuffer) : InputPoint → Option (List UInt8) → Prop
  | .first, d => d = none
  | .returned, d => d = none
  | .next n, d => ∃ w, d = some w ∧ n = w.length + 1 ∧ n < maxRequestSize ∧
      Holds b.bytes 0 (char '$' :: w) ∧ Open w
  | .packet _, _ => False

/-- What one event comes to: the loop waits again, or a packet is complete. -/
inductive Collected (before : List Output) (t : Stub σ) (d : Option (List UInt8)) (e : Receive) :
    InputPoint → Prop
  | waits {point : InputPoint} (standing : Standing t.mRequest point (decodeStep d e).1)
      (decided : decisions t.output =
        decisions before ++ (decodeStep d e).2.flatMap Verdict.render)
      (unexecuted : ∀ p, Verdict.executed p ∉ (decodeStep d e).2) : Collected before t d e point
  | completes {n : Nat} {p : List UInt8} {c d' : UInt8} (complete : Complete t.mRequest n p c d')
      (judged : decodeStep d e = (none, [judge p c d']))
      (decided : decisions t.output = decisions before) : Collected before t d e (.packet n)

theorem decisions_sendGdbResponse (r : Response) (s : Stub σ) :
    decisions ((sendGdbResponse r).run s).2.output = decisions s.output :=
  congrArg Prod.snd (keeps_sendGdbResponse (π := Stub.links) r s)

theorem collected_first (s : Stub σ) (e : Receive) :
    Collected s.output ((receiveFirst e).run s).2 none e ((receiveFirst e).run s).1 := by
  cases e with
  | timeout => exact .waits rfl (by simp [receiveFirst, decodeStep]) (by simp [decodeStep])
  | byte b =>
    by_cases hstart : b = char '$'
    · subst hstart
      have hrun : (receiveFirst (.byte (char '$'))).run s =
          (.next 1, ((writeRequest 0 (char '$')).run s).2) := by
        have h1 : char '$' ≠ char '-' := by decide
        have h2 : char '$' ≠ char '+' := by decide
        simp [receiveFirst, h1, h2]
      have hstanding : Standing ((writeRequest 0 (char '$')).run s).2.mRequest (.next 1)
          (some []) :=
        ⟨[], rfl, rfl, by decide, ⟨Function.update_self 0 _ s.mRequest.bytes, trivial⟩, open_nil⟩
      rw [hrun]
      exact .waits hstanding (by simp [decodeStep, writeRequest]) (by simp [decodeStep])
    · have hpoint : ((receiveFirst (.byte b)).run s).1 = .first ∧
          decisions ((receiveFirst (.byte b)).run s).2.output = decisions s.output := by
        by_cases hres : b = char '-' ∧ s.mResponseAcknowledged = false
        · have hrun : (receiveFirst (.byte b)).run s =
              (.first, ((sendGdbResponse .resend).run ((writeRequest 0 b).run s).2).2) := by
            simp [receiveFirst, hres, writeRequest]
          rw [hrun]
          exact ⟨rfl, decisions_sendGdbResponse _ _⟩
        · by_cases hplus : b = char '+'
          · subst hplus
            have hminus : char '+' ≠ char '-' := by decide
            simp [receiveFirst, writeRequest, hminus]
          · simp [receiveFirst, writeRequest, hres, hplus, hstart]
      rw [hpoint.1]
      exact .waits (by simp [Standing, decodeStep, hstart]) (by simp [hpoint.2, decodeStep])
        (by simp [decodeStep])

/-- With a complete packet stored, the look back finds its `#`. -/
theorem collectorTail_complete {s : Stub σ} {n : Nat} {p : List UInt8} {c d : UInt8}
    (h : Complete s.mRequest n p c d) :
    (collectorTail n).run s = (.packet n, ((readRequest (n - 3)).run s).2) := by
  have hn := h.length
  have hlook : s.mRequest.bytes (n - 3) = char '#' := by
    have := (holds_append.mp h.held.2).2.1
    rwa [show 0 + 1 + p.length = n - 3 from by omega] at this
  have hlong : ¬ n < 4 := by omega
  simp [collectorTail, packetContinues, hlong, readRequest, hlook]

/-- With an open packet stored, the look back does not stop the collector. -/
theorem collectorTail_open {s : Stub σ} {w : List UInt8}
    (h : Holds s.mRequest.bytes 0 (char '$' :: w)) (hopen : Open w) :
    ∃ top, (collectorTail (w.length + 1)).run s =
      if maxRequestSize ≤ w.length + 1 then
        (.returned, { s with
          mRequest := s.mRequest.mark top
          output := s.output ++ [.ack false] })
      else (.next (w.length + 1), { s with mRequest := s.mRequest.mark top }) := by
  by_cases hshort : w.length + 1 < 4
  · refine ⟨0, ?_⟩
    have hmark : s.mRequest.mark 0 = s.mRequest := by simp [ByteBuffer.mark]
    rw [hmark]
    by_cases hfull : maxRequestSize ≤ w.length + 1
    · simp [collectorTail, packetContinues, hshort, hfull, sendGdbAck, emit]
    · simp [collectorTail, packetContinues, hshort, hfull]
  · refine ⟨w.length - 2 + 1, ?_⟩
    have hlook : s.mRequest.bytes (w.length - 2) ≠ char '#' := by
      intro he
      have hget := h.2.get (show w.length - 3 < w.length from by omega)
      rw [show 0 + 1 + (w.length - 3) = w.length - 2 from by omega, he] at hget
      refine hopen.lookback (by omega) ?_
      rw [hget]
      exact List.getElem?_eq_getElem (by omega)
    by_cases hfull : maxRequestSize ≤ w.length + 1
    · simp [collectorTail, packetContinues, hshort, hfull, readRequest, hlook, sendGdbAck, emit]
    · simp [collectorTail, packetContinues, hshort, hfull, readRequest, hlook]

theorem collected_next {s : Stub σ} {n : Nat} {d : Option (List UInt8)}
    (h : Standing s.mRequest (.next n) d) (e : Receive) :
    Collected s.output ((receiveNext n e).run s).2 d e ((receiveNext n e).run s).1 := by
  obtain ⟨w, rfl, rfl, hn, hheld, hopen⟩ := h
  cases e with
  | timeout =>
    exact .waits rfl (by simp [receiveNext, decodeStep, sendGdbAck, emit, Verdict.render])
      (by simp [decodeStep])
  | byte b =>
    have hstored : Holds ((writeRequest (w.length + 1) b).run s).2.mRequest.bytes 0
        (char '$' :: (w ++ [b])) := by
      have := holds_snoc hheld b
      rwa [List.length_cons, Nat.zero_add] at this
    rw [receiveNext, run_bind]
    generalize hs' : ((writeRequest (w.length + 1) b).run s).2 = s' at hstored
    have hout : s'.output = s.output := by rw [← hs']; rfl
    rcases hsplit : splitPacket (w ++ [b]) with _ | ⟨p, c, c'⟩
    · -- The packet goes on, unless there is no room for it.
      obtain ⟨top, hrun⟩ := collectorTail_open hstored (hopen.snoc hsplit)
      rw [List.length_append, List.length_singleton] at hrun
      rw [hrun]
      by_cases hfull : maxRequestSize ≤ w.length + 1 + 1
      · rw [if_pos hfull]
        refine .waits ?_ ?_ ?_
        · simp [Standing, decodeStep, hsplit, hfull]
        · simp [decodeStep, hsplit, hfull, hout, Verdict.render]
        · simp [decodeStep, hsplit, hfull]
      · rw [if_neg hfull]
        refine .waits ⟨w ++ [b], ?_, by simp, by omega, hstored, hopen.snoc hsplit⟩ ?_ ?_
        · simp [decodeStep, hsplit, hfull]
        · simp [decodeStep, hsplit, hfull, hout]
        · simp [decodeStep, hsplit, hfull]
    · obtain ⟨hw, hclean⟩ := splitPacket_some hsplit
      have hlen : w.length + 1 = p.length + 3 := by
        have := congrArg List.length hw
        simpa using this
      have hcomplete : Complete s'.mRequest (w.length + 1 + 1) p c c' :=
        ⟨by omega, by omega, hw ▸ hstored, hclean⟩
      rw [collectorTail_complete hcomplete]
      refine .completes ⟨hcomplete.length, hcomplete.fits, hcomplete.held, hclean⟩ ?_ ?_
      · simp [decodeStep, hsplit]
      · exact congrArg decisions hout

/-- **Every event leaves the input loop where it leaves the reference decoder.** -/
theorem collected {s : Stub σ} {point : InputPoint} {d : Option (List UInt8)}
    (h : Standing s.mRequest point d) (e : Receive) :
    Collected s.output ((collect point e).run s).2 d e ((collect point e).run s).1 := by
  cases point with
  | first =>
    obtain rfl : d = none := h
    exact collected_first s e
  | returned =>
    obtain rfl : d = none := h
    exact collected_first (enterInput.run s).2 e
  | next n => exact collected_next h e
  | packet n => exact absurd h id

/-! ## The bounds of the request -/

/-- Nothing was written behind `mRequest`, except below `top`. -/
def Within (top : Nat) (s : Stub σ) : Prop := s.mRequest.writeTop ≤ max top maxRequestSize

section Bounds
variable {top : Nat}

theorem within_of_still {α : Type} {m : StubM σ α} (h : Keeps Stub.still m) :
    Ensures (Within top) m fun _ => Within top :=
  (h.map Prod.snd).ensures fun r => r.2 ≤ max top maxRequestSize

theorem within_writeRequest {i : Nat} (hi : i < maxRequestSize) (v : UInt8) :
    Ensures (Within top) (writeRequest i v : StubM σ Unit) fun _ => Within top := by
  intro s hs
  show max s.mRequest.writeTop (i + 1) ≤ _
  have : s.mRequest.writeTop ≤ max top maxRequestSize := hs
  omega

theorem within_sendGdbAck (p : Bool) :
    Ensures (Within top) (sendGdbAck p : StubM σ Unit) fun _ => Within top := fun _ hs => hs

theorem within_receiveFirst (e : Receive) :
    Ensures (Within top) (receiveFirst e : StubM σ InputPoint) fun _ => Within top := by
  cases e with
  | timeout => exact ensures_pure fun _ hs => hs
  | byte b =>
    refine ensures_bind (within_writeRequest (by decide) b) fun _ => ?_
    refine ensures_bind ensures_get fun s => ensures_ite (fun _ => ?_) fun _ => ?_
    · exact ensures_bind (within_of_still (keeps_sendGdbResponse _)) fun _ =>
        ensures_pure fun _ hs => hs
    · refine ensures_ite (fun _ => ?_) fun _ => ensures_ite (fun _ => ?_) fun _ => ?_
      · exact fun s hs => hs
      · exact ensures_pure fun _ hs => hs
      · exact ensures_pure fun _ hs => hs

theorem keeps_packetContinues (n : Nat) :
    Keeps Stub.still (packetContinues n : StubM σ Bool) :=
  keeps_ite (keeps_pure _) (keeps_bind (keeps_readRequest _) fun _ => keeps_pure _)

theorem within_receiveNext {n : Nat} (hn : n < maxRequestSize) (e : Receive) :
    Ensures (Within top) (receiveNext n e : StubM σ InputPoint) fun _ => Within top := by
  have refuse : Ensures (Within top)
      (do sendGdbAck false; pure .returned : StubM σ InputPoint) fun _ => Within top :=
    ensures_bind (within_sendGdbAck false) fun _ => ensures_pure fun _ hs => hs
  cases e with
  | timeout => exact refuse
  | byte b =>
    refine ensures_bind (within_writeRequest hn b) fun _ => ?_
    refine ensures_bind (within_of_still (keeps_packetContinues _)) fun c => ?_
    refine ensures_ite (fun _ => ensures_ite (fun _ => refuse) fun _ => ?_) fun _ => ?_
    · exact ensures_pure fun _ hs => hs
    · exact ensures_pure fun _ hs => hs

theorem within_collect {s : Stub σ} {point : InputPoint} {d : Option (List UInt8)}
    (h : Standing s.mRequest point d) (e : Receive) (hw : Within top s) :
    Within top ((collect point e).run s).2 := by
  cases point with
  | first => exact within_receiveFirst e s hw
  | returned =>
    refine within_receiveFirst e (enterInput.run s).2 ?_
    show max s.mRequest.writeTop maxRequestSize ≤ _
    have : s.mRequest.writeTop ≤ max top maxRequestSize := hw
    omega
  | next n =>
    obtain ⟨w, -, -, hn, -⟩ := h
    exact within_receiveNext hn e s hw
  | packet n => exact absurd h id

end Bounds

/-! ## Whole streams -/

/-- A complete packet is answered as it is judged, and a command it carries stays inside the
request. -/
theorem processGdbPacket_spec (P : Platform σ) {s : Stub σ} {n top : Nat} {p : List UInt8}
    {c d : UInt8} (h : Complete s.mRequest n p c d) (hw : Within top s) :
    decisions ((processGdbPacket P n).run s).2.output =
        decisions s.output ++ (judge p c d).render ∧
      Within top ((processGdbPacket P n).run s).2 := by
  obtain ⟨t, hrun⟩ := validateGdbPacket_run P h
  rw [processGdbPacket, run_bind, hrun]
  cases judge p c d with
  | refused => exact ⟨decisions_append .., hw⟩
  | executed payload =>
    have hfit : p.length + 1 < maxRequestSize := by
      have := h.length
      have := h.fits
      omega
    have hin : Ensures (InRequest (p.length + 1) top) (executeGdbCommand P 1 p.length)
        fun _ => InRequest (p.length + 1) top :=
      inRequest_executeGdbCommand hfit P (Nat.add_comm 1 p.length)
    refine ⟨?_, (hin _ ⟨Function.update_self .., ?_⟩).2⟩
    · exact (congrArg Prod.snd (keeps_executeGdbCommand P 1 p.length _)).trans (decisions_append ..)
    · exact within_writeRequest hfit 0 _ hw

/-- One event. -/
theorem receive_step (P : Platform σ) {s : Stub σ} {point : InputPoint} {d : Option (List UInt8)}
    {top : Nat} (h : Standing s.mRequest point d) (hw : Within top s) (e : Receive) :
    Standing ((receive P point e).run s).2.mRequest ((receive P point e).run s).1
        (decodeStep d e).1 ∧
      decisions ((receive P point e).run s).2.output =
        decisions s.output ++ (decodeStep d e).2.flatMap Verdict.render ∧
      Within top ((receive P point e).run s).2 := by
  have hcollected := collected h e
  have hwithin := within_collect h e hw
  rw [receive, run_bind]
  generalize ((collect point e).run s).1 = next at *
  generalize ((collect point e).run s).2 = t at *
  cases hcollected with
  | waits standing decided =>
    have hfinish : (finishPacket P next).run t = (next, t) := by
      cases next with
      | packet n => exact absurd standing id
      | _ => rfl
    rw [hfinish]
    exact ⟨standing, decided, hwithin⟩
  | completes complete judged decided =>
    obtain ⟨h1, h2⟩ := processGdbPacket_spec P complete hwithin
    rw [judged]
    refine ⟨rfl, ?_, h2⟩
    rw [← decided, List.flatMap_singleton]
    exact h1

/-- A whole stream, from anywhere the reference decoder can be. -/
theorem receiveAll_run (P : Platform σ) (es : List Receive) :
    ∀ {s : Stub σ} {point : InputPoint} {d : Option (List UInt8)} {top : Nat},
      Standing s.mRequest point d → Within top s →
      Standing ((receiveAll P point es).run s).2.mRequest ((receiveAll P point es).run s).1
          (decode d es).1 ∧
        decisions ((receiveAll P point es).run s).2.output =
          decisions s.output ++ (decode d es).2.flatMap Verdict.render ∧
        Within top ((receiveAll P point es).run s).2 := by
  induction es with
  | nil =>
    intro s point d top h hw
    exact ⟨h, (List.append_nil _).symm, hw⟩
  | cons e es ih =>
    intro s point d top h hw
    obtain ⟨h1, hout, hw1⟩ := receive_step P h hw e
    obtain ⟨h2, hout', hw2⟩ := ih h1 hw1
    refine ⟨h2, ?_, hw2⟩
    rw [decode, List.flatMap_append, ← List.append_assoc, ← hout]
    exact hout'

/-- **Packet decoding is exact.**  On every stream of received bytes and timeouts the
acknowledgements sent and the commands executed are those of the reference decoder, nothing is
written outside `mRequest`, and whenever a packet is complete after one more event, the rescan finds
the `#` the collector saw, with the two checksum bytes behind it. -/
theorem receiveAll_decodes (P : Platform σ) (s : Stub σ) (es : List Receive) :
    let r := (receiveAll P .returned es).run s
    decisions r.2.output = decisions s.output ++ (decode none es).2.flatMap Verdict.render ∧
      r.2.mRequest.writeTop ≤ max s.mRequest.writeTop maxRequestSize ∧
      ∀ (e : Receive) (n : Nat), ((collect r.1 e).run r.2).1 = .packet n →
        let t := ((collect r.1 e).run r.2).2
        t.mRequest.bytes (n - 3) = char '#' ∧
          ((findChecksum (n - 1) 1).run t).1 = n - 3 ∧
          ((findChecksum (n - 1) 1).run t).1 + 2 < n := by
  have hstart : Standing s.mRequest .returned none := rfl
  have htop : Within s.mRequest.writeTop s := Nat.le_max_left _ _
  obtain ⟨hstanding, hout, hwithin⟩ := receiveAll_run P es hstart htop
  refine ⟨hout, hwithin, fun e n hn => ?_⟩
  have hcollected := collected hstanding e
  rw [hn] at hcollected
  cases hcollected with
  | waits standing => exact absurd standing id
  | completes complete =>
    obtain ⟨top, hfind⟩ := findChecksum_complete complete
    have hlen := complete.length
    have hhash := (holds_append.mp complete.held.2).2.1
    dsimp only
    rw [hfind]
    refine ⟨?_, by dsimp only; omega, by dsimp only; omega⟩
    rwa [Nat.zero_add, Nat.add_comm, show _ + 1 = n - 3 from by omega] at hhash

end UefiDebugger
