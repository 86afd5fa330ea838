import UefiDebugger.FlatMachine
import UefiDebugger.PacketDecoding

/-!
# The packets that fit

The reply to `qSupported` announces packets of `0x1000` characters; `mRequest` holds half of that,
with the `$`, the `#` and the checksum.  `packet_accepted_iff` finds the boundary in the reference
decoder, which `ProcessInputData` follows byte by byte.
-/
namespace UefiDebugger
open HexText ByteString StateEffect

variable {σ : Type}

/-! ## What is announced -/

/-- The number behind `PacketSize=` in the reply to `qSupported`. -/
def advertisedPacketSize : Nat :=
  value ((supportedReply.drop (text "PacketSize=").length).takeWhile isDigit)

example : advertisedPacketSize = 4096 := by decide

/-! ## Packets in the reference decoder -/

theorem dropWhile_payload {p : List UInt8} (h : char '#' ∉ p) (q : List UInt8) :
    (p ++ char '#' :: q).dropWhile (· ≠ char '#') = char '#' :: q := by
  rw [List.dropWhile_append_of_pos fun x hx => by
    simpa using fun he : x = char '#' => h (he ▸ hx)]
  simp

theorem takeWhile_payload {p : List UInt8} (h : char '#' ∉ p) (q : List UInt8) :
    (p ++ char '#' :: q).takeWhile (· ≠ char '#') = p := by
  rw [List.takeWhile_append_of_pos fun x hx => by
    simpa using fun he : x = char '#' => h (he ▸ hx)]
  simp

theorem Open.splitPacket {w : List UInt8} (h : Open w) : splitPacket w = none := by
  rcases hs : UefiDebugger.splitPacket w with _ | ⟨p, c, d⟩
  · rfl
  · obtain ⟨rfl, hp⟩ := splitPacket_some hs
    rw [Open, dropWhile_payload hp] at h
    exact absurd h (Nat.lt_irrefl 3)

/-- What comes before in an open packet is open. -/
theorem Open.of_append {w q : List UInt8} (h : Open (w ++ q)) : Open w := by
  unfold Open at *
  rw [List.dropWhile_append] at h
  split at h
  · rename_i hw
    rw [List.isEmpty_iff.mp hw]
    decide
  · rw [List.length_append] at h
    omega

/-- A payload is open with its `#` and the first checksum character. -/
theorem open_payload {p : List UInt8} (h : char '#' ∉ p) (c : UInt8) :
    Open (p ++ [char '#', c]) := by
  rw [Open, dropWhile_payload h]
  exact Nat.lt_succ_self 2

/-- An incomplete packet with room for it is collected. -/
theorem decode_fits (es : List Receive) : ∀ (q w : List UInt8), Open (w ++ q) →
    w.length + q.length + 1 < maxRequestSize →
    decode (some w) (q.map .byte ++ es) = decode (some (w ++ q)) es := by
  intro q
  induction q with
  | nil =>
    intro w _ _
    simp
  | cons b q ih =>
    intro w hopen hfits
    have hsplit : w ++ b :: q = w ++ [b] ++ q := by simp
    rw [hsplit] at hopen
    rw [List.length_cons] at hfits
    have hstep : decodeStep (some w) (.byte b) = (some (w ++ [b]), []) := by
      rw [decodeStep, hopen.of_append.splitPacket]
      exact if_neg (by omega)
    rw [List.map_cons, List.cons_append, decode, hstep, hsplit,
      ih (w ++ [b]) hopen (by rw [List.length_append, List.length_singleton]; omega)]
    simp

/-- An incomplete packet that reaches the end of the buffer is refused. -/
theorem decode_overflows (es : List Receive) : ∀ (q w : List UInt8), Open (w ++ q) →
    w.length + 1 < maxRequestSize → maxRequestSize ≤ w.length + q.length + 1 →
    ∃ vs, (decode (some w) (q.map .byte ++ es)).2 = .refused :: vs := by
  intro q
  induction q with
  | nil =>
    intro w _ hroom hfull
    rw [List.length_nil] at hfull
    omega
  | cons b q ih =>
    intro w hopen hroom hfull
    have hsplit : w ++ b :: q = w ++ [b] ++ q := by simp
    rw [hsplit] at hopen
    rw [List.length_cons] at hfull
    rw [List.map_cons, List.cons_append, decode]
    by_cases hlast : maxRequestSize ≤ w.length + 2
    · have hstep : decodeStep (some w) (.byte b) = (none, [.refused]) := by
        rw [decodeStep, hopen.of_append.splitPacket]
        exact if_pos hlast
      rw [hstep]
      exact ⟨_, rfl⟩
    · have hstep : decodeStep (some w) (.byte b) = (some (w ++ [b]), []) := by
        rw [decodeStep, hopen.of_append.splitPacket]
        exact if_neg hlast
      rw [hstep]
      exact ih (w ++ [b]) hopen (by rw [List.length_append, List.length_singleton]; omega)
        (by rw [List.length_append, List.length_singleton]; omega)

/-- The bytes of a packet, received one after the other. -/
def packetEvents (p : List UInt8) (c d : UInt8) : List Receive :=
  (char '$' :: (p ++ [char '#', c, d])).map .byte

theorem packetEvents_eq (p : List UInt8) (c d : UInt8) :
    packetEvents p c d = .byte (char '$') :: ((p ++ [char '#', c]).map .byte ++ [.byte d]) := by
  simp [packetEvents]

theorem decode_packetEvents (p : List UInt8) (c d : UInt8) :
    decode none (packetEvents p c d) =
      decode (some []) ((p ++ [char '#', c]).map .byte ++ [.byte d]) := by
  rw [packetEvents_eq, decode, decodeStep, if_pos rfl]
  simp

/-- A packet that fits is judged. -/
theorem decode_packet {p : List UInt8} (hp : char '#' ∉ p) (c d : UInt8)
    (hfits : p.length + 4 ≤ maxRequestSize) :
    decode none (packetEvents p c d) = (none, [judge p c d]) := by
  have hopen : Open ([] ++ (p ++ [char '#', c])) := open_payload hp c
  have hsplit : UefiDebugger.splitPacket (p ++ [char '#', c] ++ [d]) = some (p, c, d) := by
    rw [List.append_assoc, UefiDebugger.splitPacket]
    simp only [List.cons_append, List.nil_append, dropWhile_payload hp, takeWhile_payload hp]
  rw [decode_packetEvents, decode_fits _ _ _ hopen (by simp; omega), List.nil_append, decode,
    decodeStep, hsplit]
  rfl

/-! ## The boundary -/

/-- The packet is acknowledged with `+`, and its payload is what `ExecuteGdbCommand` is called
with. -/
def PacketAccepted (P : Platform σ) (s : Stub σ) (point : InputPoint) (p : List UInt8)
    (c d : UInt8) : Prop :=
  decisions ((receiveAll P point (packetEvents p c d)).run s).2.output =
    decisions s.output ++ [.ack true, .command p]

/-- The two characters behind the `#` are the checksum of the payload. -/
def ChecksumOf (p : List UInt8) (c d : UInt8) : Prop :=
  isDigit c = true ∧ isDigit d = true ∧ value [c, d] = (p.map UInt8.toNat).sum % 256

section Boundary
variable {point : InputPoint} {p : List UInt8} {c d : UInt8}

theorem decisions_packetEvents (P : Platform σ) (s : Stub σ)
    (hpoint : point = .first ∨ point = .returned) :
    decisions ((receiveAll P point (packetEvents p c d)).run s).2.output =
      decisions s.output ++ (decode none (packetEvents p c d)).2.flatMap Verdict.render := by
  have hstanding : Standing s.mRequest point none := by
    rcases hpoint with rfl | rfl <;> rfl
  have htop : Within s.mRequest.writeTop s := Nat.le_max_left _ _
  exact (receiveAll_run P (packetEvents p c d) hstanding htop).2.1

/-- The first thing that is said of a packet that does not fit is `-`. -/
theorem packet_refused (P : Platform σ) (s : Stub σ) (hpoint : point = .first ∨ point = .returned)
    (hp : char '#' ∉ p) (hlong : maxRequestSize < p.length + 4) :
    ¬ PacketAccepted P s point p c d := by
  have hopen : Open ([] ++ (p ++ [char '#', c])) := open_payload hp c
  obtain ⟨vs, hrefused⟩ := decode_overflows [.byte d] _ _ hopen (by decide) (by simp; omega)
  rw [← decode_packetEvents] at hrefused
  rw [PacketAccepted, decisions_packetEvents P s hpoint, hrefused, List.append_cancel_left_eq,
    List.flatMap_cons]
  intro haccepted
  exact absurd (List.head_eq_of_cons_eq haccepted) (by decide)

/-- **A packet is accepted exactly when it fits into the request buffer.**  The loop waits for the
first byte of a packet, and no read times out. -/
theorem packet_accepted_iff (P : Platform σ) (s : Stub σ)
    (hpoint : point = .first ∨ point = .returned) (hp : char '#' ∉ p) (hsum : ChecksumOf p c d) :
    PacketAccepted P s point p c d ↔ p.length + 4 ≤ maxRequestSize := by
  constructor
  · intro haccepted
    by_contra hlong
    exact packet_refused P s hpoint hp (Nat.lt_of_not_le hlong) haccepted
  · intro hfits
    have hjudge : judge p c d = .executed p := if_pos hsum
    rw [PacketAccepted, decisions_packetEvents P s hpoint, decode_packet hp c d hfits, hjudge]
    rfl

end Boundary

theorem checksumOf_replicate {n : Nat} {b c d : UInt8}
    (hdigits : isDigit c = true ∧ isDigit d = true) (hsum : value [c, d] = n * b.toNat % 256) :
    ChecksumOf (List.replicate n b) c d :=
  ⟨hdigits.1, hdigits.2, by rw [List.map_replicate, List.sum_replicate_nat, hsum]⟩

/-- A packet of 2045 characters is refused. -/
theorem announced_packet_refused :
    ¬ ∀ (p : List UInt8) (c d : UInt8), char '#' ∉ p → p.length ≤ advertisedPacketSize →
    ChecksumOf p c d →
      PacketAccepted flatPlatform (Stub.initial ⟨fun _ => 0x90, []⟩) .returned p c d := by
  intro hall
  have hp : char '#' ∉ List.replicate 2045 (char 'a') := fun h =>
    absurd (List.eq_of_mem_replicate h) (by decide)
  have hadvertised : (List.replicate 2045 (char 'a')).length ≤ advertisedPacketSize := by
    rw [List.length_replicate]
    decide
  have hsum : ChecksumOf (List.replicate 2045 (char 'a')) (char 'd') (char 'd') :=
    checksumOf_replicate (by decide) (by decide)
  have hlong : maxRequestSize < (List.replicate 2045 (char 'a')).length + 4 := by
    rw [List.length_replicate]
    decide
  exact packet_refused _ _ (Or.inr rfl) hp hlong (hall _ _ _ hp hadvertised hsum)

/-- The theorem at both sides of the boundary. -/
theorem packet_accepted_iff_boundary :
    PacketAccepted flatPlatform (Stub.initial ⟨fun _ => 0x90, []⟩) .first
    (List.replicate 2044 (char 'a')) (char '7') (char 'c') ∧
      ¬ PacketAccepted flatPlatform (Stub.initial ⟨fun _ => 0x90, []⟩) .first
      (List.replicate 2045 (char 'a')) (char 'd') (char 'd') := by
  have hclean : ∀ n, char '#' ∉ List.replicate n (char 'a') := fun n h =>
    absurd (List.eq_of_mem_replicate h) (by decide)
  have hlength : ∀ n, (List.replicate n (char 'a')).length + 4 ≤ maxRequestSize ↔ n ≤ 2044 :=
    fun n => by
    rw [List.length_replicate, maxRequestSize]
    omega
  have hsum : ChecksumOf (List.replicate 2044 (char 'a')) (char '7') (char 'c') :=
    checksumOf_replicate (by decide) (by decide)
  have hsum' : ChecksumOf (List.replicate 2045 (char 'a')) (char 'd') (char 'd') :=
    checksumOf_replicate (by decide) (by decide)
  have hfits :=
    packet_accepted_iff flatPlatform (Stub.initial ⟨fun _ => 0x90, []⟩) (Or.inl rfl)
    (hclean 2044) hsum
  have hlong :=
    packet_accepted_iff flatPlatform (Stub.initial ⟨fun _ => 0x90, []⟩) (Or.inl rfl)
    (hclean 2045) hsum'
  exact ⟨hfits.mpr ((hlength _).mpr (by decide)),
    fun h => absurd ((hlength _).mp (hlong.mp h)) (by decide)⟩

end UefiDebugger
