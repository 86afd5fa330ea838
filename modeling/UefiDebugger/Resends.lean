import UefiDebugger.Interruptions
import UefiDebugger.FlatMachine

/-!
# Resends

`SendGdbResponse (NULL)` writes `mResponseFull` as it then is, and every handler builds its reply
there.  What makes that right is that a reply is always finished: whenever the loop waits for a byte
the buffer holds the packet sent last (`Settled`).  The first packet of a stop is its stop reply.

`Sound` is the invariant of a run: it also says what the packets of the output are made of.
-/
namespace UefiDebugger
open HexText ByteString StateEffect

variable {σ : Type}

/-! ## Packets of the output -/

/-- The bytes of a packet. -/
def Output.bytes? : Output → Option (List UInt8)
  | .packet bs => some bs
  | _ => none

/-- The packets sent. -/
def packets (outs : List Output) : List (List UInt8) := outs.filterMap Output.bytes?

/-- The packet sent last. -/
def lastPacket (outs : List Output) : Option (List UInt8) := (packets outs).getLast?

theorem packets_packet (outs : List Output) (bs : List UInt8) :
    packets (outs ++ [.packet bs]) = packets outs ++ [bs] := List.filterMap_append

theorem packets_other {outs : List Output} {o : Output} (h : o.bytes? = none) :
    packets (outs ++ [o]) = packets outs := by
  rw [packets, List.filterMap_append, List.filterMap_cons_none h, List.filterMap_nil,
    List.append_nil, packets]

theorem lastPacket_packet (outs : List Output) (bs : List UInt8) :
    lastPacket (outs ++ [.packet bs]) = some bs := by
  rw [lastPacket, packets_packet]
  exact List.getLast?_concat

/-- A payload the code makes. -/
def Said (P : Platform σ) (short : Prop) (str : List UInt8) : Prop :=
  ReplyText P short str ∨ ConsoleText str

/-- A packet with such a payload. -/
def Framed (P : Platform σ) (short : Prop) (bs : List UInt8) : Prop :=
  ∃ str, Said P short str ∧ bs = gdbFrame str

/-- The packet sent last is in the buffer. -/
def Settled (s : Stub σ) : Prop := ∃ str, lastPacket s.output = some (gdbFrame str) ∧ Stored s str

/-- All that was sent is framed, and a resend would repeat the last of it. -/
structure Clear (P : Platform σ) (short : Prop) (s : Stub σ) : Prop where
  heard : ∀ bs ∈ packets s.output, Framed P short bs
  settled : Settled s

/-- What sends and answers change. -/
structure Speech where
  packets : List (List UInt8)
  mResponseAcknowledged : Bool
  responseLength : Nat
  buffer : Nat → UInt8

def Stub.speech (s : Stub σ) : Speech :=
  ⟨packets s.output, s.mResponseAcknowledged, s.responseLength, s.mResponseFull.bytes⟩

section Stubs
variable {P : Platform σ} {short : Prop} {s u : Stub σ}

/-- Whatever the buffer held before. -/
theorem Sent.clear (h : Sent (Said P short) s u) (hs : ∀ bs ∈ packets s.output, Framed P short bs) :
    Clear P short u := by
  obtain ⟨str, hstr, hout, -, hstored⟩ := h
  refine ⟨fun bs hbs => ?_, str, by rw [hout, lastPacket_packet], hstored⟩
  rw [hout, packets_packet] at hbs
  rcases List.mem_append.mp hbs with hbs | hbs
  · exact hs bs hbs
  · exact ⟨str, hstr, List.mem_singleton.mp hbs⟩

/-- The acknowledgement does not matter. -/
theorem Clear.of_speech (h : Clear P short s) {a : Bool}
    (hsame : u.speech = { s.speech with mResponseAcknowledged := a }) : Clear P short u := by
  have hout : packets u.output = packets s.output := congrArg Speech.packets hsame
  have hlen : u.responseLength = s.responseLength := congrArg Speech.responseLength hsame
  have hbytes : u.mResponseFull.bytes = s.mResponseFull.bytes := congrArg Speech.buffer hsame
  obtain ⟨str, hlast, hstored⟩ := h.settled
  refine ⟨hout ▸ h.heard, str, ?_, hlen.trans hstored.1, ?_⟩
  · rw [lastPacket, hout]
    exact hlast
  · rw [hbytes, hlen]
    exact hstored.2

theorem speech_of_spoken_eq (h : u.spoken = s.spoken) : u.speech = s.speech :=
  congrArg (fun r : Voice × (Nat → UInt8) =>
    (⟨packets r.1.output, r.1.mResponseAcknowledged, r.1.responseLength, r.2⟩ : Speech)) h

theorem speech_of_spoken {α : Type} {m : StubM σ α} (h : Keeps Stub.spoken m) :
    Keeps Stub.speech m :=
  fun s => speech_of_spoken_eq (h s)

theorem Clear.of_spoken (h : Clear P short s) (hsame : u.spoken = s.spoken) : Clear P short u :=
  h.of_speech (speech_of_spoken_eq hsame)

theorem CommandResult.clear (h : CommandResult P short s u) (hs : Clear P short s) :
    Clear P short u := by
  cases h with
  | replied sent => exact (sent.mono fun _ => Or.inl).clear hs.heard
  | console printed accepted =>
    have hprinted := (printed.mono fun _ => Or.inr).clear hs.heard
    refine (accepted.mono ?_).clear hprinted.heard
    rintro str rfl
    exact Or.inl (.fixed (by decide))
  | silent same gone => exact hs.of_spoken same

/-- **A resend repeats the last packet**, and finds both assertions true. -/
theorem Settled.resend (h : Settled s) (hack : s.mResponseAcknowledged = false) :
    ∃ str, lastPacket s.output = some (gdbFrame str) ∧
      ((sendGdbResponse .resend).run s).2 =
      { s with output := s.output ++ [.packet (gdbFrame str)] } := by
  obtain ⟨str, hlast, hlen, hslice⟩ := h
  refine ⟨str, hlast, ?_⟩
  have hlong : 4 ≤ s.responseLength := by omega
  rw [sendGdbResponse, run_bind, run_get]
  simp only [hack, hlong, Bool.not_false, decide_true, assert, if_true]
  show ({ s with
    mResponseAcknowledged := false
    output := s.output ++ [.packet (slice s.mResponseFull.bytes 0 s.responseLength)] } : Stub σ) = _
  rw [hslice, ← hack]

theorem Clear.resend (h : Clear P short s) (hack : s.mResponseAcknowledged = false) :
    Clear P short ((sendGdbResponse .resend).run s).2 := by
  obtain ⟨str, hlast, hrun⟩ := h.settled.resend hack
  obtain ⟨str', hlast', hstored⟩ := h.settled
  have hsame : gdbFrame str' = gdbFrame str := Option.some.inj (hlast'.symm.trans hlast)
  rw [hrun]
  refine ⟨fun bs hbs => ?_, str', ?_, hstored⟩
  · rw [packets_packet] at hbs
    rcases List.mem_append.mp hbs with hbs | hbs
    · exact h.heard bs hbs
    · rw [List.mem_singleton.mp hbs]
      exact h.heard _ (List.mem_of_getLast? hlast)
  · rw [hsame]
    exact lastPacket_packet ..

end Stubs

/-! ## The input loop -/

section Input
variable {P : Platform σ} {short : Prop} {s : Stub σ}

/-- An output that is no packet. -/
theorem speech_emit {o : Output} (h : o.bytes? = none) :
    Keeps Stub.speech (emit o : StubM σ Unit) := by
  intro s
  show (⟨packets (s.output ++ [o]), _, _, _⟩ : Speech) = _
  rw [packets_other h]
  rfl

theorem speech_sendGdbAck (b : Bool) : Keeps Stub.speech (sendGdbAck b : StubM σ Unit) :=
  speech_emit rfl

theorem speech_recordCommand (arguments : Nat × Nat) :
    Keeps Stub.speech (recordCommand arguments : StubM σ Unit) := fun s =>
  speech_emit (o := .command (slice s.mRequest.bytes arguments.1 arguments.2)) rfl s

theorem spoken_packetContinues (n : Nat) : Keeps Stub.spoken (packetContinues n : StubM σ Bool) :=
  keeps_ite (keeps_pure _) (keeps_bind (spoken_readRequest _) fun _ => keeps_pure _)

theorem speech_receiveNext (n : Nat) (e : Receive) :
    Keeps Stub.speech (receiveNext n e : StubM σ InputPoint) := by
  have refuse : Keeps Stub.speech (do sendGdbAck false; pure .returned : StubM σ InputPoint) :=
    keeps_bind (speech_sendGdbAck false) fun _ => keeps_pure _
  cases e with
  | timeout => exact refuse
  | byte b =>
    refine keeps_bind (speech_of_spoken (spoken_writeRequest n b)) fun _ => ?_
    refine keeps_bind (speech_of_spoken (spoken_packetContinues _)) fun c => ?_
    exact keeps_ite (keeps_ite refuse (keeps_pure _)) (keeps_pure _)

theorem spoken_findChecksum : ∀ n i, Keeps Stub.spoken (findChecksum n i : StubM σ Nat)
  | 0, _ => keeps_pure _
  | n + 1, _ => keeps_bind (spoken_readRequest _) fun _ =>
      keeps_ite (keeps_pure _) (spoken_findChecksum n _)

theorem speech_validateGdbPacket (P : Platform σ) (n : Nat) :
    Keeps Stub.speech (validateGdbPacket P n) := by
  have refuse : Keeps Stub.speech (do sendGdbAck false; pure none : StubM σ (Option Nat)) :=
    keeps_bind (speech_sendGdbAck false) fun _ => keeps_pure _
  have quiet : ∀ {α : Type} {m : StubM σ α}, Keeps Stub.spoken m → Keeps Stub.speech m :=
    speech_of_spoken
  refine keeps_bind (quiet (spoken_readRequest _)) fun _ => keeps_bind (quiet (spoken_assert _ _))
    fun _ => ?_
  refine keeps_bind (quiet (spoken_findChecksum _ _)) fun i => keeps_ite refuse ?_
  refine keeps_bind (quiet (spoken_readRequest _)) fun c => ?_
  refine keeps_bind (quiet (spoken_readRequest _)) fun d => keeps_bind keeps_get fun s => ?_
  dsimp only
  cases P.baseLib.asciiStrHexToBytes [c, d] with
  | none => exact refuse
  | some sum =>
    refine keeps_ite refuse (keeps_bind (speech_sendGdbAck true) fun _ => ?_)
    refine keeps_bind (quiet (keeps_modify fun _ => rfl)) fun _ => ?_
    exact keeps_bind (quiet (spoken_writeRequest _ _)) fun _ =>
      keeps_bind (speech_recordCommand _) fun _ => keeps_pure _

/-- Where the byte that is read is the first of a packet, or none. -/
def InputPoint.AtStart (point : InputPoint) : Prop := point = .first ∨ point = .returned

/-- What reading a first byte does: a `-` that refuses a response resends it, a `+` acknowledges
it. -/
theorem receiveFirst_cases (e : Receive) (s : Stub σ) :
    (e = .byte (char '-') ∧ s.mResponseAcknowledged = false ∧
      ∃ b,
      (receiveFirst e).run s =
      (.first, ((sendGdbResponse .resend).run { s with mRequest := b }).2)) ∨
    (e = .byte (char '+') ∧
      ((receiveFirst e).run s).2.speech = { s.speech with mResponseAcknowledged := true }) ∨
    (e ≠ .byte (char '+') ∧ (e = .byte (char '-') → s.mResponseAcknowledged = true) ∧
      ((receiveFirst e).run s).2.speech = s.speech) := by
  cases e with
  | timeout =>
    refine Or.inr (Or.inr ⟨?_, ?_, rfl⟩)
    · intro h
      cases h
    · intro h
      cases h
  | byte b =>
    rw [receiveFirst, run_bind, run_bind, run_get, run_ite]
    by_cases hresend : b = char '-' ∧ ((writeRequest 0 b).run s).2.mResponseAcknowledged = false
    · obtain ⟨rfl, hack⟩ := hresend
      refine Or.inl ⟨rfl, hack, s.mRequest.write 0 (char '-'), ?_⟩
      rw [if_pos ⟨rfl, hack⟩]
      rfl
    · rw [if_neg hresend, run_ite]
      by_cases hplus : b = char '+'
      · obtain rfl := hplus
        rw [if_pos rfl]
        exact Or.inr (Or.inl ⟨rfl, rfl⟩)
      · rw [if_neg hplus, run_ite]
        refine Or.inr (Or.inr ⟨fun h => hplus (Receive.byte.inj h), fun h => ?_, ?_⟩)
        · obtain rfl := Receive.byte.inj h
          exact Bool.eq_true_of_not_eq_false fun hack => hresend ⟨rfl, hack⟩
        · split
          · rfl
          · rfl

/-- What reading a byte does, outside packets and inside. -/
theorem collect_cases (point : InputPoint) (e : Receive) (s : Stub σ) :
    (point.AtStart ∧ e = .byte (char '-') ∧ s.mResponseAcknowledged = false ∧
      ∃ b,
      (collect point e).run s =
      (.first, ((sendGdbResponse .resend).run { s with mRequest := b }).2)) ∨
    (point.AtStart ∧ e = .byte (char '+') ∧
      ((collect point e).run s).2.speech = { s.speech with mResponseAcknowledged := true }) ∨
    ((point.AtStart → e ≠ .byte (char '+') ∧
      (e = .byte (char '-') → s.mResponseAcknowledged = true)) ∧
      ((collect point e).run s).2.speech = s.speech) := by
  have inside : ∀ {p : InputPoint}, p ≠ .first → p ≠ .returned → ¬ p.AtStart :=
    fun hf hr h => h.elim hf hr
  cases point with
  | next n =>
    refine Or.inr (Or.inr ⟨fun h => absurd h (inside ?_ ?_), speech_receiveNext n e s⟩)
    · intro h
      cases h
    · intro h
      cases h
  | packet n =>
    refine Or.inr (Or.inr ⟨fun h => absurd h (inside ?_ ?_), rfl⟩)
    · intro h
      cases h
    · intro h
      cases h
  | first =>
    rcases receiveFirst_cases e s with ⟨he, hack, hrun⟩ | ⟨he, hspeech⟩ | ⟨hplus, hminus, hspeech⟩
    · exact Or.inl ⟨Or.inl rfl, he, hack, hrun⟩
    · exact Or.inr (Or.inl ⟨Or.inl rfl, he, hspeech⟩)
    · exact Or.inr (Or.inr ⟨fun _ => ⟨hplus, hminus⟩, hspeech⟩)
  | returned =>
    rcases receiveFirst_cases e (enterInput.run s).2 with ⟨he, hack, hrun⟩ | ⟨he, hspeech⟩ | ⟨hplus,
      hminus, hspeech⟩
    · exact Or.inl ⟨Or.inr rfl, he, hack, hrun⟩
    · exact Or.inr (Or.inl ⟨Or.inr rfl, he, hspeech⟩)
    · exact Or.inr (Or.inr ⟨fun _ => ⟨hplus, hminus⟩, hspeech⟩)

/-- What a read does with the last response, up to the call of a command. -/
theorem afterRead_cases (P : Platform σ) (point : InputPoint) (e : Receive) (s : Stub σ) :
    (point.AtStart ∧ e = .byte (char '-') ∧ s.mResponseAcknowledged = false ∧
      ∃ b,
      ((afterRead P point e).run s).2 =
      ((sendGdbResponse .resend).run { s with mRequest := b }).2) ∨
    (point.AtStart ∧ e = .byte (char '+') ∧
      ((afterRead P point e).run s).2.speech = { s.speech with mResponseAcknowledged := true }) ∨
    ((point.AtStart → e ≠ .byte (char '+') ∧
      (e = .byte (char '-') → s.mResponseAcknowledged = true)) ∧
      ((afterRead P point e).run s).2.speech = s.speech) := by
  have hrest : ((afterRead P point e).run s).2.speech = ((collect point e).run s).2.speech := by
    rw [afterRead, run_bind]
    generalize (collect point e).run s = r
    obtain ⟨next, u⟩ := r
    cases next with
    | first => rfl
    | next n => rfl
    | returned => rfl
    | packet n =>
      refine Eq.trans ?_ (speech_validateGdbPacket P n u)
      show (((validateGdbPacket P n >>= _) : StubM σ (StopPoint σ)).run u).2.speech = _
      rw [run_bind]
      generalize (validateGdbPacket P n).run u = v
      obtain ⟨valid, u'⟩ := v
      cases valid with
      | none => rfl
      | some i => rfl
  rcases collect_cases point e s with ⟨hstart, he, hack, b, hrun⟩ | ⟨hstart, he,
    hspeech⟩ | ⟨hneither, hspeech⟩
  · refine Or.inl ⟨hstart, he, hack, b, ?_⟩
    rw [afterRead, run_bind, hrun]
    rfl
  · exact Or.inr (Or.inl ⟨hstart, he, hrest.trans hspeech⟩)
  · exact Or.inr (Or.inr ⟨hneither, hrest.trans hspeech⟩)

/-- **A read leaves the last packet in the buffer.** -/
theorem clear_afterRead (point : InputPoint) (e : Receive) (hs : Clear P short s) :
    Clear P short ((afterRead P point e).run s).2 := by
  rcases afterRead_cases P point e s with ⟨-, -, hack, b, hrun⟩ | ⟨-, -, hspeech⟩ | ⟨-, hspeech⟩
  · have hstored : Clear P short { s with mRequest := b } := hs.of_spoken rfl
    rw [hrun]
    exact hstored.resend hack
  · exact hs.of_speech hspeech
  · exact hs.of_speech hspeech

/-- A command is only called as a whole. -/
theorem coded_afterRead (point : InputPoint) (e : Receive) : Ensures anyState (afterRead P point e)
    fun next _ => ∀ rest, next = .execute rest → Coded P short rest.program := by
  have hread : ∀ {next : StopPoint σ}, (∀ rest, next ≠ .execute rest) →
      Ensures anyState (pure next : StubM σ (StopPoint σ)) fun next _ =>
        ∀ rest, next = .execute rest → Coded P short rest.program := fun hnext =>
    ensures_pure fun _ _ rest hrest => absurd hrest (hnext rest)
  have hany : ∀ {α : Type} (m : StubM σ α), Ensures anyState m fun _ => anyState := fun m s hs => hs
  refine ensures_bind (hany _) fun next => ?_
  cases next with
  | first => exact hread fun _ => (nomatch ·)
  | next n => exact hread fun _ => (nomatch ·)
  | returned => exact hread fun _ => (nomatch ·)
  | packet n =>
    refine ensures_bind (hany _) fun valid => ?_
    cases valid with
    | none => exact hread fun _ => (nomatch ·)
    | some i =>
      refine ensures_pure fun _ _ => ?_
      rintro rest ⟨⟩
      exact .whole 1 (i - 1)

/-- The stop reply is the first packet of a stop. -/
theorem clear_reportException (i c : Nat) (info : ExceptionInfo) (context : Context) (now : Nat) :
    Ensures (fun s => ∀ bs ∈ packets s.output, Framed P short bs)
      (reportException i c info context now : StubM σ Nat) fun _ => Clear P short := by
  have hreply : ∀ s : Stub σ, (∀ bs ∈ packets s.output, Framed P short bs) →
      Clear P short (sendStopReply.run s).2 :=
    fun s hs => (sent_text (Or.inl (.fixed (by decide))) s).clear hs
  intro s hs
  exact hreply _ hs

end Input

/-! ## Runs -/

namespace Machine
variable {P : Platform σ} {short : Prop} {Allowed : Machine σ → Prop}

/-- Every command under way is the code's. -/
def AllCoded (P : Platform σ) (short : Prop) (fs : List (Frame σ)) : Prop :=
  ∀ f ∈ fs, ∀ rest, f.point = .execute rest → Coded P short rest.program

/-- The invariant of a run: all that was sent is framed, and within a stop a resend repeats the last
of it. -/
structure Sound (P : Platform σ) (short : Prop) (m : Machine σ) : Prop where
  heard : ∀ bs ∈ packets m.stub.output, Framed P short bs
  settled : m.frames ≠ [] → Settled m.stub
  coded : AllCoded P short m.frames

theorem sound_initial {s : Stub σ} (h : s.output = []) : Sound P short (initial s) := by
  refine ⟨fun o ho => ?_, fun h => absurd rfl h, fun f hf => absurd hf List.not_mem_nil⟩
  rw [show (initial s).stub.output = [] from h] at ho
  exact absurd ho List.not_mem_nil

theorem AllCoded.cons {f : Frame σ} {fs : List (Frame σ)}
    (h : ∀ rest, f.point = .execute rest → Coded P short rest.program) (hfs : AllCoded P short fs) :
    AllCoded P short (f :: fs) := by
  intro f' hf'
  rcases List.mem_cons.mp hf' with rfl | hf'
  · exact h
  · exact hfs f' hf'

theorem AllCoded.tail {f : Frame σ} {fs : List (Frame σ)} (h : AllCoded P short (f :: fs)) :
    AllCoded P short fs := fun f' hf' => h f' (List.mem_cons_of_mem f hf')

/-- The innermost activation moves on, with the buffer in order. -/
theorem sound_of_clear {m : Machine σ} {f : Frame σ} {fs : List (Frame σ)}
    (hframes : m.frames = f :: fs) (hclear : Clear P short m.stub)
    (h : ∀ rest, f.point = .execute rest → Coded P short rest.program) (hfs : AllCoded P short fs) :
    Sound P short m :=
  ⟨hclear.heard, fun _ => hclear.settled, by rw [hframes]; exact hfs.cons h⟩

theorem spoken_leaveStop (P : Platform σ) : Keeps Stub.spoken (leaveStop P) :=
  keeps_bind keeps_get fun _ => keeps_ite (keeps_bind (fun _ => rfl) fun _ => keeps_pure _)
  (keeps_pure _)

/-- One read. -/
theorem sound_readDone {m : Machine σ} {f : Frame σ} {fs : List (Frame σ)}
    (hclear : Clear P short m.stub) (hfs : AllCoded P short fs) (input : InputPoint) (e : Receive) :
    Sound P short (m.readDone P f fs input e) :=
  sound_of_clear rfl (clear_afterRead input e hclear) (coded_afterRead input e m.stub trivial) hfs

/-- **One advance keeps the invariant.** -/
theorem sound_advance {m : Machine σ} {f : Frame σ} {fs : List (Frame σ)}
    (hframes : m.frames = f :: fs) (hm : Sound P short m)
    (hshort : ∀ rest i n, f.point = .execute rest → rest.program = executeGdbCommand P i n → short →
    ShortRequest P i n m.stub) (now : Nat) : Sound P short (m.advance P f fs now) := by
  have hclear : Clear P short m.stub :=
    ⟨hm.heard, hm.settled (by rw [hframes]; exact List.cons_ne_nil f fs)⟩
  have hall : AllCoded P short (f :: fs) := hframes ▸ hm.coded
  have hfs := hall.tail
  -- Where only the point changes, nothing was said or heard.
  have hmoves : ∀ {point : StopPoint σ}, (∀ rest, point ≠ .execute rest) →
      Sound P short (m.goto f fs point) := fun hpoint =>
    sound_of_clear rfl hclear (fun rest hrest => absurd hrest (hpoint rest)) hfs
  obtain ⟨T, point⟩ := f
  cases point with
  | poll =>
    rw [advance_poll]
    split
    · exact hmoves fun _ => (nomatch ·)
    · exact hmoves fun _ => (nomatch ·)
  | readStart input => exact hmoves fun _ => (nomatch ·)
  | readPoll input E =>
    cases hpending : m.pending with
    | nil =>
      rw [advance_readPoll_nil hpending]
      exact hmoves fun _ => (nomatch ·)
    | cons b bs =>
      rw [advance_readPoll_cons hpending]
      exact sound_readDone (m := { m with pending := bs }) hclear hfs input (.byte b)
  | readClock input E =>
    by_cases hnow : now < E
    · rw [advance_readClock_lt hnow]
      exact hmoves fun _ => (nomatch ·)
    · rw [advance_readClock_ge hnow]
      exact sound_readDone hclear hfs input .timeout
  | execute rest =>
    have hcoded : Coded P short rest.program := hall _ List.mem_cons_self rest rfl
    have hdone := (hcoded.result fun i n => hshort rest i n rfl).clear hclear
    exact sound_of_clear rfl hdone (fun _ => (nomatch ·)) hfs
  | clock =>
    have hchecked : Clear P short ((checkTimeout T now).run m.stub).2 := hclear.of_spoken rfl
    by_cases hends : ((checkTimeout T now).run m.stub).2.gRunning = true
    · rw [advance_clock_ends hends]
      have hleft := hchecked.of_spoken (spoken_leaveStop P _)
      exact ⟨hleft.heard, fun _ => hleft.settled, hfs⟩
    · rw [advance_clock_goes_on hends]
      exact sound_of_clear rfl hchecked (fun _ => (nomatch ·)) hfs

/-- An exception enters a stop, wherever it was raised. -/
theorem sound_enter {m : Machine σ} (hheard : ∀ bs ∈ packets m.stub.output, Framed P short bs)
    (hcoded : AllCoded P short m.frames) (i c : Nat) (info : ExceptionInfo) (context : Context)
    (now : Nat) :
    Sound P short (m.enter i c info context now) :=
  sound_of_clear rfl (clear_reportException i c info context now m.stub hheard)
  (fun _ => (nomatch ·)) hcoded

/-- **One step of the code keeps the invariant.** -/
theorem sound_step (hallowed : ∀ k, Allowed k → short → ShortReads P k) {m m' : Machine σ}
    {e : Event σ} (ha : Allowed m) (h : CodeStep P short m e m') (hm : Sound P short m) :
    Sound P short m' := by
  cases h with
  | interrupted i c info context now before after stopped executing cut kept quiet behind alive =>
    have hall := hm.coded
    rw [stopped] at hall
    have hout : (before.run m.stub).2.output = m.stub.output := congrArg Voice.output (quiet m.stub)
    refine sound_enter (fun o ho => hm.heard o (hout ▸ ho)) (hall.tail.cons ?_) i c info context now
    rintro rest ⟨⟩
    exact .left (behind _)
  | plain step whole =>
    cases step with
    | tick now arrived =>
      rcases tick_cases P m now arrived with ⟨-, htick⟩ | ⟨-, f, fs, hframes, htick⟩
      · rw [htick]
        exact ⟨hm.heard, hm.settled, hm.coded⟩
      · rw [htick]
        have harrived : Sound P short (m.arrive arrived) := ⟨hm.heard, hm.settled, hm.coded⟩
        exact sound_advance (m := m.arrive arrived) hframes harrived
          (fun rest i n hpoint hwhole hs =>
          hallowed m ha hs f fs rest i n hframes hpoint hwhole) now
    | stop i c info context now running alive =>
      exact sound_enter hm.heard hm.coded i c info context now
    | nested i c info context now before after stopped executing cut kept alive =>
      rcases whole with hnone | ⟨now', arrived, hevent⟩
      · rw [stopped] at hnone
        cases hnone
      · cases hevent
    | arm T running alive => exact ⟨hm.heard, fun h => absurd running h, hm.coded⟩
    | running t reason polled running alive => exact ⟨hm.heard, fun h => absurd running h, hm.coded⟩

theorem sound_run (hallowed : ∀ k, Allowed k → short → ShortReads P k) {s : Stub σ}
    (hs : s.output = []) {es : List (Event σ)} {m : Machine σ}
    (h : CodeRun P short Allowed (initial s) es m) : Sound P short m :=
  h.invariant (sound_step hallowed) (sound_initial hs)

/-- A `-` outside packets is answered with a resend while the response is not acknowledged. -/
theorem afterRead_nack {s : Stub σ} {point : InputPoint} (hstart : point.AtStart)
    (hack : s.mResponseAcknowledged = false) :
    ∃ b, ((afterRead P point (.byte (char '-'))).run s).2 =
      ((sendGdbResponse .resend).run { s with mRequest := b }).2 := by
  rcases afterRead_cases P point (.byte (char '-'))
    s with ⟨-, -, -, hrun⟩ | ⟨-, hplus, -⟩ | ⟨hneither, -⟩
  · exact hrun
  · exact absurd (Receive.byte.inj hplus) (by decide)
  · rw [(hneither hstart).2 rfl] at hack
    cases hack

/-- **A resend repeats the last packet exactly.**  In every run of the code, when a stop that waits
for the start of a packet reads a `-` and the last response is not acknowledged, the packet sent
last is sent again, and both assertions of the resend hold. -/
theorem resend_repeats {s : Stub σ} (hs : s.output = []) {es : List (Event σ)} {m : Machine σ}
    (hrun : CodeRun P False (fun _ => True) (initial s) es m) {T E : Nat} {input : InputPoint}
    {fs : List (Frame σ)} (hreads : m.frames = ⟨T, .readPoll input E⟩ :: fs)
    (hstart : input = .first ∨ input = .returned) (halive : m.stub.halted = false)
    (hack : m.stub.mResponseAcknowledged = false) (now : Nat) (arrived : List UInt8)
    {bs : List UInt8} (hbyte : m.pending ++ arrived = char '-' :: bs) :
    ∃ last, lastPacket m.stub.output = some last ∧
      (m.tick P now arrived).stub.output = m.stub.output ++ [.packet last] ∧
      (m.tick P now arrived).stub.failedAsserts = m.stub.failedAsserts := by
  have hsound := sound_run (fun _ _ => False.elim) hs hrun
  have hsettled : Settled m.stub := hsound.settled (by rw [hreads]; exact List.cons_ne_nil _ fs)
  obtain ⟨b, hread⟩ := afterRead_nack (P := P) hstart hack
  have hstored : Settled { m.stub with mRequest := b } := hsettled
  obtain ⟨str, hlast, hresent⟩ := hstored.resend hack
  have htick : (m.tick P now arrived).stub =
      ((afterRead P input (.byte (char '-'))).run m.stub).2 := by
    rcases tick_cases P m now arrived with ⟨hidle, -⟩ | ⟨-, f, fs', hframes, htick⟩
    · rcases hidle with hhalted | hnone
      · rw [halive] at hhalted
        cases hhalted
      · rw [hreads] at hnone
        cases hnone
    · rw [hreads] at hframes
      obtain ⟨rfl, rfl⟩ := List.cons.inj hframes
      rw [htick, advance_readPoll_cons hbyte]
      rfl
  rw [htick, hread, hresent]
  exact ⟨gdbFrame str, hlast, rfl, rfl⟩

/-- A breakpoint is hit as the image is loaded. -/
def stopAtLoad : Machine FlatMachine :=
  (initial (Stub.initial ⟨fun _ => 0, []⟩)).enter 0 0 ⟨.breakpoint, 0, 3⟩ (fun _ => 0) 0

theorem stopAtLoad_step {P : Platform FlatMachine} {short : Prop} :
    CodeStep P short (initial (Stub.initial ⟨fun _ => 0, []⟩))
      (.exception 0 0 ⟨.breakpoint, 0, 3⟩ (fun _ => 0) 0) stopAtLoad :=
  .plain (.stop _ 0 0 ⟨.breakpoint, 0, 3⟩ (fun _ => 0) 0 rfl rfl) (Or.inl rfl)

/-- A stop with a `-` waiting, about to read it. -/
def refusedStop : Machine FlatMachine :=
  (((initial (Stub.initial ⟨fun _ => 0x90, []⟩)).enter 0 0 ⟨.breakpoint, 0, 3⟩ (fun _ => 0) 0).tick
    flatPlatform 0 [char '-']).tick flatPlatform 0 []

/-- The theorem where the debugger refuses the stop reply. -/
theorem resend_repeats_stop : ∃ last, lastPacket refusedStop.stub.output = some last ∧
    (refusedStop.tick flatPlatform 0 []).stub.output = refusedStop.stub.output ++ [.packet last] ∧
    (refusedStop.tick flatPlatform 0 []).stub.failedAsserts = refusedStop.stub.failedAsserts := by
  have hstop : CodeStep flatPlatform False (initial (Stub.initial ⟨fun _ => 0x90, []⟩)) _ _ :=
    .plain (.stop _ 0 0 ⟨.breakpoint, 0, 3⟩ (fun _ => 0) 0 rfl rfl) (Or.inl rfl)
  have hrun : CodeRun flatPlatform False (fun _ => True)
      (initial (Stub.initial ⟨fun _ => 0x90, []⟩)) _
      refusedStop :=
    (((CodeRun.none _).snoc trivial hstop).snoc trivial
      (.plain (.tick _ 0 [char '-']) (Or.inr ⟨0, [char '-'], rfl⟩))).snoc trivial
        (.plain (.tick _ 0 []) (Or.inr ⟨0, [], rfl⟩))
  exact resend_repeats rfl hrun (T := 0) (E := 10) rfl (Or.inr rfl) rfl rfl 0 [] rfl

end Machine
end UefiDebugger
