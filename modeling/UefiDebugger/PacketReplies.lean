import UefiDebugger.CommandOutcome
import UefiDebugger.CommandSession
import UefiDebugger.ResumeRequest
import UefiDebugger.PacketSize

/-!
# Every packet is answered once

The replies to a valid packet are decided by its payload: a console packet and `OK` for an accepted
`qRcmd`, nothing for a request to resume the target, and one reply for everything else.

The comparisons of `ProcessVCommand` and `ProcessQuery` are prefix tests on the payload; with that,
the outcome of a command in a state becomes an outcome of its text.
-/
namespace UefiDebugger
open HexText ByteString StateEffect

variable {σ : Type}

/-! ## Comparisons with a literal -/

/-- `strncmp` over no more than the literal compares with a prefix. -/
theorem strNEq_literal {f : Nat → UInt8} : ∀ {n : Nat} {str w : List UInt8} {i : Nat},
    (0 : UInt8) ∉ str → n ≤ str.length → Holds f i (w ++ [0]) →
    ((strNEq f i str n).1 = true ↔ str.take n <+: w)
  | 0, _, _, _, _, _, _ => by simp [strNEq]
  | n + 1, [], _, _, _, hn, _ => absurd hn (Nat.not_succ_le_zero n)
  | n + 1, c :: str, [], i, hstr, _, h => by
      have hc : f i ≠ c := by
        rw [h.1]
        exact fun he => hstr (he ▸ List.mem_cons_self)
      simp [strNEq, hc]
  | n + 1, c :: str, b :: w, i, hstr, hn, h => by
      obtain ⟨hb, hw⟩ := h
      have hrest :=
        strNEq_literal (fun h0 => hstr (List.mem_cons_of_mem c h0)) (Nat.le_of_succ_le_succ hn) hw
      rw [strNEq, List.headD_cons, List.tail_cons, List.take_succ_cons,
        List.cons_prefix_cons, ← hrest, hb]
      by_cases hbc : b = c
      · have hb0 : b ≠ 0 := fun he => hstr (by rw [← hbc, he]; exact List.mem_cons_self)
        simp [hbc, hbc ▸ hb0]
      · have hcb : c ≠ b := Ne.symm hbc
        simp [hbc, hcb]

/-! ## Requests by their text -/

/-- A packet that resumes the target. -/
def Resumes (payload : List UInt8) : Prop :=
  ContName (payload.tail.takeWhile plain) ∧ RequestsResume payload

/-- A monitor command that `ProcessMonitorCmd` accepts: an even number of digits, and not too
many. -/
def AcceptedRcmd (payload : List UInt8) : Prop :=
  ∃ digits, payload = text "qRcmd," ++ digits ∧ (textAt digits 0).length % 2 = 0 ∧
    (textAt digits 0).length / 2 < monitorCommandSize

/-! ## Monitor commands -/

/-- A command ends in one reply, and the console only comes before the `OK` of an accepted monitor
command. -/
inductive Replied (P : Platform σ) (payload : List UInt8) (s u : Stub σ) : Prop
  | once (ordinary : ¬ AcceptedRcmd payload) (sent : Sent (ReplyText P False) s u)
  | console {v : Stub σ} (accepted : AcceptedRcmd payload) (printed : Sent ConsoleText s v)
      (done : Sent (· = text "OK") v u)

theorem Replied.after_quiet {P : Platform σ} {payload : List UInt8} {s s' u : Stub σ}
    (h : Replied P payload s' u) (hquiet : s'.voice = s.voice) : Replied P payload s u := by
  cases h with
  | once ordinary sent => exact .once ordinary (sent.after_quiet hquiet)
  | console accepted printed done => exact .console accepted (printed.after_quiet hquiet) done

theorem processMonitorCmd_replied (P : Platform σ) {s : Stub σ} {digits : List UInt8} {c : Nat}
    (h : Holds s.mRequest.bytes c (digits ++ [0]))
    (hfits : digits.length < pcdMaximumAsciiStringLength) :
    Replied P (text "qRcmd," ++ digits) s ((processMonitorCmd P c).run s).2 := by
  have hlen : ((asciiStrLen c).run s).1 = (textAt digits 0).length := strLen_of_holds h hfits
  rw [processMonitorCmd_eq, run_bind, hlen]
  refine Replied.after_quiet ?_ (voice_of_spoken (spoken_asciiStrLen c) s)
  generalize ((asciiStrLen c).run s).2 = t
  by_cases hrefused : (textAt digits 0).length % 2 ≠ 0 ∨
    monitorCommandSize ≤ (textAt digits 0).length / 2
  · rw [if_pos hrefused]
    refine .once ?_ (sent_error (by decide) t)
    rintro ⟨digits', hdigits, heven, hshort⟩
    rw [← List.append_cancel_left hdigits] at heven hshort
    omega
  · rw [if_neg hrefused]
    have haccepted : AcceptedRcmd (text "qRcmd," ++ digits) := ⟨digits, rfl, by omega, by omega⟩
    obtain ⟨v, hprinted, hdone⟩ :=
      acceptedMonitor_consoles (P := P) ((textAt digits 0).length / 2) c t
    exact .console haccepted hprinted hdone

/-! ## Queries -/

section Query
variable {P : Platform σ} {s : Stub σ} {w : List UInt8}

/-- What is read so far of a query is its text. -/
def Reading (s : Stub σ) (w : List UInt8) (t : Stub σ) : Prop :=
  t.voice = s.voice ∧ Holds t.mRequest.bytes 2 (w ++ [0])

/-- From any point of the reading, `m` ends as `Replied` says. -/
def Replies (P : Platform σ) (s : Stub σ) (w : List UInt8) (m : StubM σ Unit) : Prop :=
  ∀ t, Reading s w t → Replied P (char 'q' :: w) s (m.run t).2

theorem replies_once {m : StubM σ Unit} (hordinary : ¬ AcceptedRcmd (char 'q' :: w))
    (hm : Answers anyState (ReplyText P False) m) : Replies P s w m := fun t ht =>
  .once hordinary ((hm t trivial).after_quiet ht.1)

/-- One comparison of the chain. -/
theorem replies_compare {str : List UInt8} {k : Nat} {m n : StubM σ Unit}
    (hliteral : (0 : UInt8) ∉ str ∧ k ≤ str.length) (hm : str.take k <+: w → Replies P s w m)
    (hn : ¬ str.take k <+: w → Replies P s w n) :
    Replies P s w (do
      if ← asciiStrnCmpEq 2 str k then m else n) := by
  rintro t ⟨hvoice, hheld⟩
  have hcompare : ((asciiStrnCmpEq 2 str k).run t).1 = true ↔ str.take k <+: w :=
    strNEq_literal hliteral.1 hliteral.2 hheld
  have hreading : Reading s w ((asciiStrnCmpEq 2 str k).run t).2 := ⟨hvoice, hheld⟩
  rw [run_bind, run_ite]
  by_cases hprefix : str.take k <+: w
  · rw [if_pos (hcompare.mpr hprefix)]
    exact hm hprefix _ hreading
  · rw [if_neg (mt hcompare.mp hprefix)]
    exact hn hprefix _ hreading

theorem starts_with_rcmd (h : AcceptedRcmd (char 'q' :: w)) : text "Rcmd," <+: w := by
  obtain ⟨digits, hdigits, -⟩ := h
  exact ⟨digits, (List.cons.inj hdigits).2.symm⟩

/-- Another command than `Rcmd,`. -/
theorem not_accepted {str : List UInt8} (h : str <+: w)
    (hother : ¬ str <+: text "Rcmd," ∧ ¬ text "Rcmd," <+: str) :
    ¬ AcceptedRcmd (char 'q' :: w) := by
  intro haccepted
  rcases List.prefix_or_prefix_of_prefix h (starts_with_rcmd haccepted) with hp | hp
  · exact hother.1 hp
  · exact hother.2 hp

/-- **A query is answered once**, but for an accepted monitor command, which prints first. -/
theorem processQuery_replied (P : Platform σ) (h : Holds s.mRequest.bytes 2 (w ++ [0]))
    (hfits : w.length < pcdMaximumAsciiStringLength) :
    Replied P (char 'q' :: w) s ((processQuery P 2).run s).2 := by
  refine (?_ : Replies P s w (processQuery P 2)) s ⟨rfl, h⟩
  refine replies_compare (by decide) (fun hp => ?_) fun _ => ?_
  · exact replies_once (not_accepted hp (by decide)) (answers_fixed (by decide))
  refine replies_compare (by decide) (fun hp => ?_) fun _ => ?_
  · exact replies_once (not_accepted hp (by decide)) (answers_fixed (by decide))
  refine replies_compare (by decide) (fun hp => ?_) fun _ => ?_
  · exact replies_once (not_accepted hp (by decide)) (answers_fixed (by decide))
  refine replies_compare (by decide) (fun hp => ?_) fun _ => ?_
  · exact replies_once (not_accepted hp (by decide)) readTargetDescription_answers
  refine replies_compare (by decide) (fun hp => ?_) fun _ => ?_
  · exact replies_once (not_accepted hp (by decide)) readTargetRegisters_answers
  refine replies_compare (by decide) (fun hp => ?_) fun hno => ?_
  · obtain ⟨digits, rfl⟩ := hp
    rintro t ⟨hvoice, hheld⟩
    rw [List.append_assoc] at hheld
    refine Replied.after_quiet (processMonitorCmd_replied P (holds_append.mp hheld).2 ?_) hvoice
    rw [List.length_append] at hfits
    omega
  have hordinary : ¬ AcceptedRcmd (char 'q' :: w) :=
    fun haccepted => hno (starts_with_rcmd haccepted)
  refine replies_compare (by decide) (fun _ => ?_) fun _ => ?_
  · exact replies_once hordinary (answers_fixed (by decide))
  · exact replies_once hordinary (answers_fixed (by decide))

end Query

/-! ## `v` commands -/

section VCommand
variable {P : Platform σ} {s : Stub σ} {w : List UInt8}

/-- What a `v` command comes to: one reply, or nothing and the target is resumed. -/
inductive VReplied (P : Platform σ) (payload : List UInt8) (s u : Stub σ) : Prop
  | once (ordinary : ¬ Resumes payload) (sent : Sent (ReplyText P False) s u)
      (kept : u.gRunning = s.gRunning)
  | resumed (resumes : Resumes payload) (nothing : u.output = s.output)
      (running : u.gRunning = true)

/-- The target is resumed when the text comes to that. -/
theorem resumes_iff : Resumes (char 'v' :: w) ↔ vRequest w = .goOn ∨ vRequest w = .step := by
  constructor
  · rintro ⟨hname, hc | hs⟩
    · exact Or.inl ((if_pos hname).trans (if_pos (requests_iff.mp hc)))
    · by_cases hc : text ";c" <+: w.dropWhile plain
      · exact Or.inl ((if_pos hname).trans (if_pos hc))
      · exact Or.inr ((if_pos hname).trans ((if_neg hc).trans (if_pos (requests_iff.mp hs))))
  · rintro (hgo | hstep)
    · have hknown : vRequest w ≠ .unknown := by
        rw [hgo]
        decide
      exact ⟨vRequest_named hknown, Or.inl (vRequest_goOn hgo)⟩
    · have hknown : vRequest w ≠ .unknown := by
        rw [hstep]
        decide
      exact ⟨vRequest_named hknown, Or.inr (vRequest_step hstep)⟩

theorem Parsed.voice {t : Stub σ} (h : Parsed s t) : t.voice = s.voice := by
  rw [h.same]
  rfl

/-- One reply, in a state in which only the request was read. -/
theorem vReplied_reply {t : Stub σ} {str : List UInt8} (hparsed : Parsed s t)
    (hordinary : ¬ Resumes (char 'v' :: w)) (hstr : str ∈ fixedReplies) :
    VReplied P (char 'v' :: w) s ((sendGdbResponse (.text str) : StubM σ Unit).run t).2 := by
  have hkept := congrArg Vital.gRunning (keeps_sendGdbResponse (π := Stub.vital) (.text str) t)
  have hrunning : t.gRunning = s.gRunning := congrArg Vital.gRunning hparsed.vital
  exact .once hordinary ((sent_text (.fixed hstr) t).after_quiet hparsed.voice)
    (hkept.trans hrunning)

/-- **A `v` command is answered once, or resumes the target.** -/
theorem processVCommand_replied (P : Platform σ) (h : Holds s.mRequest.bytes 2 (w ++ [0])) :
    VReplied P (char 'v' :: w) s ((processVCommand P 2 w.length).run s).2 := by
  obtain ⟨t, hparsed, hdone⟩ := processVCommand_decided P h
  have houtput : t.output = s.output := congrArg Voice.output hparsed.voice
  rw [hdone]
  cases hrequest : vRequest w with
  | goOn => exact .resumed (resumes_iff.mpr (Or.inl hrequest)) houtput rfl
  | step => exact .resumed (resumes_iff.mpr (Or.inr hrequest)) houtput rfl
  | list =>
    refine vReplied_reply hparsed (fun hresumes => ?_) (by decide)
    rcases resumes_iff.mp hresumes with hother | hother
    · cases hrequest.symm.trans hother
    · cases hrequest.symm.trans hother
  | unknown =>
    refine vReplied_reply hparsed (fun hresumes => ?_) (by decide)
    rcases resumes_iff.mp hresumes with hother | hother
    · cases hrequest.symm.trans hother
    · cases hrequest.symm.trans hother

end VCommand

/-! ## Commands -/

/-- What is sent after the acknowledgement of a valid packet. -/
inductive Answer (payload : List UInt8) : List Output → Prop
  | reply {str : List UInt8} (quiet : ¬ AcceptedRcmd payload) (stays : ¬ Resumes payload) :
      Answer payload [.packet (gdbFrame str)]
  | console {digits : List UInt8} (accepted : AcceptedRcmd payload) (stays : ¬ Resumes payload)
      (hex : ∀ c ∈ digits, c ∈ hexChars) :
      Answer payload [.packet (gdbFrame (char 'O' :: digits)), .packet (gdbFrame (text "OK"))]
  | resumed (resumes : Resumes payload) : Answer payload []

/-- Executing a packet with payload `p` takes `s` to `u`. -/
def Answered (p : List UInt8) (s u : Stub σ) : Prop :=
  (∃ replies, Answer p replies ∧ u.output = s.output ++ replies) ∧
    (u.gRunning = true ↔ s.gRunning = true ∨ Resumes p)

section Command
variable {P : Platform σ} {p : List UInt8} {s u : Stub σ}

theorem Resumes.head (h : Resumes p) : p.head? = some (char 'v') := by
  obtain ⟨-, ⟨w, rest, rfl, -⟩ | ⟨w, rest, rfl, -⟩⟩ := h
  · rfl
  · rfl

theorem AcceptedRcmd.head (h : AcceptedRcmd p) : p.head? = some (char 'q') := by
  obtain ⟨digits, rfl, -⟩ := h
  rfl

/-- What a command does that never resumes the target. -/
theorem Replied.answered (h : Replied P p s u) (hstays : ¬ Resumes p)
    (hrunning : u.gRunning = s.gRunning) :
    Answered p s u := by
  refine ⟨?_, by rw [hrunning]; simp [hstays]⟩
  cases h with
  | once ordinary sent =>
    obtain ⟨str, -, hout, -⟩ := sent
    exact ⟨_, .reply ordinary hstays, hout⟩
  | console accepted printed done =>
    obtain ⟨str, ⟨digits, rfl, hhex, -⟩, hout, -⟩ := printed
    obtain ⟨str', rfl, hout', -⟩ := done
    exact ⟨_, .console accepted hstays hhex, by rw [hout', hout, List.append_assoc]; rfl⟩

theorem VReplied.answered (h : VReplied P p s u) (hordinary : ¬ AcceptedRcmd p) :
    Answered p s u := by
  cases h with
  | once stays sent kept =>
    obtain ⟨str, -, hout, -⟩ := sent
    exact ⟨⟨_, .reply hordinary stays, hout⟩, by rw [kept]; simp [stays]⟩
  | resumed resumes nothing running =>
    exact ⟨⟨_, .resumed resumes, by rw [nothing, List.append_nil]⟩, by simp [running, resumes]⟩

/-- The first character of the payload is the one dispatched on. -/
theorem Payload.head (h : Payload s.mRequest p) {c : UInt8} (hc : p.head? = some c) :
    s.mRequest.bytes 1 = c := by
  cases p with
  | nil => cases hc
  | cons b w => exact h.held.1.trans (Option.some.inj hc)

theorem Payload.tail (h : Payload s.mRequest p) {c : UInt8} (hc : s.mRequest.bytes 1 = c)
    (h0 : c ≠ 0) : ∃ w, p = c :: w := by
  cases p with
  | nil => exact absurd (hc.symm.trans h.held.1) h0
  | cons b w => exact ⟨w, by rw [← hc, h.held.1]⟩

/-- Without a reboot, every command that is no `v` command ends in one reply. -/
theorem executeGdbCommand_replied (P : Platform σ) (hreboot : ∀ t, (P.debugReboot t).1 = true)
    (h : Payload s.mRequest p) (hv : s.mRequest.bytes 1 ≠ char 'v') :
    Replied P p s ((executeGdbCommand P 1 p.length).run s).2 := by
  by_cases hq : s.mRequest.bytes 1 = char 'q'
  · obtain ⟨w, rfl⟩ := h.tail hq (by decide)
    obtain ⟨s', hrun, hparsing⟩ := executeGdbCommand_run P h
    have hquiet : s'.voice = s.voice := by
      rw [hparsing.same]
      rfl
    rw [List.length_cons, hrun]
    exact (processQuery_replied P hparsing.held hparsing.fits).after_quiet hquiet
  · have hordinary : ¬ AcceptedRcmd p := fun haccepted => hq (h.head haccepted.head)
    rw [executeGdbCommand, run_bind]
    refine Replied.after_quiet (.once hordinary ?_) (voice_of_spoken (spoken_readRequest 1) s)
    show Sent _ _ ((dispatchGdbCommand P (s.mRequest.bytes 1) 1 p.length).run _).2
    by_cases hr : s.mRequest.bytes 1 = char 'r' ∨ s.mRequest.bytes 1 = char 'R'
    · have hdispatch : dispatchGdbCommand P (s.mRequest.bytes 1) 1 p.length = rebootCommand P := by
        rcases hr with hr | hr
        · rw [hr]
          rfl
        · rw [hr]
          rfl
      rw [hdispatch, rebootCommand, run_bind,
        if_pos (show ((debugReboot P).run _).1 = true from hreboot _)]
      exact (sent_error (by decide) _).after_quiet rfl
    · exact dispatchGdbCommand_answers hv hq hr 1 p.length _ fun _ hfalse => hfalse.elim

/-- **A command is answered as its payload says.** -/
theorem executeGdbCommand_answered (P : Platform σ) (hreboot : ∀ t, (P.debugReboot t).1 = true)
    (h : Payload s.mRequest p) : Answered p s ((executeGdbCommand P 1 p.length).run s).2 := by
  by_cases hv : s.mRequest.bytes 1 = char 'v'
  · obtain ⟨w, rfl⟩ := h.tail hv (by decide)
    obtain ⟨s', hrun, hparsing⟩ := executeGdbCommand_run P h
    have hordinary : ¬ AcceptedRcmd (char 'v' :: w) := fun haccepted =>
      absurd (Option.some.inj haccepted.head) (by decide)
    have hanswered := (processVCommand_replied P hparsing.held).answered hordinary
    rw [List.length_cons, hrun]
    rw [hparsing.same] at hanswered ⊢
    exact hanswered
  · have hstays : ¬ Resumes p := fun hresumes => hv (h.head hresumes.head)
    have hflags := congrArg Prod.snd (flags_executeGdbCommand P p.length hv)
    exact (executeGdbCommand_replied P hreboot h hv).answered hstays hflags

end Command

/-! ## Packets -/

section Packets
variable {P : Platform σ} {s : Stub σ} {n : Nat} {point : InputPoint} {e : Receive} {p : List UInt8}

/-- A packet that is complete was only stored. -/
theorem collectorTail_packet {k : Nat} (h : ((collectorTail k).run s).1 = .packet n) :
    ∃ top, ((collectorTail k).run s).2 = { s with mRequest := s.mRequest.mark top } := by
  rw [collectorTail, run_bind, run_ite] at h ⊢
  by_cases hshort : k < 4
  · rw [packetContinues, if_pos hshort, run_pure, if_pos rfl] at h
    split at h
    · cases h
    · cases h
  · have hlook : (packetContinues k).run s =
        (decide (s.mRequest.bytes (k - 3) ≠ char '#'),
          { s with mRequest := s.mRequest.mark (k - 3 + 1) }) := by
      rw [packetContinues, if_neg hshort]
      rfl
    rw [hlook] at h ⊢
    by_cases hgoes : s.mRequest.bytes (k - 3) ≠ char '#'
    · rw [if_pos (decide_eq_true hgoes)] at h
      split at h
      · cases h
      · cases h
    · rw [if_neg (fun h => hgoes (of_decide_eq_true h))]
      exact ⟨_, rfl⟩

theorem receiveFirst_packet : ((receiveFirst e).run s).1 ≠ .packet n := by
  intro h
  cases e with
  | timeout => cases h
  | byte b =>
    rw [receiveFirst, run_bind, run_bind, run_get, run_ite] at h
    split at h
    · cases h
    · rw [run_ite] at h
      split at h
      · cases h
      · rw [run_ite] at h
        split at h
        · cases h
        · cases h

/-- Up to the call of `ProcessGdbPacket` only the request buffer was touched. -/
theorem collect_packet (h : ((collect point e).run s).1 = .packet n) :
    ∃ b, ((collect point e).run s).2 = { s with mRequest := b } := by
  cases point with
  | first => exact absurd h receiveFirst_packet
  | returned => exact absurd h receiveFirst_packet
  | packet k => exact ⟨_, rfl⟩
  | next k =>
    cases e with
    | timeout => cases h
    | byte b =>
      obtain ⟨top, hrun⟩ := collectorTail_packet h
      exact ⟨_, hrun⟩

theorem judge_executed {q : List UInt8} {c d : UInt8} (h : judge q c d = .executed p) : q = p := by
  rw [judge] at h
  split at h
  · exact Verdict.executed.inj h
  · cases h

/-- **Every valid packet is acknowledged and answered exactly once.**  Whatever the state in which
the loop waits for the last byte of the packet, the acknowledgement is followed by one reply; before
it there is one console packet if the packet is an accepted monitor command, and a packet that
resumes the target is the only one that is not replied to. -/
theorem receive_answered (P : Platform σ) (hreboot : ∀ t, (P.debugReboot t).1 = true)
    {d : Option (List UInt8)} (hwaits : Standing s.mRequest point d)
    (hvalid : decodeStep d e = (none, [.executed p])) :
    ∃ replies, Answer p replies ∧
      ((receive P point e).run s).2.output = s.output ++ [.ack true, .command p] ++ replies ∧
      (((receive P point e).run s).2.gRunning = true ↔ s.gRunning = true ∨ Resumes p) := by
  have hcollected := collected hwaits e
  have hsame : ∀ n, ((collect point e).run s).1 = .packet n →
      ∃ b, ((collect point e).run s).2 = { s with mRequest := b } := fun _ => collect_packet
  rw [receive, run_bind]
  generalize ((collect point e).run s).1 = next at *
  generalize ((collect point e).run s).2 = t at *
  cases hcollected with
  | waits standing decided unexecuted =>
    rw [hvalid] at unexecuted
    exact absurd (List.mem_singleton_self _) (unexecuted p)
  | @completes n q c c' complete judged decided =>
    rw [hvalid] at judged
    have hjudge : judge q c c' = .executed p :=
      (List.singleton_inj.mp (Prod.ext_iff.mp judged).2).symm
    obtain rfl := judge_executed hjudge
    obtain ⟨b, rfl⟩ := hsame n rfl
    obtain ⟨top, hrun⟩ := validateGdbPacket_run P complete
    rw [hjudge] at hrun
    obtain ⟨t', hvalidated, hpayload, hacked, hkept⟩ :
        ∃ t', (validateGdbPacket P n).run { s with mRequest := b } = (some (q.length + 1), t') ∧
          Payload t'.mRequest q ∧ t'.output = s.output ++ [.ack true, .command q] ∧
          t'.gRunning = s.gRunning := ⟨_, hrun, complete.terminated top, rfl, rfl⟩
    rw [finishPacket, run_bind, processGdbPacket, run_bind, hvalidated, ← hacked, ← hkept]
    obtain ⟨⟨replies, hanswer, hout⟩, hrunning⟩ := executeGdbCommand_answered P hreboot hpayload
    exact ⟨replies, hanswer, hout, hrunning⟩

end Packets

/-- The stub with all but the last character of `$?#3f` received. -/
def statusRequest : Stub FlatMachine :=
  { Stub.initial ⟨fun _ => 0x90, []⟩ with mRequest := ⟨store (fun _ => 0) 0 (text "$?#3"), 0, 4⟩ }

/-- The theorem at a `?` packet. -/
theorem receive_answered_status : ∃ replies, Answer (text "?") replies ∧
    ((receive flatPlatform (.next 4) (.byte (char 'f'))).run statusRequest).2.output =
      [] ++ [.ack true, .command (text "?")] ++ replies ∧
    (((receive flatPlatform (.next 4) (.byte (char 'f'))).run statusRequest).2.gRunning = true ↔
      true = true ∨ Resumes (text "?")) :=
  receive_answered flatPlatform (fun _ => rfl) (d := some (text "?#3"))
    ⟨text "?#3", rfl, rfl, by decide, holds_store _ 0 (text "$?#3"),
      open_payload (p := text "?") (by decide) (char '3')⟩
    (by decide)

end UefiDebugger
