import UefiDebugger.Resends

/-!
# Refused packets

The debugger answers the packets of the stub in the order they were sent, each with `+` or `-`.  A
`Conversation` keeps the packets that wait for their answer; `Exchange` is what a step of the code
does to it. The stub keeps one packet and one flag, so a `-` finds its packet there only while no
other packet waits with it.

The answers count as they are read, whether `ProcessInputData` reads them or `DebuggerPollInput`
throws them away.
-/
namespace UefiDebugger
open HexText ByteString StateEffect

variable {σ : Type}

/-! ## The packets that wait for an answer -/

/-- The answer that a byte outside packets is. -/
def answerOf (Byte : UInt8) : Option Bool :=
  if Byte = char '+' then some true else if Byte = char '-' then some false else none

/-- The packets that wait for an answer, the oldest first, and whether two of them did so together
since none waited. -/
structure Conversation where
  unanswered : List (List UInt8)
  overlapped : Bool

namespace Conversation

/-- Nothing was sent. -/
def silence : Conversation := ⟨[], false⟩

/-- The oldest packets are answered, then others are sent. -/
def goOn (c : Conversation) (answers : List Bool) (sent : List (List UInt8)) : Conversation :=
  let unanswered := c.unanswered.drop answers.length ++ sent
  { unanswered := unanswered
    overlapped := decide (unanswered ≠ []) && (c.overlapped || decide (1 < unanswered.length)) }

theorem goOn_apart {c : Conversation} {answers : List Bool} {sent : List (List UInt8)}
    (h : (c.goOn answers sent).overlapped = false) :
    (c.goOn answers sent).unanswered = [] ∨ c.overlapped = false ∧
    (c.goOn answers sent).unanswered.length ≤ 1 := by
  rcases Bool.and_eq_false_iff.mp h with hempty | hapart
  · exact Or.inl (not_not.mp (of_decide_eq_false hempty))
  · obtain ⟨hbefore, hlength⟩ := Bool.or_eq_false_iff.mp hapart
    exact Or.inr ⟨hbefore, Nat.not_lt.mp (of_decide_eq_false hlength)⟩

end Conversation

/-! ## What a step does -/

namespace Machine
variable {P : Platform σ}

/-- The answers that a step reads. -/
def answers (m : Machine σ) : Event σ → List Bool
  | .tick _ arrived =>
      if m.stub.halted = true then []
      else match m.frames with
        | ⟨_, .readPoll .first _⟩ :: _ => ((m.pending ++ arrived).take 1).filterMap answerOf
        | ⟨_, .readPoll .returned _⟩ :: _ => ((m.pending ++ arrived).take 1).filterMap answerOf
        | _ => []
  | .running _ _ polled => (m.pending.take polled).filterMap answerOf
  | _ => []

/-- The packets that a step sends. -/
def sent (m m' : Machine σ) : List (List UInt8) :=
  (packets m'.stub.output).drop (packets m.stub.output).length

/-- What a step does: it neither reads an answer nor sends, sends without reading one, reads one in
a stop, or throws answers away while the target runs. -/
inductive Exchange (m : Machine σ) (e : Event σ) (m' : Machine σ) : Prop
  | quiet (unread : m.answers e = []) (same : packets m'.stub.output = packets m.stub.output)
      (flag : m'.stub.mResponseAcknowledged = m.stub.mResponseAcknowledged)
  | spoke (unread : m.answers e = []) {new : List (List UInt8)}
      (more : packets m'.stub.output = packets m.stub.output ++ new)
      (flag : m'.stub.mResponseAcknowledged = false)
  | received (read : m.answers e = [true]) (same : packets m'.stub.output = packets m.stub.output)
  | resent (read : m.answers e = [false]) (stopped : m.frames ≠ [])
      (waiting : m.stub.mResponseAcknowledged = false) {last : List UInt8}
      (newest : (packets m.stub.output).getLast? = some last)
      (more : packets m'.stub.output = packets m.stub.output ++ [last])
      (flag : m'.stub.mResponseAcknowledged = false)
  | ignored (read : m.answers e = [false]) (settled : m.stub.mResponseAcknowledged = true)
      (same : packets m'.stub.output = packets m.stub.output)
      (flag : m'.stub.mResponseAcknowledged = m.stub.mResponseAcknowledged)
  | polled (running : m.frames = []) (same : packets m'.stub.output = packets m.stub.output)
      (flag : m'.stub.mResponseAcknowledged = m.stub.mResponseAcknowledged)

theorem Exchange.of_speech {m m' : Machine σ} {e : Event σ} (hunread : m.answers e = [])
    (hsame : m'.stub.speech = m.stub.speech) : Exchange m e m' :=
  .quiet hunread (congrArg Speech.packets hsame) (congrArg Speech.mResponseAcknowledged hsame)

/-- A command sends nothing, one packet, or the two of an accepted `qRcmd`. -/
theorem Exchange.of_command {m m' : Machine σ} {e : Event σ} (hunread : m.answers e = [])
    (h : CommandResult P False m.stub m'.stub) : Exchange m e m' := by
  cases h with
  | replied sent =>
    obtain ⟨str, -, hout, hflag, -⟩ := sent
    exact .spoke hunread (by rw [hout, packets_packet]) hflag
  | console printed accepted =>
    obtain ⟨str, -, hout, -, -⟩ := printed
    obtain ⟨str', -, hout', hflag, -⟩ := accepted
    exact .spoke hunread (by rw [hout', packets_packet, hout, packets_packet, List.append_assoc])
      hflag
  | silent same gone => exact .of_speech hunread (speech_of_spoken_eq same)

/-- A stop begins with one packet. -/
theorem Exchange.of_enter {m k : Machine σ} {e : Event σ} (hunread : m.answers e = [])
    (hquiet : k.stub.voice = m.stub.voice) (i c : Nat) (info : ExceptionInfo) (context : Context)
    (now : Nat) :
    Exchange m e (k.enter i c info context now) := by
  have hout : k.stub.output = m.stub.output := congrArg Voice.output hquiet
  obtain ⟨str, -, hreply, hflag, -⟩ : Sent (fun _ => True) k.stub
    (k.enter i c info context now).stub :=
    (sent_text trivial _).after_quiet rfl
  exact .spoke hunread (by rw [hreply, packets_packet, hout]) hflag

/-- Answers are only read at the start of a packet. -/
theorem answers_elsewhere {m : Machine σ} {f : Frame σ} {fs : List (Frame σ)}
    (hframes : m.frames = f :: fs) (h : ∀ input E, f.point = .readPoll input E → ¬ input.AtStart)
    (now : Nat) (arrived : List UInt8) : m.answers (.tick now arrived) = [] := by
  rw [answers, hframes]
  split
  · rfl
  · obtain ⟨T, point⟩ := f
    split
    · rename_i heq
      obtain ⟨hf, -⟩ := List.cons.inj heq
      exact absurd (Or.inl rfl) (h _ _ (congrArg Frame.point hf))
    · rename_i heq
      obtain ⟨hf, -⟩ := List.cons.inj heq
      exact absurd (Or.inr rfl) (h _ _ (congrArg Frame.point hf))
    · rfl

theorem answers_start {m : Machine σ} {T E : Nat} {input : InputPoint} {fs : List (Frame σ)}
    (halive : m.stub.halted = false) (hframes : m.frames = ⟨T, .readPoll input E⟩ :: fs)
    (hstart : input.AtStart) (now : Nat) {arrived : List UInt8} {b : UInt8} {bs : List UInt8}
    (hbyte : m.pending ++ arrived = b :: bs) :
    m.answers (.tick now arrived) = [b].filterMap answerOf := by
  have hlive : ¬ m.stub.halted = true := by simp [halive]
  rw [answers, if_neg hlive, hframes, hbyte]
  rcases hstart with rfl | rfl
  · rfl
  · rfl

/-- **One read of a stop.** -/
theorem exchange_read {m m' : Machine σ} {e : Event σ} {input : InputPoint} {outcome : Receive}
    (hsettled : Settled m.stub) (hstopped : m.frames ≠ [])
    (hread : m'.stub = ((afterRead P input outcome).run m.stub).2)
    (hanswers : (input.AtStart ∧ ∃ b, outcome = .byte b ∧ m.answers e = [b].filterMap answerOf) ∨
      ((¬ input.AtStart ∨ outcome = .timeout) ∧ m.answers e = [])) : Exchange m e m' := by
  rcases afterRead_cases P input outcome m.stub with
    ⟨hstart, rfl, hack, b, hrun⟩ | ⟨hstart, rfl, hspeech⟩ | ⟨hneither, hspeech⟩
  · have hkept : Settled { m.stub with mRequest := b } := hsettled
    obtain ⟨str, hlast, hresent⟩ := hkept.resend hack
    rw [hrun, hresent] at hread
    rcases hanswers with ⟨-, b', hb', hanswers⟩ | ⟨hstart' | htimeout, -⟩
    · obtain rfl := Receive.byte.inj hb'
      exact .resent hanswers hstopped hack hlast (by rw [hread, packets_packet])
        (by rw [hread]; exact hack)
    · exact absurd hstart hstart'
    · cases htimeout
  · rw [← hread] at hspeech
    rcases hanswers with ⟨-, b', hb', hanswers⟩ | ⟨hstart' | htimeout, -⟩
    · obtain rfl := Receive.byte.inj hb'
      exact .received hanswers (congrArg Speech.packets hspeech)
    · exact absurd hstart hstart'
    · cases htimeout
  · rw [← hread] at hspeech
    rcases hanswers with ⟨hstart, b, rfl, hanswers⟩ | ⟨-, hunread⟩
    · obtain ⟨hplus, hminus⟩ := hneither hstart
      have hnot : b ≠ char '+' := fun h => hplus (congrArg Receive.byte h)
      by_cases hrefused : b = char '-'
      · obtain rfl := hrefused
        exact .ignored hanswers (hminus rfl) (congrArg Speech.packets hspeech)
          (congrArg Speech.mResponseAcknowledged hspeech)
      · refine .of_speech (hanswers.trans ?_) hspeech
        rw [List.filterMap_cons_none (by rw [answerOf, if_neg hnot, if_neg hrefused]),
          List.filterMap_nil]
    · exact .of_speech hunread hspeech

/-- One advance of the innermost activation. -/
theorem exchange_advance {m : Machine σ} {f : Frame σ} {fs : List (Frame σ)}
    (hframes : m.frames = f :: fs) (hm : Sound P False m) (halive : m.stub.halted = false)
    (now : Nat) (arrived : List UInt8) :
    Exchange m (.tick now arrived) ((m.arrive arrived).advance P f fs now) := by
  have hstopped : m.frames ≠ [] := by
    rw [hframes]
    exact List.cons_ne_nil f fs
  have hsettled := hm.settled hstopped
  have hall : AllCoded P False (f :: fs) := hframes ▸ hm.coded
  obtain ⟨T, point⟩ := f
  have helse : (∀ input E, point = .readPoll input E → ¬ input.AtStart) →
      m.answers (.tick now arrived) = [] :=
    fun h => answers_elsewhere hframes h now arrived
  -- Only `readPoll` takes a byte; everywhere else no answer is read.
  cases point with
  | poll => exact .of_speech (helse fun _ _ => (nomatch ·)) rfl
  | readStart input => exact .of_speech (helse fun _ _ => (nomatch ·)) rfl
  | readPoll input E =>
    cases hpending : (m.arrive arrived).pending with
    | nil =>
      rw [advance_readPoll_nil hpending]
      refine .of_speech ?_ rfl
      by_cases hstart : input.AtStart
      · have hnone : m.pending ++ arrived = [] := hpending
        rw [answers, hframes, hnone]
        split
        · rfl
        · rcases hstart with rfl | rfl
          · rfl
          · rfl
      · refine helse ?_
        rintro _ _ ⟨⟩
        exact hstart
    | cons b bs =>
      rw [advance_readPoll_cons hpending]
      have hanswers : (input.AtStart ∧ ∃ b', Receive.byte b = .byte b' ∧
            m.answers (.tick now arrived) = [b'].filterMap answerOf) ∨
          ((¬ input.AtStart ∨ Receive.byte b = .timeout) ∧ m.answers (.tick now arrived) = []) := by
        by_cases hstart : input.AtStart
        · exact Or.inl ⟨hstart, b, rfl, answers_start halive hframes hstart now hpending⟩
        · refine Or.inr ⟨Or.inl hstart, helse ?_⟩
          rintro _ _ ⟨⟩
          exact hstart
      exact exchange_read hsettled hstopped rfl hanswers
  | readClock input E =>
    have hunread := helse fun _ _ => (nomatch ·)
    by_cases hnow : now < E
    · rw [advance_readClock_lt hnow]
      exact .of_speech hunread rfl
    · rw [advance_readClock_ge hnow]
      exact exchange_read hsettled hstopped rfl (Or.inr ⟨Or.inr rfl, hunread⟩)
  | execute rest =>
    have hcoded : Coded P False rest.program := hall _ List.mem_cons_self rest rfl
    have hresult : CommandResult P False m.stub (rest.program.run m.stub).2 :=
      hcoded.result fun _ _ _ => False.elim
    exact .of_command (helse fun _ _ => (nomatch ·)) hresult
  | clock =>
    have hunread := helse fun _ _ => (nomatch ·)
    by_cases hends : ((checkTimeout T now).run m.stub).2.gRunning = true
    · rw [advance_clock_ends (m := m.arrive arrived) hends]
      exact .of_speech hunread (speech_of_spoken_eq (spoken_leaveStop P _))
    · rw [advance_clock_goes_on (m := m.arrive arrived) hends]
      exact .of_speech hunread rfl

/-- **What a step of the code does to the conversation.** -/
theorem exchange_step {m m' : Machine σ} {e : Event σ} (h : CodeStep P False m e m')
    (hm : Sound P False m) :
    Exchange m e m' := by
  cases h with
  | interrupted i c info context now before after stopped executing cut kept quiet behind alive =>
    exact .of_enter rfl (quiet m.stub) i c info context now
  | plain step whole =>
    cases step with
    | tick now arrived =>
      rcases tick_cases P m now arrived with ⟨hidle, htick⟩ | ⟨halive, f, fs, hframes, htick⟩
      · rw [htick]
        refine .of_speech ?_ rfl
        rcases hidle with hhalted | hnone
        · exact if_pos hhalted
        · rw [answers, hnone]
          exact ite_self _
      · rw [htick]
        exact exchange_advance hframes hm halive now arrived
    | stop i c info context now running alive => exact .of_enter rfl rfl i c info context now
    | nested i c info context now before after stopped executing cut kept alive =>
      rcases whole with hnone | ⟨now', arrived, hevent⟩
      · rw [stopped] at hnone
        cases hnone
      · cases hevent
    | arm T running alive => exact .of_speech rfl rfl
    | running t reason polled running alive => exact .polled running rfl rfl

/-! ## Runs with a debugger that answers -/

/-- The conversations of the runs of the code in which the debugger answers only what was sent. -/
inductive Conversed (P : Platform σ) : Machine σ → Conversation → Prop
  | start {s : Stub σ} (nothing : s.output = []) : Conversed P (initial s) .silence
  | step {m m' : Machine σ} {c : Conversation} {e : Event σ} (run : Conversed P m c)
      (step : CodeStep P False m e m') (answered : (m.answers e).length ≤ c.unanswered.length) :
      Conversed P m' (c.goOn (m.answers e) (m.sent m'))

/-- They belong to the runs of the code. -/
theorem Conversed.codeRun {m : Machine σ} {c : Conversation} (h : Conversed P m c) :
    ∃ s es, s.output = [] ∧ CodeRun P False (fun _ => True) (initial s) es m := by
  induction h with
  | start nothing => exact ⟨_, [], nothing, .none _⟩
  | step run step answered ih =>
    obtain ⟨s, es, hs, hrun⟩ := ih
    exact ⟨s, es ++ [_], hs, hrun.snoc trivial step⟩

theorem Conversed.sound {m : Machine σ} {c : Conversation} (h : Conversed P m c) :
    Sound P False m := by
  obtain ⟨s, es, hs, hrun⟩ := h.codeRun
  exact sound_run (fun _ _ => False.elim) hs hrun

/-- What the stub keeps and what the debugger still has to answer: the newest packets wait, and a
packet that waits alone was not acknowledged since. -/
structure InStep (m : Machine σ) (c : Conversation) : Prop where
  newest : c.unanswered <:+ packets m.stub.output
  alone : c.overlapped = false →
    c.unanswered = [] ∨ c.unanswered.length ≤ 1 ∧ m.stub.mResponseAcknowledged = false

theorem sent_of_more {m m' : Machine σ} {new : List (List UInt8)}
    (h : packets m'.stub.output = packets m.stub.output ++ new) : m.sent m' = new := by
  rw [sent, h, List.drop_left]

theorem sent_of_same {m m' : Machine σ} (h : packets m'.stub.output = packets m.stub.output) :
    m.sent m' = [] :=
  sent_of_more (h.trans (List.append_nil _).symm)

/-- What is sent waits behind what still waits. -/
theorem InStep.newest_goOn {m m' : Machine σ} {c : Conversation} (h : InStep m c)
    (answers : List Bool) {new : List (List UInt8)}
    (hmore : packets m'.stub.output = packets m.stub.output ++ new) :
    (c.goOn answers (m.sent m')).unanswered <:+ packets m'.stub.output := by
  obtain ⟨before, hbefore⟩ := (List.drop_suffix answers.length c.unanswered).trans h.newest
  refine ⟨before, ?_⟩
  rw [hmore, ← hbefore, sent_of_more hmore, Conversation.goOn, List.append_assoc]

theorem goOn_unsent {m m' : Machine σ} (c : Conversation) (answers : List Bool)
    (hsame : packets m'.stub.output = packets m.stub.output) :
    (c.goOn answers (m.sent m')).unanswered = c.unanswered.drop answers.length := by
  rw [sent_of_same hsame]
  exact List.append_nil _

/-- **One exchange keeps them in step.** -/
theorem Exchange.inStep {m m' : Machine σ} {c : Conversation} {e : Event σ} (h : Exchange m e m')
    (hc : InStep m c) : InStep m' (c.goOn (m.answers e) (m.sent m')) := by
  have hnothing : packets m'.stub.output = packets m.stub.output → c.unanswered = [] →
      (c.goOn (m.answers e) (m.sent m')).unanswered = [] := fun hsame hempty => by
    rw [goOn_unsent c _ hsame, hempty, List.drop_nil]
  have hunsent : packets m'.stub.output = packets m.stub.output →
      packets m'.stub.output = packets m.stub.output ++ [] :=
      fun hsame => hsame.trans (List.append_nil _).symm
  -- Who speaks without an overlap has no other packet open; who reads closes the oldest.
  cases h with
  | quiet unread same flag =>
    refine ⟨hc.newest_goOn _ (hunsent same), fun hapart => ?_⟩
    rcases Conversation.goOn_apart hapart with hempty | ⟨hbefore, hone⟩
    · exact Or.inl hempty
    · rcases hc.alone hbefore with hempty | ⟨-, hack⟩
      · exact Or.inl (hnothing same hempty)
      · exact Or.inr ⟨hone, flag.trans hack⟩
  | spoke unread more flag =>
    refine ⟨hc.newest_goOn _ more, fun hapart => ?_⟩
    rcases Conversation.goOn_apart hapart with hempty | ⟨-, hone⟩
    · exact Or.inl hempty
    · exact Or.inr ⟨hone, flag⟩
  | received read same =>
    refine ⟨hc.newest_goOn _ (hunsent same), fun hapart => ?_⟩
    rcases Conversation.goOn_apart hapart with hempty | ⟨hbefore, -⟩
    · exact Or.inl hempty
    · rcases hc.alone hbefore with hempty | ⟨hone, -⟩
      · exact Or.inl (hnothing same hempty)
      · -- the packet that waited alone is the one that was answered
        rw [goOn_unsent c _ same, read]
        exact Or.inl (List.drop_eq_nil_of_le hone)
  | resent read stopped waiting newest more flag =>
    refine ⟨hc.newest_goOn _ more, fun hapart => ?_⟩
    rcases Conversation.goOn_apart hapart with hempty | ⟨-, hone⟩
    · exact Or.inl hempty
    · exact Or.inr ⟨hone, flag⟩
  | ignored read settled same flag =>
    refine ⟨hc.newest_goOn _ (hunsent same), fun hapart => ?_⟩
    rcases Conversation.goOn_apart hapart with hempty | ⟨hbefore, -⟩
    · exact Or.inl hempty
    · rcases hc.alone hbefore with hempty | ⟨-, hack⟩
      · exact Or.inl (hnothing same hempty)
      · rw [settled] at hack
        cases hack
  | polled running same flag =>
    refine ⟨hc.newest_goOn _ (hunsent same), fun hapart => ?_⟩
    rcases Conversation.goOn_apart hapart with hempty | ⟨hbefore, hone⟩
    · exact Or.inl hempty
    · rcases hc.alone hbefore with hempty | ⟨-, hack⟩
      · exact Or.inl (hnothing same hempty)
      · exact Or.inr ⟨hone, flag.trans hack⟩

theorem Conversed.inStep {m : Machine σ} {c : Conversation} (h : Conversed P m c) : InStep m c := by
  induction h with
  | start nothing => exact ⟨List.nil_suffix, fun _ => Or.inl rfl⟩
  | step run step answered ih => exact (exchange_step step run.sound).inStep ih

/-- **When a refused packet is sent again.**  In every run in which the debugger answers the packets
in order, a `-` makes the stub send again exactly the packet it answers if and only if a stop reads
it and no two packets waited for their answers together since none waited.  The one exception: the
packets that wait may happen to be alike. -/
theorem refused_resent {m m' : Machine σ} {c : Conversation} (h : Conversed P m c) {e : Event σ}
    (hstep : CodeStep P False m e m') {k : Nat} (hrefused : (m.answers e)[k]? = some false)
    {packet : List UInt8} (hpacket : c.unanswered[k]? = some packet) :
    packets m'.stub.output = packets m.stub.output ++ [packet] ↔
      m.frames ≠ [] ∧ (c.overlapped = false ∨
        m.stub.mResponseAcknowledged = false ∧ c.unanswered.getLast? = some packet) := by
  have hinStep := h.inStep
  -- Without an overlap the refused packet is the only unanswered one, and still waited for.
  have hwaits : (c.overlapped = false ∨
      m.stub.mResponseAcknowledged = false ∧ c.unanswered.getLast? = some packet) →
        m.stub.mResponseAcknowledged = false ∧ c.unanswered.getLast? = some packet := by
    rintro (hapart | hboth)
    · obtain ⟨hk, hget⟩ := List.getElem?_eq_some_iff.mp hpacket
      rcases hinStep.alone hapart with hempty | ⟨hone, hack⟩
      · rw [hempty] at hk
        exact absurd hk (Nat.not_lt_zero k)
      · refine ⟨hack, ?_⟩
        obtain ⟨p, hp⟩ := List.length_eq_one_iff.mp (Nat.le_antisymm hone (Nat.zero_lt_of_lt hk))
        rw [hp] at hpacket ⊢
        exact (List.mem_singleton.mp (List.mem_of_getElem? hpacket)) ▸ rfl
    · exact hboth
  have hunsent : packets m'.stub.output = packets m.stub.output →
      ¬ packets m'.stub.output = packets m.stub.output ++ [packet] := fun hsame hmore =>
    List.cons_ne_nil _ _ (List.self_eq_append_right.mp (hsame.symm.trans hmore))
  have hread : ∀ b, m.answers e = [b] → b = false := by
    intro b hb
    rw [hb] at hrefused
    exact List.mem_singleton.mp (List.mem_of_getElem? hrefused) |>.symm
  -- What was read is a refusal; the cases differ in what the stub did with it.
  cases exchange_step hstep h.sound with
  | quiet unread same flag =>
    rw [unread] at hrefused
    cases hrefused
  | spoke unread more flag =>
    rw [unread] at hrefused
    cases hrefused
  | received read same => exact absurd (hread _ read) (by decide)
  | resent read stopped waiting newest more flag =>
    rename_i last
    have hlast : ∀ p, c.unanswered.getLast? = some p → last = p := by
      intro p hp
      obtain ⟨before, hbefore⟩ := hinStep.newest
      rw [← hbefore, List.getLast?_append, hp] at newest
      exact (Option.some.inj newest).symm
    rw [more]
    constructor
    · intro hmore
      obtain rfl : last = packet := (List.cons.inj (List.append_cancel_left hmore)).1
      have hsome : c.unanswered ≠ [] := List.ne_nil_of_mem (List.mem_of_getElem? hpacket)
      have hnewest := List.getLast?_eq_some_getLast hsome
      exact ⟨stopped, Or.inr ⟨waiting, hlast _ hnewest ▸ hnewest⟩⟩
    · rintro ⟨-, hcondition⟩
      rw [hlast packet (hwaits hcondition).2]
  | ignored read settled same flag =>
    refine ⟨fun hmore => absurd hmore (hunsent same), ?_⟩
    rintro ⟨-, hcondition⟩
    cases settled.symm.trans (hwaits hcondition).1
  | polled running same flag =>
    exact ⟨fun hmore => absurd hmore (hunsent same), fun h => absurd running h.1⟩

/-- Ticks of a conversation, one after the other. -/
def converse (P : Platform σ) (m : Machine σ) (c : Conversation) : List (Nat × List UInt8) →
    Conversation
  | [] => c
  | t :: ts =>
      let m' := m.tick P t.1 t.2
      m'.converse P (c.goOn (m.answers (.tick t.1 t.2)) (m.sent m')) ts

/-- The debugger answers only what was sent. -/
def answersWhatWasSent (P : Platform σ) (m : Machine σ) (c : Conversation) :
    List (Nat × List UInt8) → Bool
  | [] => true
  | t :: ts =>
      let m' := m.tick P t.1 t.2
      decide ((m.answers (.tick t.1 t.2)).length ≤ c.unanswered.length) &&
        m'.answersWhatWasSent P (c.goOn (m.answers (.tick t.1 t.2)) (m.sent m')) ts

theorem Conversed.ticks {m : Machine σ} {c : Conversation} (hrun : Conversed P m c) :
    ∀ ts : List (Nat × List UInt8), m.answersWhatWasSent P c ts = true →
      Conversed P (m.ticks P ts) (m.converse P c ts)
  | [], _ => hrun
  | t :: ts, h => by
      obtain ⟨hanswered, hrest⟩ := Bool.and_eq_true_iff.mp h
      have hstep : CodeStep P False m (.tick t.1 t.2) (m.tick P t.1 t.2) :=
        .plain (.tick m t.1 t.2) (Or.inr ⟨t.1, t.2, rfl⟩)
      exact (hrun.step hstep (of_decide_eq_true hanswered)).ticks ts hrest

/-! ## The console packet -/

/-- The first stop. -/
def firstStop : Machine FlatMachine :=
  (initial (Stub.initial ⟨fun _ => 0x90, []⟩)).enter 0 0 ⟨.breakpoint, 0, 3⟩ (fun _ => 0) 0

/-- The first stop reply waits. -/
theorem firstStop_conversed :
    Conversed flatPlatform firstStop ⟨[gdbFrame (text "T05thread:01;")], false⟩ :=
  (Conversed.start rfl).step
  (.plain (.stop _ 0 0 ⟨.breakpoint, 0, 3⟩ (fun _ => 0) 0 rfl rfl) (Or.inl rfl)) (Nat.le_refl 0)

/-- The theorem where the stop reply waits alone. -/
theorem refused_resent_stop : packets (refusedStop.tick flatPlatform 0 []).stub.output =
    packets refusedStop.stub.output ++ [gdbFrame (text "T05thread:01;")] := by
  have hrun : Conversed flatPlatform refusedStop _ :=
    firstStop_conversed.ticks [(0, [char '-']), (0, [])] (by decide +kernel)
  have hstep : CodeStep flatPlatform False refusedStop (.tick 0 [])
      (refusedStop.tick flatPlatform 0 []) :=
    .plain (.tick _ 0 []) (Or.inr ⟨0, [], rfl⟩)
  have hstopped : refusedStop.frames ≠ [] := List.cons_ne_nil _ _
  exact (refused_resent hrun hstep (k := 0) (by decide +kernel) (by decide +kernel)).mpr
    ⟨hstopped, Or.inl (by decide +kernel)⟩

/-- The debugger acknowledges the stop reply and asks for `qRcmd,76`. -/
def monitorRequest : List (Nat × List UInt8) :=
  (0, text "+$qRcmd,76#90") :: List.replicate 28 (0, [])

/-- The answer of the command waits, in two packets. -/
def monitorStop : Machine FlatMachine := firstStop.ticks flatPlatform monitorRequest

/-- **The console packet is lost**: the debugger refuses it, and is sent the `OK` behind it once
more. -/
theorem refused_console_lost : ∃ c, Conversed flatPlatform monitorStop c ∧
    c.unanswered = [gdbFrame (text "O544f444f0a0d"), gdbFrame (text "OK")] ∧
    CodeStep flatPlatform False monitorStop (.tick 0 [char '-'])
    (monitorStop.tick flatPlatform 0 [char '-']) ∧
    monitorStop.answers (.tick 0 [char '-']) = [false] ∧
    packets (monitorStop.tick flatPlatform 0 [char '-']).stub.output =
      packets monitorStop.stub.output ++ [gdbFrame (text "OK")] ∧
    packets (monitorStop.tick flatPlatform 0 [char '-']).stub.output ≠
      packets monitorStop.stub.output ++ [gdbFrame (text "O544f444f0a0d")] := by
  refine ⟨_, firstStop_conversed.ticks monitorRequest (by decide +kernel), by decide +kernel,
    .plain (.tick _ 0 [char '-']) (Or.inr ⟨0, [char '-'], rfl⟩), by decide +kernel,
    by decide +kernel, ?_⟩
  decide +kernel

end Machine
end UefiDebugger
