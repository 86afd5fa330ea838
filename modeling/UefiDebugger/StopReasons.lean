import UefiDebugger.NestedStops
import UefiDebugger.CommandSession
import UefiDebugger.ResumeRequest

/-!
# Why a stop ends

The loop of `ReportEntryToDebugger` ends when `gRunning` is set.  Over whole runs of stops that are
not nested, that takes a valid packet that asks for it, received in this very stop, or the timeout
of an initial breakpoint that no valid packet of any stop has preceded (`stop_ends_for_a_reason`).

What was received is said of the trace alone, with the reference decoder.  `Watched` is the
invariant that ties the globals to the trace.
-/
namespace UefiDebugger
open HexText ByteString StateEffect

variable {σ : Type}

/-! ## What a trace says -/

def Observation.isEntry : Observation → Bool
  | .entered .. => true
  | _ => false

def Observation.outcome : Observation → Option Receive
  | .read outcome => some outcome
  | _ => none

/-- The observation starts the wait for an initial breakpoint, or ends it. -/
def Observation.settles : Observation → Bool
  | .armed _ => true
  | .entered _ _ type _ => decide (type = .breakpoint)
  | _ => false

/-- The outcomes of the reads since the last entry. -/
def stopReads (tr : List Observation) : List Receive :=
  (tr.rtakeWhile fun o => !o.isEntry).filterMap Observation.outcome

/-- A packet with a valid checksum and this payload was received since the last entry. -/
def ReceivedIn (tr : List Observation) (payload : List UInt8) : Prop :=
  .executed payload ∈ (decode none (stopReads tr)).2

/-- A packet with a valid checksum was received in some stop. -/
def EverReceived (tr : List Observation) : Prop :=
  ∃ pre payload, pre <+: tr ∧ ReceivedIn pre payload

/-- `DebuggerInitialBreakpoint` was last called with `Timeout`, and no breakpoint was hit since. -/
def Armed (tr : List Observation) (Timeout : Nat) : Prop :=
  ∃ pre mid, tr = pre ++ .armed Timeout :: mid ∧ ∀ o ∈ mid, o.settles = false

/-- The stop under way was entered at `start` by the first breakpoint after a call of
`DebuggerInitialBreakpoint` with `Timeout`. -/
def Timed (tr : List Observation) (Timeout start : Nat) : Prop :=
  ∃ pre i c post, tr = pre ++ .entered i c .breakpoint start :: post ∧ Armed pre Timeout ∧
    ∀ o ∈ post, ∃ e, o = .read e

/-- The initial breakpoint timed out: the stop under way is the one it waits in, nothing valid was
ever received, and its time is over. -/
def TimedOut (tr : List Observation) (now : Nat) : Prop :=
  ∃ Timeout start, Timeout ≠ 0 ∧ Timed tr Timeout start ∧ ¬ EverReceived tr ∧ start + Timeout ≤ now

/-! ## One more observation -/

section Trace
variable {tr : List Observation} {payload : List UInt8}

theorem stopReads_entered (i c : Nat) (type : ExceptionType) (now : Nat) :
    stopReads (tr ++ [.entered i c type now]) = [] := by
  rw [stopReads, List.rtakeWhile_concat_neg _ _ _ (by simp [Observation.isEntry])]
  rfl

theorem stopReads_read (e : Receive) : stopReads (tr ++ [.read e]) = stopReads tr ++ [e] := by
  rw [stopReads, List.rtakeWhile_concat_pos _ _ _ rfl, List.filterMap_append]
  rfl

/-- An observation that is no entry and no read. -/
theorem stopReads_other {o : Observation} (hentry : o.isEntry = false) (hread : o.outcome = none) :
    stopReads (tr ++ [o]) = stopReads tr := by
  rw [stopReads, List.rtakeWhile_concat_pos _ _ _ (by rw [hentry]; rfl), List.filterMap_append,
    List.filterMap_cons_none hread, List.filterMap_nil, List.append_nil]
  rfl

theorem decode_snoc (d : Option (List UInt8)) (es : List Receive) (e : Receive) :
    decode d (es ++ [e]) = ((decodeStep (decode d es).1 e).1,
      (decode d es).2 ++ (decodeStep (decode d es).1 e).2) := by
  induction es generalizing d with
  | nil => simp [decode]
  | cons e' es ih =>
    rw [List.cons_append, decode, ih, decode, List.append_assoc]

theorem receivedIn_read {e : Receive} : ReceivedIn (tr ++ [.read e]) payload ↔
    ReceivedIn tr payload ∨
    .executed payload ∈ (decodeStep (decode none (stopReads tr)).1 e).2 := by
  rw [ReceivedIn, stopReads_read, decode_snoc, List.mem_append]
  rfl

theorem everReceived_snoc {o : Observation} : EverReceived (tr ++ [o]) ↔
    EverReceived tr ∨ ∃ payload, ReceivedIn (tr ++ [o]) payload := by
  constructor
  · rintro ⟨pre, payload, hpre, hreceived⟩
    rcases List.prefix_concat_iff.mp hpre with rfl | hpre
    · exact Or.inr ⟨payload, hreceived⟩
    · exact Or.inl ⟨pre, payload, hpre, hreceived⟩
  · rintro (⟨pre, payload, hpre, hreceived⟩ | ⟨payload, hreceived⟩)
    · exact ⟨pre, payload, hpre.trans (List.prefix_append ..), hreceived⟩
    · exact ⟨_, payload, List.prefix_refl _, hreceived⟩

theorem ReceivedIn.ever (h : ReceivedIn tr payload) : EverReceived tr :=
  ⟨tr, payload, List.prefix_refl _, h⟩

theorem Armed.snoc {Timeout : Nat} (h : Armed tr Timeout) {o : Observation}
    (ho : o.settles = false) :
    Armed (tr ++ [o]) Timeout := by
  obtain ⟨pre, mid, rfl, hmid⟩ := h
  refine ⟨pre, mid ++ [o], by rw [List.append_assoc, List.cons_append], fun x hx => ?_⟩
  rcases List.mem_append.mp hx with hx | hx
  · exact hmid x hx
  · rw [List.mem_singleton.mp hx]
    exact ho

theorem Timed.read {Timeout start : Nat} (h : Timed tr Timeout start) (e : Receive) :
    Timed (tr ++ [.read e]) Timeout start := by
  obtain ⟨pre, i, c, post, rfl, harmed, hpost⟩ := h
  refine ⟨pre, i, c, post ++ [.read e], by rw [List.append_assoc, List.cons_append], harmed,
    fun x hx => ?_⟩
  rcases List.mem_append.mp hx with hx | hx
  · exact hpost x hx
  · exact ⟨e, List.mem_singleton.mp hx⟩

end Trace

/-! ## After a read -/

/-- Where `ProcessInputData` can be when the reference decoder is in `r.1` and has just given the
verdicts `r.2`. -/
inductive Position (P : Platform σ) (b : ByteBuffer) (r : Option (List UInt8) × List Verdict) :
    StopPoint σ → Prop
  | reads {input : InputPoint} (standing : Standing b input r.1) : Position P b r (.readStart input)
  | returns (idle : r.1 = none) : Position P b r .poll
  | executes {rest : Remainder σ} {p : List UInt8} (idle : r.1 = none) (verdict : .executed p ∈ r.2)
      (payload : Payload b p) (program : rest.program = executeGdbCommand P 1 p.length) :
      Position P b r (.execute rest)

/-- **What one read can do**: follow the reference decoder; only a valid packet counts as a
connection. -/
theorem afterRead_spec (P : Platform σ) {s : Stub σ} {input : InputPoint} {d : Option (List UInt8)}
    (h : Standing s.mRequest input d) (e : Receive) :
    let r := (afterRead P input e).run s
    r.2.gRunning = s.gRunning ∧ r.2.mNextBreakpointTimeout = s.mNextBreakpointTimeout ∧
      (r.2.mConnectionOccurred = false →
        s.mConnectionOccurred = false ∧ ∀ p, .executed p ∉ (decodeStep d e).2) ∧
      Position P r.2.mRequest (decodeStep d e) r.1 := by
  have hcollected := collected h e
  have hcontrol := keeps_collect (π := Stub.control) input e s
  rw [afterRead]
  dsimp only
  rw [run_bind]
  generalize ((collect input e).run s).1 = next at *
  generalize ((collect input e).run s).2 = t at *
  have hrunning : t.gRunning = s.gRunning := congrArg Prod.snd hcontrol
  have htimeout : t.mNextBreakpointTimeout = s.mNextBreakpointTimeout :=
    congrArg (fun r => r.1.mNextBreakpointTimeout) hcontrol
  have hconnected : t.mConnectionOccurred = s.mConnectionOccurred :=
    congrArg (fun r => r.1.mConnectionOccurred) hcontrol
  -- Either the collector waits for more, or the packet is complete and was judged.
  cases hcollected with
  | waits standing decided unexecuted =>
    have hquiet : t.mConnectionOccurred = false →
        s.mConnectionOccurred = false ∧ ∀ p, .executed p ∉ (decodeStep d e).2 :=
      fun hfalse => ⟨hconnected.symm.trans hfalse, unexecuted⟩
    cases next with
    | packet n => exact absurd standing id
    | first => exact ⟨hrunning, htimeout, hquiet, .reads standing⟩
    | next n => exact ⟨hrunning, htimeout, hquiet, .reads standing⟩
    | returned => exact ⟨hrunning, htimeout, hquiet, .returns standing⟩
  | @completes n p c d' complete judged decided =>
    obtain ⟨top, hrun⟩ := validateGdbPacket_run P complete
    dsimp only
    rw [run_bind, hrun, judged]
    cases hverdict : judge p c d' with
    | refused =>
      refine ⟨hrunning, htimeout, fun hfalse => ⟨hconnected.symm.trans hfalse, fun q hq => ?_⟩,
        .reads rfl⟩
      rw [List.mem_singleton] at hq
      cases hq
    | executed payload =>
      have hpayload : payload = p := by
        rw [judge] at hverdict
        split at hverdict
        · cases hverdict
          rfl
        · cases hverdict
      subst hpayload
      exact ⟨hrunning, htimeout, (nomatch ·),
        .executes rfl (List.mem_singleton_self _) (complete.terminated top) rfl⟩

/-! ## The invariant -/

/-- Where the reference decoder is after the reads of the stop under way. -/
def decoded (tr : List Observation) : Option (List UInt8) := (decode none (stopReads tr)).1

/-- An activation is at a point, with this request buffer, after this trace. -/
inductive At (P : Platform σ) (b : ByteBuffer) (tr : List Observation) : StopPoint σ → Prop
  | poll (idle : decoded tr = none) : At P b tr .poll
  | clock (idle : decoded tr = none) : At P b tr .clock
  | readStart {input : InputPoint}
      (standing : Standing b input (decoded tr)) : At P b tr (.readStart input)
  | readPoll {input : InputPoint} {E : Nat} (standing : Standing b input (decoded tr)) :
      At P b tr (.readPoll input E)
  | readClock {input : InputPoint} {E : Nat} (standing : Standing b input (decoded tr)) :
      At P b tr (.readClock input E)
  | execute {rest : Remainder σ} {p : List UInt8} (idle : decoded tr = none) (payload : Payload b p)
      (received : ReceivedIn tr p) (program : rest.program = executeGdbCommand P 1 p.length) :
      At P b tr (.execute rest)

/-- `gRunning` is only set in a stop that was asked to end. -/
def Requested (s : Stub σ) (tr : List Observation) : Prop :=
  s.gRunning = true → ∃ p, ReceivedIn tr p ∧ RequestsResume p

/-- `EndTime` is the end of the wait of an initial breakpoint. -/
def Waits (EndTime : Nat) (tr : List Observation) : Prop :=
  EndTime ≠ 0 → ∃ Timeout start, Timeout ≠ 0 ∧ Timed tr Timeout start ∧ EndTime = start + Timeout

/-- The activation of a stop that is not nested. -/
structure InStop (P : Platform σ) (s : Stub σ) (tr : List Observation) (f : Frame σ) : Prop where
  waits : Waits f.EndTime tr
  requested : Requested s tr
  location : At P s.mRequest tr f.point

/-- The globals that outlive a stop. -/
structure Outlives (s : Stub σ) (tr : List Observation) : Prop where
  armed : s.mNextBreakpointTimeout ≠ 0 → Armed tr s.mNextBreakpointTimeout
  connected : s.mConnectionOccurred = false → ¬ EverReceived tr

/-- **The invariant** of runs whose stops are not nested. -/
structure Watched (P : Platform σ) (m : Machine σ) : Prop where
  outlives : Outlives m.stub m.trace
  frames : m.frames = [] ∨ ∃ f, m.frames = [f] ∧ InStop P m.stub m.trace f

theorem Outlives.of_eq {s s' : Stub σ} {tr : List Observation} (h : Outlives s tr)
    (htimeout : s'.mNextBreakpointTimeout = s.mNextBreakpointTimeout)
    (hconnected : s'.mConnectionOccurred = s.mConnectionOccurred) : Outlives s' tr := by
  refine ⟨?_, ?_⟩
  · rw [htimeout]
    exact h.armed
  · rw [hconnected]
    exact h.connected

/-- Entries and exits are no packets. -/
theorem Outlives.connected_snoc {s : Stub σ} {tr : List Observation} (h : Outlives s tr)
    {o : Observation} (ho : stopReads (tr ++ [o]) = stopReads tr ∨ stopReads (tr ++ [o]) = [])
    (hconnected : s.mConnectionOccurred = false) : ¬ EverReceived (tr ++ [o]) := by
  have hold := h.connected hconnected
  rw [everReceived_snoc]
  rintro (hever | ⟨p, hreceived⟩)
  · exact hold hever
  · rcases ho with hsame | hnone
    · rw [ReceivedIn, hsame] at hreceived
      exact hold (ReceivedIn.ever hreceived)
    · rw [ReceivedIn, hnone] at hreceived
      exact absurd hreceived List.not_mem_nil

/-- Where a read leaves the activation. -/
theorem at_afterRead (P : Platform σ) {s : Stub σ} {tr : List Observation} {input : InputPoint}
    (h : Standing s.mRequest input (decoded tr)) (e : Receive) :
    At P ((afterRead P input e).run s).2.mRequest (tr ++ [.read e])
    ((afterRead P input e).run s).1 := by
  obtain ⟨-, -, -, hposition⟩ := afterRead_spec P h e
  have hdecoded : decoded (tr ++ [.read e]) = (decodeStep (decoded tr) e).1 := by
    rw [decoded, stopReads_read, decode_snoc]
    rfl
  generalize ((afterRead P input e).run s).1 = next at hposition ⊢
  cases hposition with
  | reads standing =>
    refine .readStart ?_
    rw [hdecoded]
    exact standing
  | returns idle => exact .poll (hdecoded.trans idle)
  | executes idle verdict payload program =>
    exact .execute (hdecoded.trans idle) payload (receivedIn_read.mpr (Or.inr verdict)) program

namespace Machine
variable {P : Platform σ}

/-- A read keeps the invariant: it follows the reference decoder. -/
theorem watched_readDone {m : Machine σ} {T : Nat} {point : StopPoint σ} {input : InputPoint}
    (hout : Outlives m.stub m.trace) (hin : InStop P m.stub m.trace ⟨T, point⟩)
    (hstanding : Standing m.stub.mRequest input (decoded m.trace)) (e : Receive) :
    Watched P (m.readDone P ⟨T, point⟩ [] input e) := by
  obtain ⟨hrunning, htimeout, hconnected, -⟩ := afterRead_spec P hstanding e
  have hat := at_afterRead P hstanding e
  rw [readDone]
  dsimp only
  generalize ((afterRead P input e).run m.stub).1 = next at *
  generalize ((afterRead P input e).run m.stub).2 = s at *
  refine ⟨⟨?_, fun hfalse => ?_⟩, Or.inr ⟨_, rfl, fun hne => ?_, fun htrue => ?_, hat⟩⟩
  · intro hne
    rw [htimeout] at hne ⊢
    exact (hout.armed hne).snoc rfl
  · obtain ⟨hbefore, hunexecuted⟩ := hconnected hfalse
    rw [everReceived_snoc]
    rintro (hever | ⟨p, hreceived⟩)
    · exact hout.connected hbefore hever
    · rcases receivedIn_read.mp hreceived with hold | hnew
      · exact hout.connected hbefore hold.ever
      · exact hunexecuted p hnew
  · obtain ⟨Timeout, start, hnonzero, htimed, hend⟩ := hin.waits hne
    exact ⟨Timeout, start, hnonzero, htimed.read e, hend⟩
  · obtain ⟨p, hreceived, hrequests⟩ := hin.requested (hrunning.symm.trans htrue)
    exact ⟨p, receivedIn_read.mpr (Or.inl hreceived), hrequests⟩

/-- An activation that only moves on. -/
theorem watched_goto {m : Machine σ} {f : Frame σ} (hout : Outlives m.stub m.trace)
    (hin : InStop P m.stub m.trace f) {point : StopPoint σ}
    (hat : At P m.stub.mRequest m.trace point) :
    Watched P (m.goto f [] point) :=
  ⟨hout, Or.inr ⟨_, rfl, hin.waits, hin.requested, hat⟩⟩

/-- A command keeps the invariant: it sets `gRunning` only on request. -/
theorem watched_execute {m : Machine σ} {T : Nat} {rest : Remainder σ}
    (hout : Outlives m.stub m.trace) (hin : InStop P m.stub m.trace ⟨T, .execute rest⟩) :
    Watched P
    ({ m with stub := (rest.program.run m.stub).2 }.goto ⟨T, .execute rest⟩ []
      (.readStart .first)) := by
  have hlinks := congrArg Prod.fst (rest.keeps m.stub)
  have hlocation := hin.location
  cases hlocation with
  | execute idle payload received program =>
    refine ⟨hout.of_eq (congrArg StopRecord.mNextBreakpointTimeout hlinks)
      (congrArg StopRecord.mConnectionOccurred hlinks), Or.inr ⟨_, rfl, hin.waits, fun htrue => ?_,
        .readStart idle⟩⟩
    have hresumes : (rest.program.run m.stub).2.gRunning = true := htrue
    rw [program] at hresumes
    rcases executeGdbCommand_resumes P payload hresumes with hbefore | hrequests
    · exact hin.requested hbefore
    · exact ⟨_, received, hrequests⟩

theorem checkTimeout_running {T now : Nat} {s : Stub σ} :
    ((checkTimeout T now).run s).2.gRunning = true ↔
      s.gRunning = true ∨ (s.mConnectionOccurred = false ∧ T ≠ 0 ∧ T ≤ now) := by
  show (s.gRunning || (!s.mConnectionOccurred && T != 0 && decide (T ≤ now))) = true ↔ _
  simp [and_assoc]

/-- One advance. -/
theorem watched_advance {m : Machine σ} {f : Frame σ} (hout : Outlives m.stub m.trace)
    (hin : InStop P m.stub m.trace f) (now : Nat) : Watched P (m.advance P f [] now) := by
  obtain ⟨T, point⟩ := f
  have hlocation := hin.location
  cases hlocation with
  | poll idle =>
    rw [advance_poll]
    refine watched_goto hout hin ?_
    by_cases hnone : m.pending = []
    · rw [if_pos hnone]
      exact .clock idle
    · rw [if_neg hnone]
      exact .readStart idle
  | readStart standing => exact watched_goto hout hin (.readPoll standing)
  | readPoll standing =>
    cases hpending : m.pending with
    | nil =>
      rw [advance_readPoll_nil hpending]
      exact watched_goto hout hin (.readClock standing)
    | cons b bs =>
      rw [advance_readPoll_cons hpending]
      exact watched_readDone (m := { m with pending := bs }) hout hin standing (.byte b)
  | @readClock input E standing =>
    by_cases hnow : now < E
    · rw [advance_readClock_lt hnow]
      exact watched_goto hout hin (.readPoll standing)
    · rw [advance_readClock_ge hnow]
      exact watched_readDone hout hin standing .timeout
  | execute idle payload received program => exact watched_execute hout hin
  | clock idle =>
    by_cases hends : ((checkTimeout T now).run m.stub).2.gRunning = true
    · rw [advance_clock_ends hends]
      have hcontrol := keeps_leaveStop P ((checkTimeout T now).run m.stub).2
      -- The stop ends here; what outlives it is the armed timeout and the connection.
      refine ⟨⟨fun hne => ?_, fun hfalse => ?_⟩, Or.inl rfl⟩
      · rw [show ((leaveStop P).run _).2.mNextBreakpointTimeout = m.stub.mNextBreakpointTimeout from
          congrArg (fun r => r.1.mNextBreakpointTimeout) hcontrol] at hne ⊢
        exact (hout.armed hne).snoc rfl
      · refine hout.connected_snoc (Or.inl (stopReads_other rfl rfl)) ?_
        exact (congrArg (fun r => r.1.mConnectionOccurred) hcontrol).symm.trans hfalse
    · rw [advance_clock_goes_on hends]
      refine ⟨hout.of_eq rfl rfl,
        Or.inr ⟨_, rfl, hin.waits, fun htrue => absurd htrue hends, .poll idle⟩⟩

/-- No stop is nested in another one, and no timeout ends behind the range of the clock. -/
def Orderly (m : Machine σ) : Event σ → Prop
  | .exception _ _ _ _ now => m.frames = [] ∧ now + m.stub.mNextBreakpointTimeout < 2 ^ 64
  | _ => True

/-- Entering a stop takes the timeout that was waiting for a breakpoint. -/
theorem watched_enter {m : Machine σ} (hout : Outlives m.stub m.trace) (hframes : m.frames = [])
    (i c : Nat) (info : ExceptionInfo) (context : Context) {now : Nat}
    (hnow : now + m.stub.mNextBreakpointTimeout < 2 ^ 64) :
    Watched P (m.enter i c info context now) := by
  obtain ⟨hcontrol, hend⟩ := reportException_spec i c info context now m.stub
  have hrunning := congrArg Prod.snd hcontrol
  have htimeout := congrArg (fun r => r.1.mNextBreakpointTimeout) hcontrol
  have hconnected := congrArg (fun r => r.1.mConnectionOccurred) hcontrol
  rw [enter]
  dsimp only at htimeout hconnected hrunning ⊢
  rw [hend, hframes]
  generalize ((reportException i c info context now).run m.stub).2 = s at *
  refine ⟨⟨fun hne => ?_, fun hfalse => ?_⟩,
    Or.inr ⟨_, rfl, fun hne => ?_, fun htrue => ?_, .poll ?_⟩⟩
  · have htype : info.exceptionType ≠ .breakpoint := fun htype => by
      rw [htype, if_pos rfl] at htimeout
      exact hne htimeout
    rw [if_neg htype] at htimeout
    rw [show s.mNextBreakpointTimeout = m.stub.mNextBreakpointTimeout from htimeout] at hne ⊢
    exact (hout.armed hne).snoc (decide_eq_false htype)
  · exact hout.connected_snoc (Or.inr (stopReads_entered ..)) (hconnected.symm.trans hfalse)
  · dsimp only at hne ⊢
    by_cases htimed : info.exceptionType = .breakpoint ∧ m.stub.mNextBreakpointTimeout ≠ 0
    · rw [if_pos htimed, Nat.mod_eq_of_lt hnow]
      rw [htimed.1]
      exact ⟨_, now, htimed.2,
        ⟨m.trace, i, c, [], rfl, hout.armed htimed.2, fun o ho => absurd ho List.not_mem_nil⟩, rfl⟩
    · rw [if_neg htimed] at hne
      exact absurd rfl hne
  · rw [show s.gRunning = false from hrunning] at htrue
    cases htrue
  · rw [decoded, stopReads_entered]
    rfl

/-- One step. -/
theorem Watched.step {m m' : Machine σ} {e : Event σ} (h : Watched P m) (horderly : Orderly m e)
    (hstep : Step P m e m') : Watched P m' := by
  obtain ⟨hout, hframes⟩ := h
  cases hstep with
  | tick now arrived =>
    rcases tick_cases P m now arrived with ⟨-, htick⟩ | ⟨-, f, fs, hcons, htick⟩
    · rw [htick]
      exact ⟨hout, hframes⟩
    · rw [htick]
      rcases hframes with hnone | ⟨g, hone, hin⟩
      · rw [hnone] at hcons
        cases hcons
      · rw [hone] at hcons
        cases hcons
        exact watched_advance (m := m.arrive arrived) hout hin now
  | stop i c info context now hrunning halive =>
    exact watched_enter hout hrunning i c info context horderly.2
  | nested i c info context now before after hstopped hexecuting hcut hkept halive =>
    rw [horderly.1] at hstopped
    cases hstopped
  | arm T hrunning halive =>
    refine ⟨⟨fun _ => ⟨m.trace, [], rfl, fun o ho => absurd ho List.not_mem_nil⟩, fun hfalse => ?_⟩,
      Or.inl hrunning⟩
    exact hout.connected_snoc (Or.inl (stopReads_other rfl rfl)) hfalse
  | running t reason polled hrunning halive => exact ⟨hout.of_eq rfl rfl, Or.inl hrunning⟩

/-- A run. -/
theorem Run.watched {t : σ} {m : Machine σ} {es : List (Event σ)}
    (h : Run P Orderly (initial (Stub.initial t)) es m) : Watched P m := by
  induction h with
  | none =>
    refine ⟨⟨fun hne => absurd rfl hne, fun _ => ?_⟩, Or.inl rfl⟩
    rintro ⟨pre, p, hpre, hreceived⟩
    rw [List.prefix_nil.mp hpre] at hreceived
    exact absurd hreceived List.not_mem_nil
  | snoc run orderly step ih => exact Watched.step ih orderly step

/-- **A stop ends for a reason.**  In every run from the start whose stops are not nested, the loop
of a stop ends only if a valid packet that requests it was received in this stop, or if the stop is
that of an initial breakpoint, its timeout is over, and no valid packet was ever received. -/
theorem stop_ends_for_a_reason (P : Platform σ) {t : σ} {m : Machine σ} {es : List (Event σ)}
    (hrun : Run P Orderly (initial (Stub.initial t)) es m) {now : Nat} {arrived : List UInt8}
    (hstopped : m.frames ≠ []) (hended : (m.tick P now arrived).frames = []) :
    (∃ p, ReceivedIn m.trace p ∧ RequestsResume p) ∨ TimedOut m.trace now := by
  obtain ⟨hout, hframes⟩ := hrun.watched
  have hless : (m.tick P now arrived).frames.length < m.frames.length := by
    rw [hended]
    exact List.length_pos_iff.mpr hstopped
  obtain ⟨now', arrived', f, fs, hevent, hcons, -, hends, -⟩ := (Step.tick m now arrived).ends hless
  cases hevent
  rcases hframes with hnone | ⟨g, hone, hin⟩
  · exact absurd hnone hstopped
  · rw [hone] at hcons
    cases hcons
    rcases checkTimeout_running.mp hends with hrunning | ⟨hconnected, hnonzero, hover⟩
    · exact Or.inl (hin.requested hrunning)
    · obtain ⟨Timeout, start, hT, htimed, hend⟩ := hin.waits hnonzero
      refine Or.inr ⟨Timeout, start, hT, htimed, hout.connected hconnected, ?_⟩
      rw [← hend]
      exact hover

/-- An initial breakpoint with a timeout of 5 ms, hit at 100 ms, at the clock of its loop. -/
def initialStop : Machine FlatMachine :=
  (((initial (Stub.initial ⟨fun _ => 0x90, []⟩)).arm 5).enter 1 2 ⟨.breakpoint, 0, 3⟩
    (fun _ => 0) 100).tick flatPlatform 101 []

/-- At 106 ms its time is over. -/
theorem stop_ends_for_a_reason_timeout :
    (∃ p, ReceivedIn initialStop.trace p ∧ RequestsResume p) ∨ TimedOut initialStop.trace 106 := by
  have harm : Run flatPlatform Orderly (initial (Stub.initial ⟨fun _ => 0x90, []⟩))
      [.initialBreakpoint 5] ((initial (Stub.initial ⟨fun _ => 0x90, []⟩)).arm 5) :=
      run_one trivial (.arm _ 5 rfl rfl)
  have henter := harm.snoc (e := .exception 1 2 ⟨.breakpoint, 0, 3⟩ (fun _ => 0) 100)
    ⟨rfl, by decide⟩ (.stop _ 1 2 _ _ 100 rfl rfl)
  have hrun := henter.snoc (e := .tick 101 []) trivial (.tick _ 101 [])
  have hopen : initialStop.frames.length ≠ 0 := by decide +kernel
  have hended : (initialStop.tick flatPlatform 106 []).frames.length = 0 := by decide +kernel
  exact stop_ends_for_a_reason flatPlatform hrun (fun h => hopen (congrArg List.length h))
    (List.length_eq_zero_iff.mp hended)

end Machine
end UefiDebugger
