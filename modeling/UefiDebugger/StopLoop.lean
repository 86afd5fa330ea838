import UefiDebugger.CommandFrames
import Mathlib.Data.List.DropRight

/-!
# Stops

`ReportEntryToDebugger` of `GdbStub.c` with everything that runs inside it, as a machine that takes
one call of the transport or of the clock at a time.  A `Frame` is one activation of
`ReportEntryToDebugger`; there can be several, because a command can raise an exception that enters
it again.  Between the stops the target runs.

The environment chooses the events: what the clock says and which bytes arrive at a call, when an
exception is raised and with which records, and what the target does.  A command that raises an
exception is cut into what was done before and what is left to do, `Remainder`; the values of its
locals live on in what is left.

`Observation`s are recorded and read by no code.
-/
namespace UefiDebugger
open HexText ByteString StateEffect

variable {σ : Type}

/-! ## The state -/

/-- What is left to do of a command.  Like a whole command (`keeps_executeGdbCommand`), no part of
one touches the record of the stop. -/
structure Remainder (σ : Type) where
  program : StubM σ Unit
  keeps : Keeps Stub.links program

/-- Where an activation of `ReportEntryToDebugger` is: at the poll of its loop, at the clock of its
loop, in `DebugReadByte` on behalf of `ProcessInputData` (about to set its deadline, at its poll, at
its clock), or in `ExecuteGdbCommand`. -/
inductive StopPoint (σ : Type) where
  | poll
  | clock
  | readStart (input : InputPoint)
  | readPoll (input : InputPoint) (EndTime : Nat)
  | readClock (input : InputPoint) (EndTime : Nat)
  | execute (rest : Remainder σ)

/-- One activation of `ReportEntryToDebugger`, with its local `EndTime`. -/
structure Frame (σ : Type) where
  EndTime : Nat
  point : StopPoint σ

/-- What can be seen of a run from outside. -/
inductive Observation where
  | armed (Timeout : Nat)
  | entered (InfoAddress ContextAddress : Nat) (type : ExceptionType) (now : Nat)
  | read (outcome : Receive)
  | left (now : Nat)
  deriving DecidableEq, Repr

/-- The stub, the bytes that wait in the transport, the activations of `ReportEntryToDebugger` with
the innermost first, and what was seen. -/
structure Machine (σ : Type) where
  stub : Stub σ
  pending : List UInt8
  frames : List (Frame σ)
  trace : List Observation

/-! ## Events -/

/-- A step of the code or of its environment.  An exception comes with its two records and where
they are; `polled` counts the bytes that `DebuggerPollInput` reads while the target runs. -/
inductive Event (σ : Type) where
  | tick (now : Nat) (arrived : List UInt8)
  | exception (InfoAddress ContextAddress : Nat) (info : ExceptionInfo) (context : Context)
      (now : Nat)
  | initialBreakpoint (Timeout : Nat)
  | running (target : σ) (reason : BreakpointReason) (polled : Nat)

/-- The bytes that arrive. -/
def Event.arrived : Event σ → List UInt8
  | .tick _ bs => bs
  | _ => []

/-! ## Entering a stop -/

/-- `ReportEntryToDebugger` up to its loop: its `EndTime`. -/
def enterStop (InfoAddress ContextAddress now : Nat) : StubM σ Nat := do
  modify fun s => { s with
    gSystemContext := ContextAddress
    gExceptionInfo := InfoAddress
    gRunning := false }
  let s ← get
  let Timed := decide ((s.exceptionInfos InfoAddress).exceptionType = .breakpoint) &&
    s.mNextBreakpointTimeout != 0
  let EndTime := if Timed then (now + s.mNextBreakpointTimeout) % 2 ^ 64 else 0
  modify fun s => { s with
    mNextBreakpointTimeout := if Timed then 0 else s.mNextBreakpointTimeout }
  sendStopReply
  pure EndTime

/-- An exception is reported: its records are where the handler put them. -/
def reportException (InfoAddress ContextAddress : Nat) (info : ExceptionInfo) (context : Context)
    (now : Nat) : StubM σ Nat := do
  modify fun s => { s with
    exceptionInfos := Function.update s.exceptionInfos InfoAddress info
    contexts := Function.update s.contexts ContextAddress context }
  enterStop InfoAddress ContextAddress now

/-! ## The loops -/

/-- The timeout, in milliseconds, of the read at a place of `ProcessInputData`. -/
def readTimeout : InputPoint → Nat
  | .next _ => 1000
  | _ => 10

/-- `ProcessInputData` from the outcome of a read to its next read, to its command, or back to the
loop of `ReportEntryToDebugger`. -/
def afterRead (P : Platform σ) (input : InputPoint) (outcome : Receive) : StubM σ (StopPoint σ) :=
  do
  let next ← collect input outcome
  match next with
  | .returned => pure .poll
  | .packet PacketLength => do
      let valid ← validateGdbPacket P PacketLength
      match valid with
      | some ChecksumIndex =>
          pure (.execute ⟨executePacket P ChecksumIndex, keeps_executeGdbCommand P _ _⟩)
      | none => pure (.readStart .first)
  | next => pure (.readStart next)

/-- The timeout check at the end of a round of the loop of `ReportEntryToDebugger`. -/
def checkTimeout (EndTime now : Nat) : StubM σ Unit :=
  modify fun s => { s with
    gRunning := s.gRunning || (!s.mConnectionOccurred && EndTime != 0 && decide (EndTime ≤ now)) }

/-- `ReportEntryToDebugger` behind its loop. -/
def leaveStop (P : Platform σ) : StubM σ Unit := do
  let s ← get
  if s.mRebootOnContinue = true then do
    let _ ← debugReboot P
    pure ()
  else pure ()

namespace Machine

/-- Bytes arrive. -/
def arrive (m : Machine σ) (arrived : List UInt8) : Machine σ :=
  { m with pending := m.pending ++ arrived }

@[simp] theorem arrive_stub (m : Machine σ) (bs : List UInt8) : (m.arrive bs).stub = m.stub := rfl
@[simp] theorem arrive_frames (m : Machine σ) (bs : List UInt8) : (m.arrive bs).frames = m.frames :=
  rfl
@[simp] theorem arrive_trace (m : Machine σ) (bs : List UInt8) : (m.arrive bs).trace = m.trace :=
  rfl
@[simp] theorem arrive_pending (m : Machine σ) (bs : List UInt8) :
    (m.arrive bs).pending = m.pending ++ bs := rfl

/-- The innermost activation goes on to a point. -/
def goto (m : Machine σ) (f : Frame σ) (fs : List (Frame σ)) (point : StopPoint σ) : Machine σ :=
  { m with frames := { f with point := point } :: fs }

/-- A read of the innermost activation is over. -/
def readDone (P : Platform σ) (m : Machine σ) (f : Frame σ) (fs : List (Frame σ))
    (input : InputPoint) (outcome : Receive) : Machine σ :=
  let r := (afterRead P input outcome).run m.stub
  { m with
    stub := r.2
    frames := { f with point := r.1 } :: fs
    trace := m.trace ++ [.read outcome] }

/-- The innermost activation is at the end of a round. -/
def roundDone (P : Platform σ) (m : Machine σ) (f : Frame σ) (fs : List (Frame σ)) (now : Nat) :
    Machine σ :=
  let s := ((checkTimeout f.EndTime now).run m.stub).2
  if s.gRunning = true then
    { m with
      stub := ((leaveStop P).run s).2
      frames := fs
      trace := m.trace ++ [.left now] }
  else { m with stub := s, frames := { f with point := .poll } :: fs }

/-- The innermost activation takes its next step at time `now`. -/
def advance (P : Platform σ) (m : Machine σ) (f : Frame σ) (fs : List (Frame σ)) (now : Nat) :
    Machine σ :=
  match f.point with
  | .poll => m.goto f fs (if m.pending = [] then .clock else .readStart .returned)
  | .clock => m.roundDone P f fs now
  | .readStart input => m.goto f fs (.readPoll input ((now + readTimeout input) % 2 ^ 64))
  | .readPoll input EndTime =>
      match m.pending with
      | [] => m.goto f fs (.readClock input EndTime)
      | b :: bs => { m with pending := bs }.readDone P f fs input (.byte b)
  | .readClock input EndTime =>
      if now < EndTime then m.goto f fs (.readPoll input EndTime)
      else m.readDone P f fs input .timeout
  | .execute rest =>
      { m with stub := (rest.program.run m.stub).2 }.goto f fs (.readStart .first)

/-- A machine that was reset takes no more steps. -/
def tick (P : Platform σ) (m : Machine σ) (now : Nat) (arrived : List UInt8) : Machine σ :=
  if m.stub.halted = true then m.arrive arrived
  else match m.frames with
    | [] => m.arrive arrived
    | f :: fs => (m.arrive arrived).advance P f fs now

/-- An exception enters `ReportEntryToDebugger`. -/
def enter (m : Machine σ) (InfoAddress ContextAddress : Nat) (info : ExceptionInfo)
    (context : Context) (now : Nat) : Machine σ :=
  let r := (reportException InfoAddress ContextAddress info context now).run m.stub
  { m with
    stub := r.2
    frames := ⟨r.1, .poll⟩ :: m.frames
    trace := m.trace ++ [.entered InfoAddress ContextAddress info.exceptionType now] }

/-- `DebuggerInitialBreakpoint` up to its breakpoint. -/
def arm (m : Machine σ) (Timeout : Nat) : Machine σ :=
  { m with
    stub := { m.stub with
      mNextBreakpointTimeout := Timeout
      debuggerBreakpointReason := .initial }
    trace := m.trace ++ [.armed Timeout] }

/-- The target runs. -/
def runTarget (m : Machine σ) (target : σ) (reason : BreakpointReason) (polled : Nat) : Machine σ :=
  { m with
    stub := { m.stub with target := target, debuggerBreakpointReason := reason }
    pending := m.pending.drop polled }

/-- One step.  The target runs, and raises exceptions, only when nothing is stopped; a command
raises an exception between two of its parts. -/
inductive Step (P : Platform σ) : Machine σ → Event σ → Machine σ → Prop
  | tick (m : Machine σ) (now : Nat)
      (arrived : List UInt8) : Step P m (.tick now arrived) (m.tick P now arrived)
  | stop (m : Machine σ) (i c : Nat) (info : ExceptionInfo) (context : Context) (now : Nat)
      (running : m.frames = []) (alive : m.stub.halted = false) :
      Step P m (.exception i c info context now) (m.enter i c info context now)
  | nested (m : Machine σ) (i c : Nat) (info : ExceptionInfo) (context : Context) (now : Nat)
      {α : Type} {f : Frame σ} {fs : List (Frame σ)} {rest : Remainder σ} (before : StubM σ α)
      (after : α → Remainder σ) (stopped : m.frames = f :: fs) (executing : f.point = .execute rest)
      (cut : rest.program = before >>= fun a => (after a).program) (kept : Keeps Stub.links before)
      (alive : (before.run m.stub).2.halted = false) : Step P m (.exception i c info context now)
        ({ m with stub := (before.run m.stub).2 }.goto f fs
          (.execute (after (before.run m.stub).1)) |>.enter i c info context now)
  | arm (m : Machine σ) (Timeout : Nat) (running : m.frames = []) (alive : m.stub.halted = false) :
      Step P m (.initialBreakpoint Timeout) (m.arm Timeout)
  | running (m : Machine σ) (target : σ) (reason : BreakpointReason) (polled : Nat)
      (running : m.frames = []) (alive : m.stub.halted = false) :
      Step P m (.running target reason polled) (m.runTarget target reason polled)

/-- A run whose events are all allowed in the state they happen in. -/
inductive Run (P : Platform σ) (Allowed : Machine σ → Event σ → Prop) :
    Machine σ → List (Event σ) → Machine σ → Prop
  | none (m : Machine σ) : Run P Allowed m [] m
  | snoc {m m₁ m₂ : Machine σ} {es : List (Event σ)} {e : Event σ} (run : Run P Allowed m es m₁)
      (allowed : Allowed m₁ e) (step : Step P m₁ e m₂) : Run P Allowed m (es ++ [e]) m₂

/-- The image as it is loaded, with the target running. -/
def initial (s : Stub σ) : Machine σ := ⟨s, [], [], []⟩

/-- Ticks, one after the other. -/
def ticks (P : Platform σ) (m : Machine σ) : List (Nat × List UInt8) → Machine σ
  | [] => m
  | t :: ts => (m.tick P t.1 t.2).ticks P ts

/-- Every tick finds more than `depth` activations. -/
def ticksInside (P : Platform σ) (depth : Nat) (m : Machine σ) : List (Nat × List UInt8) → Bool
  | [] => true
  | t :: ts => decide (depth < m.frames.length) && (m.tick P t.1 t.2).ticksInside P depth ts

/-- Every tick finds a machine that passes a test. -/
def ticksPass (P : Platform σ) (test : Machine σ → Bool) (m : Machine σ) :
    List (Nat × List UInt8) → Bool
  | [] => true
  | t :: ts => test m && (m.tick P t.1 t.2).ticksPass P test ts

/-- The events of ticks. -/
def tickEvents (ts : List (Nat × List UInt8)) : List (Event σ) := ts.map fun t => .tick t.1 t.2

section Runs
variable {P : Platform σ} {Allowed : Machine σ → Event σ → Prop}

theorem Run.trans {m m₁ m₂ : Machine σ} {es es' : List (Event σ)} (h : Run P Allowed m es m₁)
    (h' : Run P Allowed m₁ es' m₂) : Run P Allowed m (es ++ es') m₂ := by
  induction h' with
  | none =>
    rw [List.append_nil]
    exact h
  | snoc run allowed step ih =>
    rw [← List.append_assoc]
    exact ih.snoc allowed step

theorem run_one {m m' : Machine σ} {e : Event σ} (allowed : Allowed m e) (step : Step P m e m') :
    Run P Allowed m [e] m' := Run.snoc (.none m) allowed step

theorem Run.mono {Allowed' : Machine σ → Event σ → Prop} (hmono : ∀ k e, Allowed k e → Allowed' k e)
    {m m' : Machine σ} {es : List (Event σ)} (h : Run P Allowed m es m') :
    Run P Allowed' m es m' := by
  induction h with
  | none => exact .none _
  | snoc run allowed step ih => exact ih.snoc (hmono _ _ allowed) step

/-- Ticks are a run. -/
theorem run_ticks (depth : Nat) : ∀ (ts : List (Nat × List UInt8)) (m : Machine σ),
    m.ticksInside P depth ts = true →
      Run P (fun k _ => depth < k.frames.length) m (tickEvents ts) (m.ticks P ts)
  | [], m, _ => .none m
  | t :: ts, m, h => by
      obtain ⟨hfirst, hrest⟩ := Bool.and_eq_true_iff.mp h
      exact (run_one (of_decide_eq_true hfirst) (.tick m t.1 t.2)).trans
        (run_ticks depth ts _ hrest)

/-- Ticks that find what is allowed are a run. -/
theorem run_ticksPass {test : Machine σ → Bool}
    (htest : ∀ k now arrived, test k = true → Allowed k (.tick now arrived)) :
    ∀ (ts : List (Nat × List UInt8)) (m : Machine σ), m.ticksPass P test ts = true →
      Run P Allowed m (tickEvents ts) (m.ticks P ts)
  | [], m, _ => .none m
  | t :: ts, m, h => by
      obtain ⟨hfirst, hrest⟩ := Bool.and_eq_true_iff.mp h
      exact (run_one (htest m t.1 t.2 hfirst) (.tick m t.1 t.2)).trans
        (run_ticksPass htest ts _ hrest)

end Runs

/-! ## What one step can do -/

section Steps
variable {P : Platform σ}

/-- A tick leaves the machine alone, or the innermost activation advances. -/
theorem tick_cases (P : Platform σ) (m : Machine σ) (now : Nat) (arrived : List UInt8) :
    ((m.stub.halted = true ∨ m.frames = []) ∧ m.tick P now arrived = m.arrive arrived) ∨
    (m.stub.halted = false ∧ ∃ f fs, m.frames = f :: fs ∧
      m.tick P now arrived = (m.arrive arrived).advance P f fs now) := by
  unfold tick
  by_cases hhalted : m.stub.halted = true
  · rw [if_pos hhalted]
    exact Or.inl ⟨Or.inl hhalted, rfl⟩
  · rw [if_neg hhalted]
    by_cases hframes : m.frames = []
    · rw [hframes]
      exact Or.inl ⟨Or.inr rfl, rfl⟩
    · obtain ⟨f, fs, hframes⟩ := List.exists_cons_of_ne_nil hframes
      rw [hframes]
      exact Or.inr ⟨Bool.eq_false_of_not_eq_true hhalted, f, fs, rfl, rfl⟩

section Advance
variable {m : Machine σ} {T E now : Nat} {fs : List (Frame σ)} {input : InputPoint}

theorem advance_poll : m.advance P ⟨T, .poll⟩ fs now =
    m.goto ⟨T, .poll⟩ fs (if m.pending = [] then .clock else .readStart .returned) := rfl

theorem advance_readStart : m.advance P ⟨T, .readStart input⟩ fs now =
    m.goto ⟨T, .readStart input⟩ fs (.readPoll input ((now + readTimeout input) % 2 ^ 64)) := rfl

theorem advance_readPoll_nil (h : m.pending = []) : m.advance P ⟨T, .readPoll input E⟩ fs now =
    m.goto ⟨T, .readPoll input E⟩ fs (.readClock input E) := by
  rw [advance]
  simp only [h]

theorem advance_readPoll_cons {b : UInt8} {bs : List UInt8} (h : m.pending = b :: bs) :
    m.advance P ⟨T, .readPoll input E⟩ fs now =
      { m with pending := bs }.readDone P ⟨T, .readPoll input E⟩ fs input (.byte b) := by
  rw [advance]
  simp only [h]

theorem advance_readClock_lt (h : now < E) : m.advance P ⟨T, .readClock input E⟩ fs now =
    m.goto ⟨T, .readClock input E⟩ fs (.readPoll input E) := if_pos h

theorem advance_readClock_ge (h : ¬ now < E) : m.advance P ⟨T, .readClock input E⟩ fs now =
    m.readDone P ⟨T, .readClock input E⟩ fs input .timeout := if_neg h

theorem advance_clock_ends (h : ((checkTimeout T now).run m.stub).2.gRunning = true) :
    m.advance P ⟨T, .clock⟩ fs now = { m with
      stub := ((leaveStop P).run ((checkTimeout T now).run m.stub).2).2
      frames := fs
      trace := m.trace ++ [.left now] } := if_pos h

theorem advance_clock_goes_on (h : ¬ ((checkTimeout T now).run m.stub).2.gRunning = true) :
    m.advance P ⟨T, .clock⟩ fs now = { m with
      stub := ((checkTimeout T now).run m.stub).2
      frames := ⟨T, .poll⟩ :: fs } := if_neg h

end Advance

/-- The innermost activation advances to another point, or its loop ends. -/
theorem advance_cases (P : Platform σ) (m : Machine σ) (f : Frame σ) (fs : List (Frame σ))
    (now : Nat) : (∃ point, (m.advance P f fs now).frames = { f with point := point } :: fs) ∨
    (f.point = .clock ∧ ((checkTimeout f.EndTime now).run m.stub).2.gRunning = true ∧
      m.advance P f fs now = { m with
        stub := ((leaveStop P).run ((checkTimeout f.EndTime now).run m.stub).2).2
        frames := fs
        trace := m.trace ++ [.left now] }) := by
  obtain ⟨T, point⟩ := f
  cases point with
  | poll => exact Or.inl ⟨_, rfl⟩
  | readStart input => exact Or.inl ⟨_, rfl⟩
  | execute rest => exact Or.inl ⟨_, rfl⟩
  | readPoll input E =>
    cases hpending : m.pending with
    | nil => exact Or.inl ⟨_, congrArg frames (advance_readPoll_nil hpending)⟩
    | cons b bs => exact Or.inl ⟨_, congrArg frames (advance_readPoll_cons hpending)⟩
  | readClock input E =>
    by_cases hnow : now < E
    · exact Or.inl ⟨_, congrArg frames (advance_readClock_lt hnow)⟩
    · exact Or.inl ⟨_, congrArg frames (advance_readClock_ge hnow)⟩
  | clock =>
    by_cases hends : ((checkTimeout T now).run m.stub).2.gRunning = true
    · exact Or.inr ⟨rfl, hends, advance_clock_ends hends⟩
    · exact Or.inl ⟨.poll, congrArg frames (advance_clock_goes_on hends)⟩

/-- **How a stop ends**: at the clock of its loop, with `gRunning` set. -/
theorem Step.ends {m m' : Machine σ} {e : Event σ} (h : Step P m e m')
    (hless : m'.frames.length < m.frames.length) :
    ∃ now arrived f fs, e = .tick now arrived ∧ m.frames = f :: fs ∧ f.point = .clock ∧
      ((checkTimeout f.EndTime now).run m.stub).2.gRunning = true ∧
      m' = { stub := ((leaveStop P).run ((checkTimeout f.EndTime now).run m.stub).2).2
             pending := m.pending ++ arrived
             frames := fs
             trace := m.trace ++ [.left now] } := by
  cases h with
  | tick now arrived =>
    rcases tick_cases P m now arrived with ⟨-, htick⟩ | ⟨-, f, fs, hframes, htick⟩
    · rw [htick] at hless
      exact absurd hless (Nat.lt_irrefl _)
    · rw [htick] at hless ⊢
      rcases advance_cases P (m.arrive arrived) f fs now with
        ⟨point, hadvance⟩ | ⟨hclock, hrunning, hadvance⟩
      · rw [hadvance, hframes] at hless
        exact absurd hless (Nat.lt_irrefl _)
      · exact ⟨now, arrived, f, fs, rfl, hframes, hclock, hrunning, hadvance⟩
  | stop i c info context now hrunning halive => exact absurd hless (by simp [enter])
  | nested i c info context now before after hstopped hexecuting hcut hkept halive =>
    exact absurd hless (by simp [enter, goto, hstopped])
  | arm T hrunning halive => exact absurd hless (Nat.lt_irrefl _)
  | running t reason polled hrunning halive => exact absurd hless (Nat.lt_irrefl _)

/-- No step touches the activations behind the innermost one. -/
theorem Step.tail_suffix {m m' : Machine σ} {e : Event σ} (h : Step P m e m') :
    m.frames.tail <:+ m'.frames := by
  cases h with
  | tick now arrived =>
    rcases tick_cases P m now arrived with ⟨-, htick⟩ | ⟨-, f, fs, hframes, htick⟩
    · rw [htick]
      exact List.tail_suffix _
    · rw [htick, show m.frames.tail = fs from congrArg List.tail hframes]
      rcases advance_cases P (m.arrive arrived) f fs now with
        ⟨point, hadvance⟩ | ⟨-, -, hadvance⟩
      · rw [hadvance]
        exact List.suffix_cons ..
      · rw [hadvance]
  | stop i c info context now hrunning halive =>
    rw [hrunning]
    exact List.nil_suffix
  | nested i c info context now before after hstopped hexecuting hcut hkept halive =>
    rw [hstopped]
    exact (List.suffix_cons ..).trans (List.suffix_cons ..)
  | arm T hrunning halive => exact List.tail_suffix _
  | running t reason polled hrunning halive => exact List.tail_suffix _

end Steps

/-- The activations that were there before a stop are there when it is over. -/
theorem Run.frames {P : Platform σ} {m m' : Machine σ} {es : List (Event σ)} {fs : List (Frame σ)}
    (h : Run P (fun k _ => fs.length < k.frames.length) m es m') (hm : fs <:+ m.frames) :
    fs <:+ m'.frames := by
  induction h with
  | none => exact hm
  | snoc run inside step ih =>
    rename_i m₁ m₂ es e
    cases hframes : m₁.frames with
    | nil =>
      rw [hframes] at inside
      exact absurd inside (Nat.not_lt_zero _)
    | cons f gs =>
      rw [hframes] at ih inside
      have htail := step.tail_suffix
      rw [hframes] at htail
      rcases List.suffix_cons_iff.mp ih with heq | hsuffix
      · rw [heq] at inside
        exact absurd inside (Nat.lt_irrefl _)
      · exact hsuffix.trans htail

end Machine
end UefiDebugger
