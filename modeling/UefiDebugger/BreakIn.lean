import UefiDebugger.StopRefinement

/-!
# Breaking in

While nothing is stopped the program runs, and with it the parts of the debugger that it calls:
`DebuggerPollInput`, which reads what the debugger sends and breaks on a Ctrl-C,
`DebuggerInitialBreakpoint`, and the break on a module load.  `Firmware` is that program in front of
`Machine`, one call of the transport or of the clock at a time.

Over all runs every byte that arrives is read exactly once and in order, by a stop or by
`DebuggerPollInput`, and each Ctrl-C that the latter reads is one break (`bytes_accounted`).  A
Ctrl-C that waits when it is called stops the target, whatever the clock says (`poll_breaks_in`).
-/
namespace UefiDebugger
open HexText ByteString StateEffect QueuedRun

variable {σ : Type}

/-! ## The state -/

/-- Who called `DebuggerBreak`: the program, or the loop of `DebuggerPollInput`. -/
inductive BreakCaller where
  | program
  | pollInput
  deriving DecidableEq

/-- Where the running code is: in the program, in `DebuggerPollInput` (at its poll, or in
`DebugReadByte`: about to set its deadline, at its poll, at its clock), at the `CpuBreakpoint` of
`DebuggerBreak`, or behind it. -/
inductive RunPoint where
  | program
  | poll
  | readStart
  | readPoll (EndTime : Nat)
  | readClock (EndTime : Nat)
  | breaking (caller : BreakCaller)
  | broken (caller : BreakCaller)
  deriving DecidableEq

/-- Who reads a byte. -/
inductive Reader where
  | stop
  | pollInput
  deriving DecidableEq

/-- The machine, and where the code that runs is.  `consumed` and `breaks` are records: the bytes
that were read, and the calls of `DebuggerBreak`. -/
structure Firmware (σ : Type) where
  machine : Machine σ
  point : RunPoint
  consumed : List (Reader × UInt8)
  breaks : List BreakpointReason

/-- Where a call of `DebuggerBreak` returns to. -/
def BreakCaller.returnsTo : BreakCaller → RunPoint
  | .program => .program
  | .pollInput => .poll

/-- Who called the `DebuggerBreak` under way. -/
def RunPoint.breaker : RunPoint → Option BreakCaller
  | .breaking caller => some caller
  | .broken caller => some caller
  | _ => none

/-- The character `DebuggerPollInput` looks for. -/
def breakCharacter : UInt8 := 0x3

/-- The bytes that a step of the machine read. -/
def newReads (m m' : Machine σ) : List UInt8 :=
  Machine.bytesRead ((m'.trace.drop m.trace.length).filterMap Observation.outcome)

namespace Firmware
open Machine

/-! ## The running code -/

/-- Bytes arrive. -/
def arrive (F : Firmware σ) (arrived : List UInt8) : Firmware σ :=
  { F with machine := F.machine.arrive arrived }

/-- `DebuggerBreakpointReason = Reason`. -/
def setReason (F : Firmware σ) (Reason : BreakpointReason) : Firmware σ :=
  { F with machine :=
    { F.machine with stub := { F.machine.stub with debuggerBreakpointReason := Reason } } }

/-- `DebuggerBreak` up to its `CpuBreakpoint`. -/
def debuggerBreak (F : Firmware σ) (Reason : BreakpointReason) (caller : BreakCaller) :
    Firmware σ :=
  { F.setReason Reason with point := .breaking caller, breaks := F.breaks ++ [Reason] }

/-- `DebuggerPollInput` with a character it has read. -/
def polled (F : Firmware σ) (Character : UInt8) : Firmware σ :=
  let F := { F with point := .poll, consumed := F.consumed ++ [(.pollInput, Character)] }
  if Character = breakCharacter then F.debuggerBreak .debuggerBreak .pollInput else F

/-- The running code takes its next step at time `now`; at a `CpuBreakpoint` it waits for the
exception. -/
def advance (F : Firmware σ) (now : Nat) : Firmware σ :=
  match F.point with
  | .program => F
  | .poll => { F with point := if F.machine.pending = [] then .program else .readStart }
  | .readStart => { F with point := .readPoll ((now + 10) % 2 ^ 64) }
  | .readPoll EndTime =>
      match F.machine.pending with
      | [] => { F with point := .readClock EndTime }
      | b :: bs => { F with machine := { F.machine with pending := bs } }.polled b
  | .readClock EndTime => { F with point := if now < EndTime then .readPoll EndTime else .program }
  | .breaking _ => F
  | .broken caller => { F.setReason .none with point := caller.returnsTo }

/-- The machine takes a step in a stop. -/
def inStop (F : Firmware σ) (m' : Machine σ) : Firmware σ :=
  { F with machine := m', consumed := F.consumed ++ (newReads F.machine m').map fun b =>
    (.stop, b) }

/-- Time passes: the innermost stop advances, or if there is none the running code. -/
def tick (P : Platform σ) (F : Firmware σ) (now : Nat) (arrived : List UInt8) : Firmware σ :=
  if F.machine.frames = [] then
    if F.machine.stub.halted = true then F.arrive arrived else (F.arrive arrived).advance now
  else F.inStop (F.machine.tick P now arrived)

/-- What can happen: time passes; a command of a stop raises an exception; the program runs, raises
an exception or calls the debugger; `CpuBreakpoint` raises its exception. -/
inductive FirmwareEvent (σ : Type) where
  | tick (now : Nat) (arrived : List UInt8)
  | nested (InfoAddress ContextAddress : Nat) (info : ExceptionInfo) (context : Context) (now : Nat)
  | program (target : σ)
  | exception (InfoAddress ContextAddress : Nat) (info : ExceptionInfo) (context : Context)
      (now : Nat)
  | pollInput
  | initialBreakpoint (Timeout : Nat)
  | moduleLoad
  | cpuBreakpoint (InfoAddress ContextAddress : Nat) (info : ExceptionInfo) (context : Context)
      (now : Nat)

/-- The bytes that arrive. -/
def FirmwareEvent.arrived : FirmwareEvent σ → List UInt8
  | .tick _ bs => bs
  | _ => []

/-- The program runs. -/
structure Runs (F : Firmware σ) : Prop where
  program : F.point = .program
  running : F.machine.frames = []
  alive : F.machine.stub.halted = false

/-- One step. -/
inductive Step (P : Platform σ) : Firmware σ → FirmwareEvent σ → Firmware σ → Prop
  | tick (F : Firmware σ) (now : Nat)
      (arrived : List UInt8) : Step P F (.tick now arrived) (F.tick P now arrived)
  | nested {F : Firmware σ} {i c : Nat} {info : ExceptionInfo} {context : Context} {now : Nat}
      {m' : Machine σ} (stopped : F.machine.frames ≠ [])
      (step : Machine.Step P F.machine (.exception i c info context now) m') :
      Step P F (.nested i c info context now) (F.inStop m')
  | program {F : Firmware σ} (target : σ) (runs : Runs F) : Step P F (.program target)
      { F with machine := { F.machine with stub := { F.machine.stub with target := target } } }
  | exception {F : Firmware σ} (i c : Nat) (info : ExceptionInfo) (context : Context) (now : Nat)
      (runs : Runs F) :
      Step P F (.exception i c info context now)
      { F with machine := F.machine.enter i c info context now }
  | pollInput {F : Firmware σ} (runs : Runs F) : Step P F .pollInput { F with point := .poll }
  | initialBreakpoint {F : Firmware σ} (Timeout : Nat)
      (runs : Runs F) : Step P F (.initialBreakpoint Timeout)
      ({ F with machine := F.machine.arm Timeout }.debuggerBreak .initial .program)
  | moduleLoad {F : Firmware σ}
      (runs : Runs F) : Step P F .moduleLoad (F.debuggerBreak .moduleLoad .program)
  | cpuBreakpoint {F : Firmware σ} {caller : BreakCaller} (i c : Nat) (info : ExceptionInfo)
      (context : Context) (now : Nat) (breaking : F.point = .breaking caller)
      (running : F.machine.frames = []) (alive : F.machine.stub.halted = false) :
      Step P F (.cpuBreakpoint i c info context now)
      { F with machine := F.machine.enter i c info context now, point := .broken caller }

/-- A run whose events are all allowed in the state they happen in. -/
inductive Run (P : Platform σ) (Allowed : Firmware σ → FirmwareEvent σ → Prop) :
    Firmware σ → List (FirmwareEvent σ) → Firmware σ → Prop
  | none (F : Firmware σ) : Run P Allowed F [] F
  | snoc {F F₁ F₂ : Firmware σ} {es : List (FirmwareEvent σ)} {e : FirmwareEvent σ}
      (run : Run P Allowed F es F₁) (allowed : Allowed F₁ e) (step : Step P F₁ e F₂) :
      Run P Allowed F (es ++ [e]) F₂

/-- The image as it is loaded, with the program running. -/
def initial (s : Stub σ) : Firmware σ := ⟨Machine.initial s, .program, [], []⟩

/-- Ticks, one after the other. -/
def ticks (P : Platform σ) (F : Firmware σ) : List (Nat × List UInt8) → Firmware σ
  | [] => F
  | t :: ts => (F.tick P t.1 t.2).ticks P ts

/-- The bytes that arrive in a run. -/
def stream (es : List (FirmwareEvent σ)) : List UInt8 := es.flatMap FirmwareEvent.arrived

theorem Run.mono {P : Platform σ} {Allowed Allowed' : Firmware σ → FirmwareEvent σ → Prop}
    (hmono : ∀ F e, Allowed F e → Allowed' F e) {F F' : Firmware σ} {es : List (FirmwareEvent σ)}
    (h : Run P Allowed F es F') : Run P Allowed' F es F' := by
  induction h with
  | none => exact .none _
  | snoc run allowed step ih => exact ih.snoc (hmono _ _ allowed) step

theorem Run.ticks {P : Platform σ} {Allowed : Firmware σ → FirmwareEvent σ → Prop}
    (hallowed : ∀ F now arrived, Allowed F (.tick now arrived)) {F₀ : Firmware σ}
    (ts : List (Nat × List UInt8)) : ∀ {es : List (FirmwareEvent σ)} {F : Firmware σ},
    Run P Allowed F₀ es F →
      Run P Allowed F₀ (es ++ ts.map fun t => .tick t.1 t.2) (F.ticks P ts) := by
  induction ts with
  | nil =>
    intro es F h
    rw [List.map_nil, List.append_nil]
    exact h
  | cons t ts ih =>
    intro es F h
    have hrest := ih (h.snoc (hallowed _ _ _) (.tick F t.1 t.2))
    rw [List.append_assoc] at hrest
    exact hrest

/-- No stop is nested in another one, and no timeout ends behind the range of the clock. -/
def Calm (F : Firmware σ) : FirmwareEvent σ → Prop
  | .nested .. => False
  | .exception _ _ _ _ now => now + F.machine.stub.mNextBreakpointTimeout < 2 ^ 64
  | .cpuBreakpoint _ _ _ _ now => now + F.machine.stub.mNextBreakpointTimeout < 2 ^ 64
  | _ => True

/-! ### A run

A Ctrl-C waits behind another byte when the program calls `DebuggerPollInput`. -/

/-- The program has called `DebuggerPollInput`. -/
def pollingFirmware : Firmware FlatMachine :=
  { (initial (Stub.initial ⟨fun _ => 0x90, []⟩)).tick flatPlatform 0
    [0x41, breakCharacter, 0x2b] with point := .poll }

/-- Six ticks later. -/
def breakingFirmware : Firmware FlatMachine :=
  pollingFirmware.ticks flatPlatform (List.replicate 6 (0, [0x41]))

/-- The breakpoint has stopped the target. -/
def brokenFirmware : Firmware FlatMachine :=
  { breakingFirmware with
    machine := breakingFirmware.machine.enter 1 2 ⟨.breakpoint, 0, 3⟩ (fun _ => 0) 0
    point := .broken .pollInput }

/-- What happened. -/
def breakInEvents : List (FirmwareEvent FlatMachine) :=
  [.tick 0 [0x41, breakCharacter, 0x2b], .pollInput] ++
  (List.replicate 6 (0, [0x41])).map (fun t => .tick t.1 t.2) ++
  [.cpuBreakpoint 1 2 ⟨.breakpoint, 0, 3⟩ (fun _ => 0) 0]

theorem brokenFirmware_run :
    Run flatPlatform Calm (initial (Stub.initial ⟨fun _ => 0x90, []⟩)) breakInEvents
    brokenFirmware := by
  have htick : Run flatPlatform Calm (initial (Stub.initial ⟨fun _ => 0x90, []⟩)) _ _ :=
    (Run.none _).snoc (e := .tick 0 [0x41, breakCharacter, 0x2b]) trivial (.tick _ 0 _)
  have hpoll := htick.snoc (e := .pollInput) trivial (.pollInput ⟨rfl, rfl, rfl⟩)
  have hticks := hpoll.ticks (fun _ _ _ => trivial) (List.replicate 6 (0, [0x41]))
  have hclock : 0 + breakingFirmware.machine.stub.mNextBreakpointTimeout < 2 ^ 64 := by
    decide +kernel
  exact hticks.snoc (e := .cpuBreakpoint 1 2 ⟨.breakpoint, 0, 3⟩ (fun _ => 0) 0) hclock
    (.cpuBreakpoint 1 2 _ _ 0 (by decide +kernel) (List.length_eq_zero_iff.mp (by decide +kernel))
      (by decide +kernel))

/-! ## Every byte is read once -/

end Firmware

/-- A step of the machine adds `observed` to the trace, and takes the bytes of the reads among it
from the front of the transport, behind which `arrived` was put. -/
structure Accounts (m : Machine σ) (arrived : List UInt8) (m' : Machine σ)
    (observed : List Observation) : Prop where
  trace : m'.trace = m.trace ++ observed
  bytes : m.pending ++ arrived = Machine.bytesRead (observed.filterMap Observation.outcome) ++
    m'.pending

namespace Machine
variable {P : Platform σ}

/-- The innermost activation advances. -/
theorem accounts_advance (m : Machine σ) (f : Frame σ) (fs : List (Frame σ)) (now : Nat) :
    ∃ observed, Accounts m [] (m.advance P f fs now) observed := by
  have still : ∀ m' : Machine σ, m'.trace = m.trace → m'.pending = m.pending →
      Accounts m [] m' [] :=
    fun m' htrace hpending =>
    ⟨by rw [htrace, List.append_nil], by rw [hpending, List.append_nil]; rfl⟩
  obtain ⟨T, point⟩ := f
  cases point with
  | poll => exact ⟨[], still _ rfl rfl⟩
  | readStart input => exact ⟨[], still _ rfl rfl⟩
  | execute rest => exact ⟨[], still _ rfl rfl⟩
  | readPoll input E =>
    cases hpending : m.pending with
    | nil =>
      rw [advance_readPoll_nil hpending]
      exact ⟨[], still _ rfl rfl⟩
    | cons b bs =>
      rw [advance_readPoll_cons hpending]
      exact ⟨[.read (.byte b)], rfl, by rw [hpending, List.append_nil]; rfl⟩
  | readClock input E =>
    by_cases hnow : now < E
    · rw [advance_readClock_lt hnow]
      exact ⟨[], still _ rfl rfl⟩
    · rw [advance_readClock_ge hnow]
      exact ⟨[.read .timeout], rfl, by rw [List.append_nil]; rfl⟩
  | clock =>
    by_cases hends : ((checkTimeout T now).run m.stub).2.gRunning = true
    · rw [advance_clock_ends hends]
      exact ⟨[.left now], rfl, by rw [List.append_nil]; rfl⟩
    · rw [advance_clock_goes_on hends]
      exact ⟨[], still _ rfl rfl⟩

theorem accounts_tick (m : Machine σ) (now : Nat) (arrived : List UInt8) :
    ∃ observed, Accounts m arrived (m.tick P now arrived) observed := by
  rcases tick_cases P m now arrived with ⟨-, htick⟩ | ⟨-, f, fs, -, htick⟩
  · rw [htick]
    exact ⟨[], (List.append_nil _).symm, rfl⟩
  · rw [htick]
    obtain ⟨observed, h⟩ := accounts_advance (P := P) (m.arrive arrived) f fs now
    exact ⟨observed, h.trace, by rw [← h.bytes, List.append_nil, arrive_pending]⟩

/-- An exception reads nothing. -/
theorem accounts_exception {m m' : Machine σ} {i c now : Nat} {info : ExceptionInfo}
    {context : Context} (h : Step P m (.exception i c info context now) m') :
    ∃ observed, Accounts m [] m' observed := by
  cases h with
  | stop i c info context now hrunning halive => exact ⟨_, rfl, List.append_nil _⟩
  | nested i c info context now before after hstopped hexecuting hcut hkept halive =>
    exact ⟨_, rfl, List.append_nil _⟩

end Machine

theorem newReads_of_accounts {m m' : Machine σ} {arrived : List UInt8} {observed : List Observation}
    (h : Accounts m arrived m' observed) :
    newReads m m' = Machine.bytesRead (observed.filterMap Observation.outcome) := by
  rw [newReads, h.trace, List.drop_left]

/-- The bytes one of the two has read. -/
def readBy (reader : Reader) (consumed : List (Reader × UInt8)) : List UInt8 :=
  (consumed.filter fun c => c.1 = reader).map Prod.snd

namespace Firmware
variable {P : Platform σ}

/-- What the records say about the bytes that arrived. -/
structure Accounted (F : Firmware σ) (arrived : List UInt8) : Prop where
  all : F.consumed.map Prod.snd ++ F.machine.pending = arrived
  stops : readBy .stop F.consumed = Machine.bytesRead
    (F.machine.trace.filterMap Observation.outcome)
  breaks : F.breaks.count .debuggerBreak = (readBy .pollInput F.consumed).count breakCharacter

section Accounted
variable {F : Firmware σ} {arrived : List UInt8}

theorem Accounted.of_same {F' : Firmware σ} (h : Accounted F arrived)
    (hconsumed : F'.consumed = F.consumed) (hpending : F'.machine.pending = F.machine.pending)
    (hbreaks : F'.breaks.count .debuggerBreak =
      F.breaks.count .debuggerBreak) (htrace : F'.machine.trace.filterMap Observation.outcome =
      F.machine.trace.filterMap Observation.outcome) : Accounted F' arrived where
  all := by rw [hconsumed, hpending, h.all]
  stops := by rw [hconsumed, htrace, h.stops]
  breaks := by rw [hconsumed, hbreaks, h.breaks]

theorem Accounted.arrive (h : Accounted F arrived) (bs : List UInt8) :
    Accounted (F.arrive bs) (arrived ++ bs) where
  all := by rw [← h.all, List.append_assoc]; rfl
  stops := h.stops
  breaks := h.breaks

/-- The machine takes a step in a stop. -/
theorem Accounted.inStop (h : Accounted F arrived) {bs : List UInt8} {m' : Machine σ}
    {observed : List Observation} (hstep : Accounts F.machine bs m' observed) :
    Accounted (F.inStop m') (arrived ++ bs) := by
  have hreads : (F.inStop m').consumed = F.consumed ++
      (Machine.bytesRead (observed.filterMap Observation.outcome)).map fun b =>
      (Reader.stop, b) := by
    rw [Firmware.inStop, newReads_of_accounts hstep]
  generalize hread : Machine.bytesRead (observed.filterMap Observation.outcome) = read at *
  refine ⟨?_, ?_, ?_⟩
  · rw [hreads, List.map_append, List.map_map, List.append_assoc, ← h.all, List.append_assoc,
      hstep.bytes, hread]
    simp [Firmware.inStop, Function.comp_def]
  · have htrace : Machine.bytesRead ((F.inStop m').machine.trace.filterMap Observation.outcome) =
        Machine.bytesRead (F.machine.trace.filterMap Observation.outcome) ++ read := by
      rw [Firmware.inStop, hstep.trace, List.filterMap_append, ← hread]
      exact List.filterMap_append
    rw [htrace, hreads, readBy, List.filter_append, List.map_append, ← readBy, h.stops]
    simp [List.filter_map, Function.comp_def]
  · rw [hreads, readBy, List.filter_append, List.map_append, ← readBy]
    simp [List.filter_map, Function.comp_def, Firmware.inStop, h.breaks]

/-- `DebuggerPollInput` takes a byte from the transport. -/
theorem Accounted.polled (h : Accounted F arrived) {b : UInt8} {bs : List UInt8}
    (hpending : F.machine.pending = b :: bs) :
    Accounted ({ F with machine := { F.machine with pending := bs } }.polled b) arrived := by
  have hall : (F.consumed ++ [(Reader.pollInput, b)]).map Prod.snd ++ bs = arrived := by
    rw [← h.all, hpending, List.map_append, List.append_assoc]
    rfl
  have hstops : readBy .stop (F.consumed ++ [(Reader.pollInput, b)]) = readBy .stop F.consumed := by
    simp [readBy]
  have hpolls : readBy .pollInput (F.consumed ++ [(Reader.pollInput, b)]) = readBy .pollInput
      F.consumed ++ [b] := by
    simp [readBy]
  by_cases hbreak : b = breakCharacter
  · rw [Firmware.polled, if_pos hbreak]
    refine ⟨hall, hstops.trans h.stops, ?_⟩
    show (F.breaks ++ [BreakpointReason.debuggerBreak]).count .debuggerBreak = _
    rw [List.count_append, h.breaks]
    show _ = (readBy .pollInput (F.consumed ++ [(Reader.pollInput, b)])).count breakCharacter
    rw [hpolls, List.count_append, hbreak]
    rfl
  · rw [Firmware.polled, if_neg hbreak]
    refine ⟨hall, hstops.trans h.stops, h.breaks.trans ?_⟩
    show _ = (readBy .pollInput (F.consumed ++ [(Reader.pollInput, b)])).count breakCharacter
    rw [hpolls, List.count_append, List.count_singleton, if_neg (by simpa using hbreak)]
    rfl

/-- The running code takes a step. -/
theorem Accounted.advance (h : Accounted F arrived) (now : Nat) :
    Accounted (F.advance now) arrived := by
  unfold Firmware.advance
  cases hpoint : F.point with
  | program => exact h
  | poll => exact h.of_same rfl rfl rfl rfl
  | readStart => exact h.of_same rfl rfl rfl rfl
  | readPoll E =>
    cases hpending : F.machine.pending with
    | nil => exact h.of_same rfl rfl rfl rfl
    | cons b bs => exact h.polled hpending
  | readClock E => exact h.of_same rfl rfl rfl rfl
  | breaking caller => exact h
  | broken caller => exact h.of_same rfl rfl rfl rfl

theorem Accounted.tick (h : Accounted F arrived) (now : Nat) (bs : List UInt8) :
    Accounted (F.tick P now bs) (arrived ++ bs) := by
  unfold Firmware.tick
  by_cases hrunning : F.machine.frames = []
  · rw [if_pos hrunning]
    by_cases hhalted : F.machine.stub.halted = true
    · rw [if_pos hhalted]
      exact h.arrive bs
    · rw [if_neg hhalted]
      exact (h.arrive bs).advance now
  · rw [if_neg hrunning]
    obtain ⟨observed, hstep⟩ := Machine.accounts_tick (P := P) F.machine now bs
    exact h.inStop hstep

end Accounted

/-- One step. -/
theorem Accounted.step {F F' : Firmware σ} {arrived : List UInt8} {e : FirmwareEvent σ}
    (h : Accounted F arrived) (hstep : Step P F e F') : Accounted F' (arrived ++ e.arrived) := by
  have quiet : Accounted F' arrived → e.arrived = [] → Accounted F' (arrived ++ e.arrived) :=
    fun h' hnone => by
    rwa [hnone, List.append_nil]
  cases hstep with
  | tick now bs => exact h.tick now bs
  | nested stopped step =>
    obtain ⟨observed, haccounts⟩ := Machine.accounts_exception step
    exact h.inStop haccounts
  | program target runs => exact quiet (h.of_same rfl rfl rfl rfl) rfl
  | exception i c info context now runs =>
    exact quiet (h.of_same rfl rfl rfl (by simp [Machine.enter, Observation.outcome])) rfl
  | pollInput runs => exact quiet (h.of_same rfl rfl rfl rfl) rfl
  | initialBreakpoint Timeout runs =>
    refine quiet (h.of_same rfl rfl (by simp [debuggerBreak]) ?_) rfl
    simp [debuggerBreak, setReason, Machine.arm, Observation.outcome]
  | moduleLoad runs => exact quiet (h.of_same rfl rfl (by simp [debuggerBreak]) rfl) rfl
  | cpuBreakpoint i c info context now breaking running alive =>
    exact quiet (h.of_same rfl rfl rfl (by simp [Machine.enter, Observation.outcome])) rfl

/-- **Every byte is read once.**  Over every run from the start, stops inside stops included, the
bytes that were read, by a stop or by `DebuggerPollInput`, followed by those that wait, are the
bytes that arrived; the stops read what the trace says; and `DebuggerBreak` was called by
`DebuggerPollInput` once for each Ctrl-C it read. -/
theorem bytes_accounted (P : Platform σ) {Allowed : Firmware σ → FirmwareEvent σ → Prop}
    {s : Stub σ} {es : List (FirmwareEvent σ)} {F : Firmware σ}
    (hrun : Run P Allowed (initial s) es F) :
    Accounted F (stream es) := by
  generalize hstart : initial s = F₀ at hrun
  induction hrun with
  | none => exact hstart ▸ ⟨rfl, rfl, rfl⟩
  | snoc run allowed step ih =>
    rw [stream, List.flatMap_append, List.flatMap_singleton]
    exact ih.step step

theorem bytes_accounted_break : Accounted brokenFirmware (stream breakInEvents) :=
  bytes_accounted flatPlatform brokenFirmware_run

/-! ## A Ctrl-C that waits is found -/

/-- The firmware, one tick at a time, with the transport as its queue. -/
def queued (P : Platform σ) : System (Firmware σ) (Nat × List UInt8) UInt8 where
  step F t := F.tick P t.1 t.2
  arrived := Prod.snd
  arrive := arrive
  arrive_nil F := by simp [arrive, Machine.arrive]
  arrive_arrive F bs cs :=
  congrArg (fun m => { F with machine := m }) (Machine.arrive_arrive F.machine bs cs)

theorem ticks_eq_run (P : Platform σ) : ∀ (ts : List (Nat × List UInt8)) (F : Firmware σ),
    F.ticks P ts = (queued P).run F ts
  | [], _ => rfl
  | _ :: ts, _ => ticks_eq_run P ts _

/-- Nothing is stopped, and the machine was not reset. -/
structure Free (F : Firmware σ) : Prop where
  running : F.machine.frames = []
  alive : F.machine.stub.halted = false

theorem Free.tick {F : Firmware σ} (h : Free F) (now : Nat) (arrived : List UInt8) :
    F.tick P now arrived = (F.arrive arrived).advance now := by
  rw [Firmware.tick, if_pos h.running, if_neg (ne_true_of_eq_false h.alive)]

/-- The byte is taken from the transport. -/
def take (F : Firmware σ) (b : UInt8) (bs : List UInt8) : Firmware σ :=
  { F with machine := { F.machine with pending := bs } }.polled b

theorem arrive_take (F : Firmware σ) (b : UInt8) (bs cs : List UInt8) :
    (F.take b bs).arrive cs = F.take b (bs ++ cs) := by
  rw [take, polled, take, polled]
  split
  · rfl
  · rfl

/-- One round of the loop of `DebuggerPollInput` with a byte that waits. -/
theorem settles_take {F : Firmware σ} (h : Free F) (hpoint : F.point = .poll) {b : UInt8}
    {bs : List UInt8} (hpending : F.machine.pending = b :: bs) :
    Settles (queued P) 3 F (F.take b bs) := fun more ts hts => by
  obtain ⟨t, u, v, rfl⟩ := List.length_eq_three.mp hts
  let found : Firmware σ := { (F.arrive more).arrive t.2 with point := .readStart }
  let waiting : Firmware σ := { found.arrive u.2 with point := .readPoll ((u.1 + 10) % 2 ^ 64) }
  have hwaits : (F.machine.pending ++ more) ++ t.2 ≠ [] := by simp [hpending]
  have hfound : (F.arrive more).tick P t.1 t.2 = found := by
    rw [Free.tick (F := F.arrive more) ⟨h.running, h.alive⟩, advance]
    simp only [arrive, Machine.arrive, hpoint, if_neg hwaits, found]
  have hwaiting : found.tick P u.1 u.2 = waiting := Free.tick (F := found) ⟨h.running, h.alive⟩ _ _
  have hbyte : (waiting.arrive v.2).machine.pending = b :: (bs ++ (more ++ t.2 ++ u.2 ++ v.2)) := by
    simp [waiting, found, arrive, Machine.arrive, hpending]
  calc (((F.arrive more).tick P t.1 t.2).tick P u.1 u.2).tick P v.1 v.2
      = (waiting.arrive v.2).advance v.1 := by
        rw [hfound, hwaiting, Free.tick (F := waiting) ⟨h.running, h.alive⟩]
    _ = (waiting.arrive v.2).take b (bs ++ (more ++ t.2 ++ u.2 ++ v.2)) := by
        rw [advance]
        simp only [arrive, Machine.arrive, waiting] at hbyte ⊢
        rw [hbyte]
        rfl
    _ = (F.take b bs).arrive (more ++ (queued P).stream [t, u, v]) := by
        rw [arrive_take]
        simp [take, polled, waiting, found, arrive, Machine.arrive, System.stream, queued]

/-- The bytes before the Ctrl-C, and the Ctrl-C. -/
theorem settles_breaking (rest : List UInt8) (pre : List UInt8) : ∀ {F : Firmware σ}, Free F →
    F.point = .poll → F.machine.pending = pre ++ breakCharacter :: rest → breakCharacter ∉ pre →
      Settles (queued P) (3 * (pre.length + 1)) F ({ F with
        machine := { F.machine with pending := rest }
        consumed :=
          F.consumed ++ (pre ++ [breakCharacter]).map fun b =>
        (Reader.pollInput, b) }.debuggerBreak .debuggerBreak .pollInput) := by
  induction pre with
  | nil =>
    intro F hfree hpoint hpending _
    exact settles_take hfree hpoint hpending
  | cons b pre ih =>
    intro F hfree hpoint hpending hpre
    obtain ⟨hb, hpre⟩ := not_or.mp (mt List.mem_cons.mpr hpre)
    have htake : F.take b (pre ++ breakCharacter :: rest) = { F with
        machine := { F.machine with pending := pre ++ breakCharacter :: rest }
        point := .poll
        consumed := F.consumed ++ [(.pollInput, b)] } := if_neg (Ne.symm hb)
    have hfirst : Settles (queued P) 3 F (F.take b (pre ++ breakCharacter :: rest)) :=
      settles_take hfree hpoint hpending
    rw [htake] at hfirst
    have hrest := hfirst.trans (ih ⟨hfree.running, hfree.alive⟩ rfl rfl hpre)
    rw [List.length_cons, show 3 * (pre.length + 1 + 1) = 3 + 3 * (pre.length + 1) by omega]
    simpa [debuggerBreak, setReason] using hrest

/-- **A Ctrl-C breaks in.**  When `DebuggerPollInput` is called and a Ctrl-C waits, behind whatever
other bytes, then it stops the target: whatever the clock says and whatever else arrives, the bytes
up to the Ctrl-C are read, no byte behind it is, and `DebuggerBreak` is at its breakpoint with the
reason for the debugger. -/
theorem poll_breaks_in (P : Platform σ) {F : Firmware σ} {pre rest : List UInt8}
    (hpoint : F.point = .poll) (hrunning : F.machine.frames = [])
    (halive : F.machine.stub.halted = false)
    (hpending : F.machine.pending = pre ++ breakCharacter :: rest) (hpre : breakCharacter ∉ pre)
    {ts : List (Nat × List UInt8)} (hts : ts.length = 3 * (pre.length + 1)) : F.ticks P ts = {
      machine := { F.machine with
        stub := { F.machine.stub with debuggerBreakpointReason := .debuggerBreak }
        pending := rest ++ arriving ts }
      point := .breaking .pollInput
      consumed := F.consumed ++ (pre ++ [breakCharacter]).map fun b => (.pollInput, b)
      breaks := F.breaks ++ [.debuggerBreak] } := by
  exact (ticks_eq_run P ts F).trans
    ((settles_breaking rest pre ⟨hrunning, halive⟩ hpoint hpending hpre).run hts)

/-- The other byte is read and thrown away, and what is behind the Ctrl-C waits. -/
theorem poll_breaks_in_waiting : breakingFirmware = {
    machine := { pollingFirmware.machine with
      stub := { pollingFirmware.machine.stub with debuggerBreakpointReason := .debuggerBreak }
      pending := [0x2b] ++ arriving (List.replicate 6 (0, [0x41])) }
    point := .breaking .pollInput
    consumed :=
      pollingFirmware.consumed ++ ([0x41] ++ [breakCharacter]).map fun b => (.pollInput, b)
    breaks := pollingFirmware.breaks ++ [.debuggerBreak] } :=
  poll_breaks_in flatPlatform rfl rfl rfl rfl (by decide) rfl

end Firmware

end UefiDebugger
