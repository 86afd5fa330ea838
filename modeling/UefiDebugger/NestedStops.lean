import UefiDebugger.StopLoop
import UefiDebugger.FlatMachine

/-!
# Stops inside stops

`ReportEntryToDebugger` sets `gSystemContext`, `gExceptionInfo` and `gRunning` when it is entered
and restores none of them.  Nothing else sets the first two, so at any time they are those of the
last entry, however the entries were nested; and a loop only ends with `gRunning` set.  A stop that
was interrupted by another one therefore goes on with the records of the other.
-/
namespace UefiDebugger
open HexText ByteString StateEffect

variable {σ : Type}

/-! ## What the loops leave alone -/

/-- The record of a stop and `gRunning`. -/
def Stub.control (s : Stub σ) : StopRecord × Bool := (s.stopRecord, s.gRunning)

/-- Whose records the stub works on. -/
def Stub.entry (s : Stub σ) : Nat × Nat := (s.gExceptionInfo, s.gSystemContext)

theorem entry_of_links {α : Type} {m : StubM σ α} (h : Keeps Stub.links m) : Keeps Stub.entry m :=
  h.map fun r => (r.1.gExceptionInfo, r.1.gSystemContext)

theorem entry_of_control {α : Type} {m : StubM σ α} (h : Keeps Stub.control m) :
    Keeps Stub.entry m :=
  h.map fun r => (r.1.gExceptionInfo, r.1.gSystemContext)

section Reception
variable {γ : Type}

/-- `π` looks at nothing that collecting a packet changes. -/
class Deaf (π : Stub σ → γ) : Prop extends Silent π, Unasked π where
  output : ∀ (s : Stub σ) l, π { s with output := l } = π s

/-- Nor at what judging it changes. -/
class Unmoved (π : Stub σ → γ) : Prop extends Deaf π where
  connected : ∀ (s : Stub σ) b, π { s with mConnectionOccurred := b } = π s

instance : Deaf (Stub.control (σ := σ)) where
  request _ _ := rfl
  buffers _ _ _ _ _ _ _ := rfl
  packet _ _ := rfl
  asked _ _ := rfl
  output _ _ := rfl

instance : Unmoved (Stub.entry (σ := σ)) where
  request _ _ := rfl
  buffers _ _ _ _ _ _ _ := rfl
  packet _ _ := rfl
  asked _ _ := rfl
  output _ _ := rfl
  connected _ _ := rfl

section Deaf
variable {π : Stub σ → γ} [Deaf π]

theorem keeps_sendGdbAck (p : Bool) : Keeps π (sendGdbAck p : StubM σ Unit) :=
  fun s => Deaf.output s _

theorem keeps_receiveFirst (e : Receive) : Keeps π (receiveFirst e : StubM σ InputPoint) := by
  cases e with
  | timeout => exact keeps_pure _
  | byte b =>
    refine keeps_bind (keeps_writeRequest _ _) fun _ => keeps_bind keeps_get fun s =>
      keeps_ite ?_ ?_
    · exact keeps_bind (keeps_sendGdbResponse _) fun _ => keeps_pure _
    · refine keeps_ite (keeps_bind (fun s => Silent.buffers s _ _ _ _ _ _) fun _ => keeps_pure _) ?_
      exact keeps_ite (keeps_pure _) (keeps_pure _)

theorem keeps_receiveNext (n : Nat) (e : Receive) :
    Keeps π (receiveNext n e : StubM σ InputPoint) := by
  have refuse : Keeps π (do sendGdbAck false; pure .returned : StubM σ InputPoint) :=
    keeps_bind (keeps_sendGdbAck _) fun _ => keeps_pure _
  have continues : ∀ k, Keeps π (packetContinues k : StubM σ Bool) := fun k =>
    keeps_ite (keeps_pure _) (keeps_bind (keeps_readRequest _) fun _ => keeps_pure _)
  cases e with
  | timeout => exact refuse
  | byte b =>
    refine keeps_bind (keeps_writeRequest _ _) fun _ => keeps_bind (continues _) fun c => ?_
    exact keeps_ite (keeps_ite refuse (keeps_pure _)) (keeps_pure _)

/-- Collecting a packet decides nothing. -/
theorem keeps_collect (point : InputPoint) (e : Receive) :
    Keeps π (collect point e : StubM σ InputPoint) := by
  cases point with
  | first => exact keeps_receiveFirst e
  | next n => exact keeps_receiveNext n e
  | packet n => exact keeps_pure _
  | returned => exact keeps_bind (fun s => Unasked.asked s _) fun _ => keeps_receiveFirst e

end Deaf

theorem keeps_findChecksum {π : Stub σ → γ} [Silent π] :
    ∀ n i, Keeps π (findChecksum n i : StubM σ Nat)
  | 0, _ => keeps_pure _
  | n + 1, _ => keeps_bind (keeps_readRequest _) fun _ =>
      keeps_ite (keeps_pure _) (keeps_findChecksum n _)

section Unmoved
variable {π : Stub σ → γ} [Unmoved π]

theorem keeps_validateGdbPacket (P : Platform σ) (n : Nat) : Keeps π (validateGdbPacket P n) := by
  have refuse : Keeps π (do sendGdbAck false; pure none : StubM σ (Option Nat)) :=
    keeps_bind (keeps_sendGdbAck _) fun _ => keeps_pure _
  refine keeps_bind (keeps_readRequest _) fun _ => keeps_bind (keeps_assert _ _) fun _ => ?_
  refine keeps_bind (keeps_findChecksum _ _) fun i => keeps_ite refuse ?_
  refine keeps_bind (keeps_readRequest _) fun c => ?_
  refine keeps_bind (keeps_readRequest _) fun d => keeps_bind keeps_get fun s => ?_
  dsimp only
  cases P.baseLib.asciiStrHexToBytes [c, d] with
  | none => exact refuse
  | some sum =>
    refine keeps_ite refuse (keeps_bind (keeps_sendGdbAck _) fun _ => ?_)
    refine keeps_bind (fun s => Unmoved.connected s _) fun _ => keeps_bind (keeps_writeRequest _ _)
      fun _ => ?_
    exact keeps_bind (fun s => Deaf.output s _) fun _ => keeps_pure _

theorem keeps_afterRead (P : Platform σ) (input : InputPoint) (e : Receive) :
    Keeps π (afterRead P input e) := by
  refine keeps_bind (keeps_collect input e) fun next => ?_
  cases next with
  | packet n =>
    refine keeps_bind (keeps_validateGdbPacket P n) fun valid => ?_
    cases valid with
    | none => exact keeps_pure _
    | some i => exact keeps_pure _
  | first => exact keeps_pure _
  | next n => exact keeps_pure _
  | returned => exact keeps_pure _

end Unmoved

end Reception

theorem keeps_leaveStop (P : Platform σ) : Keeps Stub.control (leaveStop P) :=
  keeps_bind keeps_get fun _ => keeps_ite (keeps_bind (fun _ => rfl) fun _ => keeps_pure _)
  (keeps_pure _)

/-- **What entering a stop does**: the records are those of the exception, the target is stopped,
and a timeout that was waiting for a breakpoint is taken. -/
theorem reportException_spec (i c : Nat) (info : ExceptionInfo) (context : Context) (now : Nat)
    (s : Stub σ) :
    let r := (reportException i c info context now).run s
    r.2.control = ({
      gSystemContext := c
      gExceptionInfo := i
      mConnectionOccurred := s.mConnectionOccurred
      mNextBreakpointTimeout :=
        if info.exceptionType = .breakpoint then 0 else s.mNextBreakpointTimeout
      exceptionInfos := Function.update s.exceptionInfos i info }, false) ∧
    r.1 = if info.exceptionType = .breakpoint ∧ s.mNextBreakpointTimeout ≠ 0 then
      (now + s.mNextBreakpointTimeout) % 2 ^ 64 else 0 := by
  have hreply : ∀ s : Stub σ, (sendStopReply.run s).2.control = s.control := keeps_sendStopReply
  dsimp only
  rw [reportException, enterStop]
  simp only [run_bind, run_modify, run_get, run_pure, Function.update_self]
  rw [hreply]
  by_cases htype : info.exceptionType = .breakpoint
  · by_cases htimeout : s.mNextBreakpointTimeout = 0
    · simp [Stub.control, Stub.stopRecord, htype, htimeout]
    · simp [Stub.control, Stub.stopRecord, htype, htimeout]
  · simp [Stub.control, Stub.stopRecord, htype]

/-! ## Whose records -/

/-- The records an event makes current: those of an exception, or the ones before. -/
def Event.entryAfter (last : Nat × Nat) : Event σ → Nat × Nat
  | .exception InfoAddress ContextAddress _ _ _ => (InfoAddress, ContextAddress)
  | _ => last

namespace Machine
variable {P : Platform σ}

theorem entry_enter (m : Machine σ) (i c : Nat) (info : ExceptionInfo) (context : Context)
    (now : Nat) : (m.enter i c info context now).stub.entry = (i, c) := by
  have hcontrol := (reportException_spec i c info context now m.stub).1
  exact congrArg (fun r => (r.1.gExceptionInfo, r.1.gSystemContext)) hcontrol

theorem entry_advance (P : Platform σ) (m : Machine σ) (f : Frame σ) (fs : List (Frame σ))
    (now : Nat) : (m.advance P f fs now).stub.entry = m.stub.entry := by
  obtain ⟨T, point⟩ := f
  cases point with
  | poll => rfl
  | readStart input => rfl
  | execute rest => exact entry_of_links rest.keeps m.stub
  | readPoll input E =>
    cases hpending : m.pending with
    | nil => rw [advance_readPoll_nil hpending, goto]
    | cons b bs =>
      rw [advance_readPoll_cons hpending]
      exact keeps_afterRead (π := Stub.entry) P input (.byte b) m.stub
  | readClock input E =>
    by_cases hnow : now < E
    · rw [advance_readClock_lt hnow, goto]
    · rw [advance_readClock_ge hnow]
      exact keeps_afterRead (π := Stub.entry) P input .timeout m.stub
  | clock =>
    by_cases hends : ((checkTimeout T now).run m.stub).2.gRunning = true
    · rw [advance_clock_ends hends]
      exact entry_of_control (keeps_leaveStop P) _
    · rw [advance_clock_goes_on hends]
      rfl

/-- One step. -/
theorem Step.entry {m m' : Machine σ} {e : Event σ} (h : Step P m e m') :
    m'.stub.entry = e.entryAfter m.stub.entry := by
  cases h with
  | tick now arrived =>
    rcases tick_cases P m now arrived with ⟨-, htick⟩ | ⟨-, f, fs, -, htick⟩
    · rw [htick]
      rfl
    · rw [htick, entry_advance]
      rfl
  | stop i c info context now hrunning halive => exact entry_enter ..
  | nested i c info context now before after hstopped hexecuting hcut hkept halive =>
    exact entry_enter ..
  | arm T hrunning halive => rfl
  | running t reason polled hrunning halive => rfl

/-- A run. -/
theorem Run.entry {Allowed : Machine σ → Event σ → Prop} {m m' : Machine σ} {es : List (Event σ)}
    (h : Run P Allowed m es m') : m'.stub.entry = es.foldl Event.entryAfter m.stub.entry := by
  induction h with
  | none => rfl
  | snoc run allowed step ih =>
    rw [step.entry, ih, List.foldl_append, List.foldl_cons, List.foldl_nil]

/-- **A stop that returns to another one leaves it running, on the records of the last entry.**
Whatever command was interrupted and whatever happened in the inner session, further stops included,
when the inner `ReportEntryToDebugger` returns then `gRunning` is set, `gExceptionInfo` and
`gSystemContext` are those of the last entry of the session, and the interrupted activation is where
the exception caught it. -/
theorem nested_stop_returns (P : Platform σ) {m m₁ m' : Machine σ} {i c now : Nat}
    {info : ExceptionInfo} {context : Context} {es : List (Event σ)}
    (hentry : Step P m (.exception i c info context now) m₁)
    (hinner : Run P (fun k _ => m.frames.length < k.frames.length) m₁ es m')
    (hreturned : m'.frames.length = m.frames.length) : m'.stub.gRunning = true ∧
      (m'.stub.gExceptionInfo, m'.stub.gSystemContext) = es.foldl Event.entryAfter (i, c) ∧
      m'.frames = m₁.frames.tail := by
  have hrecords : m'.stub.entry = es.foldl Event.entryAfter (i, c) := by
    rw [hinner.entry, hentry.entry]
    rfl
  have hlen : m₁.frames.tail.length = m.frames.length := by
    cases hentry with
    | stop i c info context now hrunning halive => rfl
    | nested i c info context now before after hstopped hexecuting hcut hkept halive =>
      rw [hstopped]
      rfl
  have hsuffix : m₁.frames.tail <:+ m'.frames := by
    have hinside : Run P (fun k _ => m₁.frames.tail.length < k.frames.length) m₁ es m' := by
      rw [hlen]
      exact hinner
    exact hinside.frames (List.tail_suffix _)
  refine ⟨?_, hrecords, (hsuffix.eq_of_length (hlen.trans hreturned.symm)).symm⟩
  cases hinner with
  | none =>
    -- Right after its entry the inner stop is still there.
    cases hentry with
    | stop i c info context now hrunning halive => exact absurd hreturned (by simp [enter])
    | nested i c info context now before after hstopped hexecuting hcut hkept halive =>
      exact absurd hreturned (by simp [enter, goto, hstopped])
  | snoc run inside step =>
    rw [← hreturned] at inside
    obtain ⟨now, arrived, f, fs, -, -, -, hrunning, rfl⟩ := step.ends inside
    exact (congrArg Prod.snd (keeps_leaveStop P _)).trans hrunning

/-! ## A memory read that faults -/

/-- The command that is about to be executed raises an exception first. -/
def interrupt (m : Machine σ) (i c : Nat) (info : ExceptionInfo) (context : Context) (now : Nat) :
    Option (Machine σ) :=
  match m.stub.halted, m.frames with
  | false, ⟨EndTime, .execute rest⟩ :: fs =>
      some ((m.goto ⟨EndTime, .execute rest⟩ fs (.execute rest)).enter i c info context now)
  | _, _ => none

theorem step_interrupt {m m' : Machine σ} {i c now : Nat} {info : ExceptionInfo} {context : Context}
    (h : m.interrupt i c info context now = some m') :
    Step P m (.exception i c info context now) m' := by
  unfold interrupt at h
  split at h
  · rename_i EndTime rest fs halive hframes
    cases h
    exact .nested m i c info context now (f := ⟨EndTime, .execute rest⟩) (pure ())
      (fun _ => rest) hframes rfl rfl (keeps_pure ()) halive
  · cases h

/-- The target hit a breakpoint, and the debugger asks for the byte at address 0. -/
def readStop : Machine FlatMachine :=
  ((initial (Stub.initial ⟨fun _ => 0x90, []⟩)).enter 1 2 ⟨.breakpoint, 0, 3⟩ (fun _ => 0) 0).ticks
  flatPlatform ((0, text "$m0,1#fa") :: List.replicate 16 (0, []))

/-- The read faults, and the stub is entered again with records of its own. -/
def faultStop : Machine FlatMachine :=
  (readStop.interrupt 3 4 ⟨.accessViolation, 0, 14⟩ (fun _ => 0) 0).getD readStop

/-- The debugger resumes. -/
def resumeTicks : List (Nat × List UInt8) :=
  (0, text "$vCont;c#a8") :: (List.replicate 25 (0, []) ++ List.replicate 3 (20, []))

theorem faultStop_step : Step flatPlatform readStop
    (.exception 3 4 ⟨.accessViolation, 0, 14⟩ (fun _ => 0) 0) faultStop := by
  have hsome : (readStop.interrupt 3 4 ⟨.accessViolation, 0, 14⟩ (fun _ => 0) 0).isSome = true := by
    decide +kernel
  obtain ⟨m', hm'⟩ := Option.isSome_iff_exists.mp hsome
  have hfault : faultStop = m' := by
    rw [faultStop, hm']
    rfl
  rw [hfault]
  exact step_interrupt hm'

theorem faultStop_run :
    Run flatPlatform (fun k _ => readStop.frames.length < k.frames.length) faultStop
    (tickEvents resumeTicks) (faultStop.ticks flatPlatform resumeTicks) :=
  run_ticks _ resumeTicks faultStop (by decide +kernel)

theorem faultStop_returned :
    (faultStop.ticks flatPlatform resumeTicks).frames.length = readStop.frames.length := by
      decide +kernel

/-- The stop is reached from the start. -/
theorem readStop_reached : ∃ es, Run flatPlatform (fun _ _ => True)
    (initial (Stub.initial ⟨fun _ => 0x90, []⟩)) es readStop := by
  have hticks := run_ticks (P := flatPlatform) 0 ((0, text "$m0,1#fa") :: List.replicate 16 (0, []))
    ((initial (Stub.initial ⟨fun _ => 0x90, []⟩)).enter 1 2 ⟨.breakpoint, 0, 3⟩ (fun _ => 0) 0)
    (by decide +kernel)
  exact ⟨_, (run_one trivial (.stop _ 1 2 _ _ 0 rfl rfl)).trans (hticks.mono fun _ _ _ => trivial)⟩

/-- An inner stop does not give back what the outer one had: the stop goes on with the records of
the fault, and running. -/
theorem nested_stop_keeps_its_records :
    ¬ ∀ (s : Stub FlatMachine) (es₀ es : List (Event FlatMachine)) (m m₁ m' : Machine FlatMachine)
      (i c now : Nat) (info : ExceptionInfo) (context : Context),
      Run flatPlatform (fun _ _ => True) (initial s) es₀ m →
      Step flatPlatform m (.exception i c info context now) m₁ →
      Run flatPlatform (fun k _ => m.frames.length < k.frames.length) m₁ es m' →
      m'.frames.length = m.frames.length →
        m'.stub.gSystemContext = m.stub.gSystemContext ∧
        m'.stub.gExceptionInfo = m.stub.gExceptionInfo ∧ m'.stub.gRunning = m.stub.gRunning := by
  intro h
  obtain ⟨es₀, hreached⟩ := readStop_reached
  obtain ⟨hcontext, -, -⟩ :=
    h _ _ _ _ _ _ _ _ _ _ _ hreached faultStop_step faultStop_run faultStop_returned
  have hinner : (faultStop.ticks flatPlatform resumeTicks).stub.gSystemContext = 4 := by
    decide +kernel
  have houter : readStop.stub.gSystemContext = 2 := by decide +kernel
  rw [hinner, houter] at hcontext
  exact absurd hcontext (by decide)

theorem nested_stop_returns_fault :
    (faultStop.ticks flatPlatform resumeTicks).stub.gRunning = true ∧
      ((faultStop.ticks flatPlatform resumeTicks).stub.gExceptionInfo,
        (faultStop.ticks flatPlatform resumeTicks).stub.gSystemContext) =
        (tickEvents resumeTicks : List (Event FlatMachine)).foldl Event.entryAfter (3, 4) ∧
      (faultStop.ticks flatPlatform resumeTicks).frames = faultStop.frames.tail :=
  nested_stop_returns flatPlatform faultStop_step faultStop_run faultStop_returned

end Machine
end UefiDebugger
