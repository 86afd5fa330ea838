import UefiDebugger.CommandOutcome
import UefiDebugger.StopLoop

/-!
# Interrupted commands

A command raises an exception in one of its calls of the platform.  `LeftOver` lists what each call
leaves to be done; `CodeStep` is a step of the machine in which commands are interrupted nowhere
else, and `CodeRun` a run of such steps.  Whatever is left of a command, it comes to one of the
outcomes of a command, from any state: the stop inside it may have used the buffers.
-/
namespace UefiDebugger
open HexText ByteString StateEffect

variable {σ : Type}

/-! ## Calls of the platform -/

/-- The calls a command makes of the platform. -/
inductive PlatformCall (P : Platform σ) : {α : Type} → StubM σ α → Prop
  | read (site : AccessSite)
      (Address Length : Nat) : PlatformCall P (dbgReadMemory P site Address Length)
  | write (site : AccessSite) (Address : Nat) (Data : List UInt8) :
      PlatformCall P (dbgWriteMemory P site Address Data)
  | watchpoint (Remove : Bool) (Address Length : Nat) (Read Write : Bool) :
      PlatformCall P (changeWatchpoint P Remove Address Length Read Write)
  | dump (Argument : List UInt8) : PlatformCall P (modifyGet fun s : Stub σ =>
      ((P.gdbDumpSystemRegisters Argument s.target).1,
        { s with target := (P.gdbDumpSystemRegisters Argument s.target).2 }))
  | msr (Argument : List UInt8) : PlatformCall P (modifyGet fun s : Stub σ =>
      ((P.gdbReadMsr Argument s.target).1, { s with target := (P.gdbReadMsr Argument s.target).2 }))
  | breakOnLoad (Argument : List UInt8) : PlatformCall P (modifyGet fun s : Stub σ =>
      ((P.dbgSetBreakOnModuleLoad Argument s.target).1,
        { s with target := (P.dbgSetBreakOnModuleLoad Argument s.target).2 }))
  | singleStep : PlatformCall P (addSingleStep P)
  | reboot : PlatformCall P (debugReboot P)

/-- The platform does not send. -/
theorem PlatformCall.spoken {P : Platform σ} {α : Type} {call : StubM σ α}
    (h : PlatformCall P call) : Keeps Stub.spoken call := by
  cases h with
  | read => exact keeps_modifyGet fun _ => rfl
  | write => exact keeps_modifyGet fun _ => rfl
  | watchpoint => exact keeps_modifyGet fun _ => rfl
  | dump => exact keeps_modifyGet fun _ => rfl
  | msr => exact keeps_modifyGet fun _ => rfl
  | breakOnLoad => exact keeps_modifyGet fun _ => rfl
  | singleStep => exact keeps_modify fun _ => rfl
  | reboot => exact keeps_modifyGet fun _ => rfl

/-! ## What a call leaves to be done -/

/-- The loop of an `M` command behind a write of a chunk. -/
def memoryWriteLoopOn (P : Platform σ) (ok : Bool) (fuel Address Length ValueString : Nat) :
    StubM σ Bool :=
  if ok = true then
    memoryWriteLoop P fuel ((Address + min Length scratchSize) % 2 ^ 64)
    (Length - min Length scratchSize) ValueString
  else do
    sendGdbError gdbErrorBadMemAddress
    pure false

/-- An `M` command behind a write of a chunk. -/
def memoryWritten (P : Platform σ) (ok : Bool) (fuel Address Length ValueString : Nat) :
    StubM σ Unit := do
  let done ← memoryWriteLoopOn P ok fuel Address Length ValueString
  if done = true then sendGdbResponse (.text (text "OK"))
  else pure ()

/-- The loop of an `m` command behind a read of a chunk. -/
def memoryReadLoopOn (P : Platform σ) (ok : Bool) (fuel Address Length RespIndex : Nat) :
    StubM σ (Option Nat) :=
  if ok = true then do
    let RespIndex ← encodeRange Length 0 RespIndex
    memoryReadLoop P fuel ((Address + min Length scratchSize) % 2 ^ 64)
      (Length - min Length scratchSize) RespIndex
  else do
    sendGdbError gdbErrorBadMemAddress
    pure none

/-- An `m` command behind a read of a chunk. -/
def memoryWasRead (P : Platform σ) (ok : Bool) (Data : List UInt8)
    (fuel Address Length RespIndex : Nat) :
    StubM σ Unit := do
  storeScratch Data
  let done ← memoryReadLoopOn P ok fuel Address Length RespIndex
  match done with
  | some RespIndex => do
      writeResponse RespIndex 0
      sendGdbResponse .mResponse
  | none => pure ()

/-- What a request to break on a module load prints. -/
def printModuleBreak (P : Platform σ) (ok : Bool) (Argument : List UInt8) : StubM σ Unit :=
  if ok = true then asciiSPrintScratch P "Will break on load for %a\n\r" [.text Argument]
  else asciiSPrintScratch P "FAILED to set break on load for %a\n\r" [.text Argument]

/-- A monitor command behind such a request. -/
def moduleBreakSet (P : Platform σ) (ok : Bool) (Argument : List UInt8) : StubM σ Unit := do
  printModuleBreak P ok Argument
  finishMonitor

/-- What is left of a command that was interrupted at a call of the platform, before or behind it.
Of a `short` read everything is left but the read. -/
inductive LeftOver (P : Platform σ) (short : Prop) : StubM σ Unit → Prop
  | call {α : Type} {call : StubM σ α} {rest : α → StubM σ Unit} (platform : PlatformCall P call)
      (behind : ∀ a, LeftOver P short (rest a)) : LeftOver P short (call >>= rest)
  | written (ok : Bool) (fuel Address Length ValueString : Nat) :
      LeftOver P short (memoryWritten P ok fuel Address Length ValueString)
  | wasRead (ok : Bool) (Data : List UInt8) (fuel Address Length RespIndex : Nat)
      (first : short → RespIndex = 0 ∧ Length ≤ scratchSize) :
      LeftOver P short (memoryWasRead P ok Data fuel Address Length RespIndex)
  | saved (Entry : Fin maxBreakpoints) (e : BreakpointInfo) {rest : StubM σ Unit}
      (behind : LeftOver P short rest) : LeftOver P short (setBreakpoint Entry e >>= fun _ => rest)
  | changed (Result : Bool) : LeftOver P short (sendBreakpointResult Result)
  | printed (Text : List UInt8) :
    LeftOver P short (printScratch Text >>= fun _ => finishMonitor)
  | moduleBreak (ok : Bool) (Argument : List UInt8) :
    LeftOver P short (moduleBreakSet P ok Argument)
  | stepping : LeftOver P short setRunning
  | rebootFailed : LeftOver P short (sendGdbError gdbErrorUnsupported)

section LeftOver
variable {P : Platform σ} {short : Prop} {pre : Stub σ → Prop}

theorem memoryWritten_answers (ok : Bool) (fuel a l v : Nat) :
    Answers pre (ReplyText P short) (memoryWritten P ok fuel a l v) := by
  have hloop : MayAnswer pre (fun done _ => done = true) (fun done => done = false)
      (ReplyText P short) (memoryWriteLoopOn P ok fuel a l v) :=
    mayAnswer_ite (fun _ s _ => memoryWriteLoop_mayAnswer fuel _ _ _ s trivial) fun _ =>
      mayAnswer_stop (answers_error (by decide)) rfl
  refine answers_loop hloop (fun done => ?_) fun done hdone => ?_
  · intro s hdone
    rw [if_pos hdone]
    exact sent_text (.fixed (by decide)) s
  · rw [if_neg (by simp [hdone])]
    exact keeps_pure _

/-- What was in the response before the exception does not matter for a short read: nothing was. -/
theorem memoryWasRead_answers (ok : Bool) (Data : List UInt8) (fuel a l r : Nat)
    (hfirst : short → r = 0 ∧ l ≤ scratchSize) :
    Answers pre (ReplyText P short) (memoryWasRead P ok Data fuel a l r) := by
  have hwritten : ∀ s : Stub σ, Written (hexIf short) r s := fun s j hj hshort => by
    rw [(hfirst hshort).1] at hj
    exact absurd hj (Nat.not_lt_zero j)
  have hloop : MayAnswer anyState
      (fun done s =>
        ∃ r', done = some r' ∧ Written (hexIf short) r' s ∧ (short → r' ≤ 2 * scratchSize))
      (fun done => done = none) (ReplyText P short) (memoryReadLoopOn P ok fuel a l r) := by
    refine mayAnswer_ite (fun _ => ?_) fun _ => mayAnswer_stop (answers_error (by decide)) rfl
    have hencode : Ensures anyState (encodeRange l 0 r : StubM σ Nat)
        fun r' s => Written (hexIf short) r' s ∧ r' = r + 2 * l := fun s _ =>
      encodeRange_written l 0 r s (hwritten s)
    refine mayAnswer_bind (voice_encodeRange l 0 r) hencode fun r' => ?_
    rintro s ⟨hs, hr'⟩
    rcases memoryReadLoop_mayAnswer fuel ((a + min l scratchSize) % 2 ^ 64)
        (l - min l scratchSize) r' s hs with
      ⟨⟨r'', hdone, hread, hbound⟩, hvoice⟩ | hstop
    · refine Or.inl ⟨⟨r'', hdone, hread, fun hshort => ?_⟩, hvoice⟩
      obtain ⟨hr, hl⟩ := hfirst hshort
      have hrest := hbound (by omega)
      rw [Nat.min_eq_left hl] at hrest
      omega
    · exact Or.inr hstop
  refine answers_then (keeps_modify fun _ => rfl) fun _ => answers_loop hloop (fun done => ?_)
    fun done hdone => ?_
  · rintro s ⟨r', rfl, hread, hbound⟩
    exact memory_answers hbound s hread
  · subst hdone
    exact keeps_pure _

/-- **What is left of a command comes to an outcome of a command**, from any state. -/
theorem LeftOver.comes {m : StubM σ Unit} (h : LeftOver P short m) : Comes P short anyState m := by
  induction h with
  | call platform behind ih => exact comes_then platform.spoken ih
  | written ok fuel a l v => exact (memoryWritten_answers ok fuel a l v).comes
  | wasRead ok Data fuel a l r first => exact (memoryWasRead_answers ok Data fuel a l r first).comes
  | saved Entry e behind ih => exact comes_then (keeps_modify fun _ => rfl) fun _ => ih
  | changed Result => exact (sendBreakpointResult_answers Result).comes
  | printed Text => exact comes_then (spoken_printScratch Text) fun _ =>
      finishMonitor_consoles.comes
  | moduleBreak ok Argument =>
    have hprint : Keeps Stub.spoken (printModuleBreak P ok Argument) :=
      keeps_ite (spoken_printScratch _) (spoken_printScratch _)
    exact comes_then hprint fun _ => finishMonitor_consoles.comes
  | stepping => exact setRunning_comes
  | rebootFailed => exact comes_error (by decide)

end LeftOver

/-! ## Runs of the code -/

/-- A program of the code: a whole command, or what is left of an interrupted one. -/
inductive Coded (P : Platform σ) (short : Prop) : StubM σ Unit → Prop
  | whole (GdbCommand GdbCommandLength : Nat) : Coded P short
      (executeGdbCommand P GdbCommand GdbCommandLength)
  | left {m : StubM σ Unit} (left : LeftOver P short m) : Coded P short m

/-- Run to its end, it comes to an outcome of a command. -/
theorem Coded.result {P : Platform σ} {short : Prop} {m : StubM σ Unit} (h : Coded P short m)
    {s : Stub σ} (hshort : ∀ i n, m = executeGdbCommand P i n → short → ShortRequest P i n s) :
    CommandResult P short s (m.run s).2 := by
  cases h with
  | whole i n => exact executeGdbCommand_comes i n s (hshort i n rfl)
  | left left => exact left.comes s trivial

namespace Machine

/-- A step of the machine in which a command is interrupted at a call of the platform, before it
sent anything. -/
inductive CodeStep (P : Platform σ) (short : Prop) : Machine σ → Event σ → Machine σ → Prop
  | plain {m m' : Machine σ} {e : Event σ} (step : Step P m e m')
      (whole : m.frames = [] ∨ ∃ now arrived, e = .tick now arrived) : CodeStep P short m e m'
  | interrupted (m : Machine σ) (i c : Nat) (info : ExceptionInfo) (context : Context) (now : Nat)
      {α : Type} {f : Frame σ} {fs : List (Frame σ)} {rest : Remainder σ} (before : StubM σ α)
      (after : α → Remainder σ) (stopped : m.frames = f :: fs) (executing : f.point = .execute rest)
      (cut : rest.program = before >>= fun a => (after a).program) (kept : Keeps Stub.links before)
      (quiet : Keeps Stub.voice before) (behind : ∀ a, LeftOver P short (after a).program)
      (alive : (before.run m.stub).2.halted = false) :
      CodeStep P short m (.exception i c info context now)
        ({ m with stub := (before.run m.stub).2 }.goto f fs
          (.execute (after (before.run m.stub).1)) |>.enter i c info context now)

/-- It is a step of the machine. -/
theorem CodeStep.step {P : Platform σ} {short : Prop} {m m' : Machine σ} {e : Event σ}
    (h : CodeStep P short m e m') : Step P m e m' := by
  cases h with
  | plain step whole => exact step
  | interrupted i c info context now before after stopped executing cut kept quiet behind alive =>
    exact .nested m i c info context now before after stopped executing cut kept alive

/-- A run of the code through machines that are all `Allowed`. -/
inductive CodeRun (P : Platform σ) (short : Prop) (Allowed : Machine σ → Prop) :
    Machine σ → List (Event σ) → Machine σ → Prop
  | none (m : Machine σ) : CodeRun P short Allowed m [] m
  | snoc {m m₁ m₂ : Machine σ} {es : List (Event σ)} {e : Event σ}
      (run : CodeRun P short Allowed m es m₁) (allowed : Allowed m₁)
      (step : CodeStep P short m₁ e m₂) : CodeRun P short Allowed m (es ++ [e]) m₂

/-- What every step keeps, every run keeps. -/
theorem CodeRun.invariant {P : Platform σ} {short : Prop} {Allowed Inv : Machine σ → Prop}
    (hstep : ∀ {m m' : Machine σ} {e : Event σ}, Allowed m → CodeStep P short m e m' →
      Inv m → Inv m')
    {m m' : Machine σ} {es : List (Event σ)} (h : CodeRun P short Allowed m es m') (hm : Inv m) :
    Inv m' := by
  induction h with
  | none => exact hm
  | snoc run allowed step ih => exact hstep allowed step ih

/-- The innermost activation is not about to execute a read of more than `SCRATCH_SIZE` bytes. -/
def ShortReads (P : Platform σ) (m : Machine σ) : Prop :=
  ∀ f fs rest i n, m.frames = f :: fs → f.point = .execute rest →
  rest.program = executeGdbCommand P i n → ShortRequest P i n m.stub

/-- The innermost activation is not about to execute a command. -/
def reading (m : Machine σ) : Bool :=
  match m.frames with
  | ⟨_, .execute _⟩ :: _ => false
  | _ => true

theorem shortReads_of_reading {P : Platform σ} {m : Machine σ} (h : m.reading = true) :
    ShortReads P m := by
  intro f fs rest i n hframes hpoint
  obtain ⟨T, point⟩ := f
  obtain rfl : point = .execute rest := hpoint
  rw [reading, hframes] at h
  cases h

theorem CodeRun.ticks {P : Platform σ} {short : Prop} {Allowed : Machine σ → Prop}
    {test : Machine σ → Bool} (htest : ∀ k, test k = true → Allowed k) {m₀ : Machine σ} :
    ∀ (ts : List (Nat × List UInt8)) (es : List (Event σ)) (m : Machine σ),
    CodeRun P short Allowed m₀ es m → m.ticksPass P test ts = true →
    CodeRun P short Allowed m₀ (es ++ tickEvents ts) (m.ticks P ts)
  | [], es, m, hrun, _ => by
      rw [tickEvents, List.map_nil, List.append_nil]
      exact hrun
  | t :: ts, es, m, hrun, hpass => by
      obtain ⟨hfirst, hrest⟩ := Bool.and_eq_true_iff.mp hpass
      have hnext := hrun.snoc (htest m hfirst) (.plain (.tick m t.1 t.2) (Or.inr ⟨t.1, t.2, rfl⟩))
      have hall := CodeRun.ticks htest ts _ _ hnext hrest
      rwa [List.append_assoc] at hall

/-- The ticks in which a packet of `n` bytes is read, up to the call of its command. -/
def readTicks (packet : List UInt8) : List (Nat × List UInt8) :=
  (0, packet) :: List.replicate (2 * packet.length) (0, [])

end Machine
end UefiDebugger
