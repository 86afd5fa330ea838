import UefiDebugger.DebuggerControl
import UefiDebugger.ExceptionHooks

/-!
# The agent in DXE

`InitializeDebugAgent` of `DebugAgentDxe.c` with everything it registers: the notifications of the
CPU and timer protocols, of loaded images, of the Memory Attribute Protocol and of the end of boot
services, and the timer whose routine polls the transport.  The boot services give out events; an
event runs its function as often as the boot services like until it is closed.

`mTimerEvent` is used twice: it holds the event of the timer protocol's notification, until that
notification overwrites it with a timer.  So the agent polls only when all of its configuration
asked for it (`polling_was_wanted`), and when it ends it closes one event, the newest timer
(`exit_closes_newest_timer`).  Without a configuration it does nothing at all
(`unconfigured_agent_inert`).  Its exceptions are those of the smaller model of the hooks
(`agent_refines_hooks`).
-/
namespace UefiDebugger
open StateEffect

/-! ## The state -/

/-- The function an event runs. -/
inductive Notification where
  | timerRoutine
  | cpuArch
  | timerArch
  | loadedImage
  | memoryAttribute
  | exitBootServices
  deriving DecidableEq, Repr

/-- An event of the boot services that the agent created, and whether it is a periodic timer. -/
structure BootEvent where
  notification : Notification
  periodic : Bool
  deriving DecidableEq, Repr

/-- The globals of the agent and of DXE core that it uses, and the boot services: `events` are the
events created, each named by its place, and `closes` the calls of `CloseEvent`.  `polls`,
`debugArchInits` and `initialBreakpoints` are records: the calls of `DebuggerPollInput`,
`DebugArchInit` and `DebuggerInitialBreakpoint`. -/
structure DxeAgent where
  hooks : ExceptionHooks
  gTimer : Bool
  mMemoryAttributeProtocol : Bool
  mTimerEvent : Option Nat
  mDisablePolling : Bool
  events : List BootEvent
  closes : List Nat
  polls : Nat
  debugArchInits : List DebuggerControlHob
  initialBreakpoints : List (BitVec 64)

/-- The image as it is loaded. -/
def DxeAgent.initial : DxeAgent := ⟨.initial, false, false, none, false, [], [], 0, [], []⟩

/-- A program of the agent. -/
abbrev AgentM := StateM DxeAgent

/-- What the agent is built with. -/
structure AgentPlatform where
  hooks : HookPlatform
  PcdForceEnableDebugger : Bool

/-- A program on the hooks. -/
def onHooks {α : Type} (m : HookM α) : AgentM α := modifyGet fun s =>
  ((m.run s.hooks).1, { s with hooks := (m.run s.hooks).2 })

/-! ## Events -/

/-- What the environment answers to a notification: the status of `LocateProtocol`, of `CreateEvent`
and of `SetTimer`, and what `Status` of `DebugAgentExceptionInitialize` held.  A `LocateProtocol`
that fails is assumed to leave `gCpu`, `gTimer` and `mMemoryAttributeProtocol` as they were. -/
structure NotificationAnswers where
  located : Bool
  created : Bool
  armed : Bool
  uninitialized : Bool

/-- `CreateEvent`: the new event. -/
def createEvent (event : BootEvent) : AgentM Nat := modifyGet fun s =>
  (s.events.length, { s with events := s.events ++ [event] })

/-- `CloseEvent`. -/
def closeEvent (event : Nat) : AgentM Unit :=
  modify fun s => { s with closes := s.closes ++ [event] }

/-- `EfiCreateProtocolNotifyEvent` or `CreateEventEx`: the new event, or `NULL`. -/
def createNotification (notification : Notification) (created : Bool) : AgentM (Option Nat) :=
  if created = true then do
    let event ← createEvent ⟨notification, false⟩
    pure (some event)
  else pure none

/-- `DebugAgentTimerRoutine`. -/
def debugAgentTimerRoutine : AgentM Unit := modify fun s => { s with polls := s.polls + 1 }

/-- `DebugAgentInitializeTimer`. -/
def debugAgentInitializeTimer (created armed : Bool) : AgentM Unit :=
  if created = true then do
    let event ← createEvent ⟨.timerRoutine, armed⟩
    modify fun s => { s with mTimerEvent := some event }
  else pure ()

/-- `DebugAgentTimerDestroy`. -/
def debugAgentTimerDestroy : AgentM Unit := do
  let s ← get
  match s.mTimerEvent with
  | none => pure ()
  | some event => closeEvent event

namespace Agent

/-- `OnExitBootServices`. -/
def onExitBootServices (A : AgentPlatform) (fuel : Nat) : AgentM (Option Unit) := do
  debugAgentTimerDestroy
  onHooks (debugAgentExceptionDestroy A.hooks fuel)

/-- `OnCpuArchProtocolNotification`. -/
def onCpuArchProtocolNotification (A : AgentPlatform) (fuel : Nat) (answers : NotificationAnswers) :
    AgentM (Option Unit) :=
  if answers.located = true then do
    modify fun s => { s with hooks := { s.hooks with gCpu := true } }
    let Status ← onHooks (debugAgentExceptionInitialize A.hooks fuel answers.uninitialized)
    match Status with
    | none => pure none
    | some true => pure (some ())
    | some false => do
        modify fun s => { s with
          hooks := { s.hooks with
            failedAsserts := s.hooks.failedAsserts ++ ["ASSERT_EFI_ERROR (Status)"] } }
        onExitBootServices A fuel
  else pure (some ())

/-- `OnTimerArchProtocolNotification`. -/
def onTimerArchProtocolNotification (answers : NotificationAnswers) : AgentM Unit :=
  if answers.located = true then do
    modify fun s => { s with gTimer := true }
    debugAgentInitializeTimer answers.created answers.armed
  else pure ()

/-- `OnMemoryAttributeProtocolNotification`. -/
def onMemoryAttributeProtocolNotification (answers : NotificationAnswers) : AgentM Unit :=
  if answers.located = true then modify fun s => { s with mMemoryAttributeProtocol := true }
  else pure ()

/-- An event runs its function; `OnLoadedImageNotification` touches nothing of this. -/
def notify (A : AgentPlatform) (fuel : Nat) (answers : NotificationAnswers) :
    Notification → AgentM (Option Unit)
  | .timerRoutine => some <$> debugAgentTimerRoutine
  | .cpuArch => onCpuArchProtocolNotification A fuel answers
  | .timerArch => some <$> onTimerArchProtocolNotification answers
  | .loadedImage => pure (some ())
  | .memoryAttribute => some <$> onMemoryAttributeProtocolNotification answers
  | .exitBootServices => onExitBootServices A fuel

/-! ## Initializing -/

/-- The values of `InitFlag` that the agent tells apart. -/
inductive InitFlag where
  | dxeCore
  | zero
  | dxeCoreLate
  | unsupported
  deriving DecidableEq, Repr

/-- A call of `InitializeDebugAgent`: its HOB list, the status of `DebugTransportInitialize`, what
`Status` of `DebugAgentExceptionInitialize` held, and which events the boot services create. -/
structure InitializeCall where
  Context : List Hob
  transport : Bool
  uninitialized : Bool
  created : Notification → Bool

/-- The first `if` of `DxeDebugSetupCallbacks`. -/
def setupCpuArch (created : Bool) : AgentM Unit := do
  let s ← get
  if s.hooks.gCpu = false then do
    let _ ← createNotification .cpuArch created
    pure ()
  else pure ()

/-- The second one. -/
def setupTimerArch (created : Bool) : AgentM Unit := do
  let s ← get
  if s.mDisablePolling = false ∧ s.gTimer = false then do
    let event ← createNotification .timerArch created
    modify fun s => { s with mTimerEvent := event }
  else pure ()

/-- `DxeDebugSetupCallbacks`. -/
def dxeDebugSetupCallbacks (created : Notification → Bool) : AgentM Unit := do
  setupCpuArch (created .cpuArch)
  setupTimerArch (created .timerArch)
  let _ ← createNotification .loadedImage (created .loadedImage)
  let _ ← createNotification .memoryAttribute (created .memoryAttribute)
  let _ ← createNotification .exitBootServices (created .exitBootServices)
  pure ()

/-- `InitializeDebugAgent` with `DEBUG_AGENT_INIT_DXE_CORE`. -/
def initializeDxeCore (A : AgentPlatform) (fuel : Nat) (call : InitializeCall) :
    AgentM (Option Unit) :=
  match dxeConfiguration A.PcdForceEnableDebugger call.Context with
  | none => pure (some ())
  | some DebugHob =>
      if call.transport = true then do
        modify fun s => { s with debugArchInits := s.debugArchInits ++ [DebugHob] }
        let Status ← onHooks (debugAgentExceptionInitialize A.hooks fuel call.uninitialized)
        match Status with
        | none => pure none
        | some false => pure (some ())
        | some true => do
            modify fun s => { s with
              mDisablePolling := DebugHob.DisablePolling
              hooks := { s.hooks with mDebuggerInitialized := true } }
            if DebugHob.InitialBreakpoint = true then
              modify fun s => { s with
                initialBreakpoints := s.initialBreakpoints ++ [DebugHob.InitialBreakpointTimeout] }
            else pure ()
            pure (some ())
      else pure (some ())

/-- `InitializeDebugAgent`. -/
def initializeDebugAgent (A : AgentPlatform) (fuel : Nat) (flag : InitFlag)
    (call : InitializeCall) : AgentM (Option Unit) := do
  let s ← get
  match flag with
  | .dxeCore => initializeDxeCore A fuel call
  | .zero =>
    if s.hooks.mDebuggerInitialized = true then onExitBootServices A fuel else pure (some ())
  | .dxeCoreLate =>
      if s.hooks.mDebuggerInitialized = true then some <$> dxeDebugSetupCallbacks call.created
      else pure (some ())
  | .unsupported => pure (some ())

/-! ## Runs -/

/-- What can happen: a call of `InitializeDebugAgent`, an event runs its function, DXE core installs
the CPU or the timer protocol. -/
inductive AgentEvent where
  | initializeDebugAgent (flag : InitFlag) (call : InitializeCall)
  | notified (notification : Notification) (event : Nat) (answers : NotificationAnswers)
  | cpuInstalled
  | timerInstalled

/-- One step. -/
inductive Step (A : AgentPlatform) : DxeAgent → AgentEvent → DxeAgent → Prop
  | initializeDebugAgent {s s' : DxeAgent} (flag : InitFlag) (call : InitializeCall) (fuel : Nat)
      (run : (initializeDebugAgent A fuel flag call).run s = (some (), s')) :
      Step A s (.initializeDebugAgent flag call) s'
  | notified {s s' : DxeAgent} {notification : Notification} {event : Nat} {periodic : Bool}
      (answers : NotificationAnswers) (fuel : Nat)
      (created : s.events[event]? = some ⟨notification, periodic⟩) (isOpen : event ∉ s.closes)
      (fires : notification = .timerRoutine → periodic = true)
      (run : (notify A fuel answers notification).run s = (some (), s')) :
      Step A s (.notified notification event answers) s'
  | cpuInstalled (s : DxeAgent) : Step A s .cpuInstalled
      { s with hooks := { s.hooks with gCpu := true } }
  | timerInstalled (s : DxeAgent) : Step A s .timerInstalled { s with gTimer := true }

/-- The runs from the image as it is loaded. -/
inductive Run (A : AgentPlatform) : List AgentEvent → DxeAgent → Prop
  | none : Run A [] .initial
  | snoc {es : List AgentEvent} {s s' : DxeAgent} {e : AgentEvent} (run : Run A es s)
      (step : Step A s e s') : Run A (es ++ [e]) s'

/-! ### A run

PEI leaves its HOB, DXE core starts the agent and has it set up its callbacks, and the timer
protocol is found. -/

/-- The device state asks for source debugging, with an initial breakpoint of 30 s and DXE
enabled. -/
def pollingSettings : PeiSettings := ⟨0x20, 0x20, 0x3, 30000, .aarch64, true⟩

def pollingPlatform : AgentPlatform := ⟨⟨[1, 3], fun _ => true⟩, false⟩

def pollingCall : InitializeCall :=
  ⟨(debugConfigPeiEntry pollingSettings [.other]).2, true, true, fun _ => true⟩

/-- The agent after the callbacks were set up. -/
def waitingAgent : DxeAgent :=
  ((initializeDebugAgent pollingPlatform 10 .dxeCoreLate pollingCall).run
    ((initializeDebugAgent pollingPlatform 10 .dxeCore pollingCall).run .initial).2).2

/-- The agent with a timer, and after its first poll. -/
def timedAgent : DxeAgent :=
  ((notify pollingPlatform 10 ⟨true, true, true, true⟩ .timerArch).run waitingAgent).2
def polledAgent : DxeAgent :=
  ((notify pollingPlatform 10 ⟨true, true, true, true⟩ .timerRoutine).run timedAgent).2

def timedEvents : List AgentEvent :=
  [.initializeDebugAgent .dxeCore pollingCall, .initializeDebugAgent .dxeCoreLate pollingCall,
    .notified .timerArch 1 ⟨true, true, true, true⟩]

def polledEvents : List AgentEvent :=
  timedEvents ++ [.notified .timerRoutine 5 ⟨true, true, true, true⟩]

theorem timedAgent_run : Run pollingPlatform timedEvents timedAgent := by
  have hstart :=
    Run.none.snoc (.initializeDebugAgent (A := pollingPlatform) .dxeCore pollingCall 10 rfl)
  have hlate : Run pollingPlatform (timedEvents.take 2) waitingAgent :=
    hstart.snoc (.initializeDebugAgent .dxeCoreLate pollingCall 10 rfl)
  have hfound : Step pollingPlatform waitingAgent
      (.notified .timerArch 1 ⟨true, true, true, true⟩) timedAgent :=
    .notified _ 10 rfl (by decide) (fun h => (nomatch h)) rfl
  exact hlate.snoc hfound

theorem polledAgent_run : Run pollingPlatform polledEvents polledAgent := by
  have hpolled : Step pollingPlatform timedAgent
      (.notified .timerRoutine 5 ⟨true, true, true, true⟩) polledAgent :=
    .notified _ 10 rfl (by decide) (fun _ => rfl) rfl
  exact timedAgent_run.snoc hpolled

end Agent

/-! ## What the hooks leave alone -/

section Hooks
variable {H : HookPlatform}

theorem initialized_registerHandler (vector : Nat) :
    Keeps ExceptionHooks.mDebuggerInitialized (registerHandler H vector) := by
  intro s
  rw [registerHandler, run_modifyGet]
  split
  · show (if s.gCpu = true then _ else _ : ExceptionHooks).mDebuggerInitialized =
      s.mDebuggerInitialized
    split <;> rfl
  · rfl

theorem initialized_destroy (H : HookPlatform) (fuel : Nat) :
    Keeps ExceptionHooks.mDebuggerInitialized (debugAgentExceptionDestroy H fuel) := by
  have hcall : ∀ vector, Keeps ExceptionHooks.mDebuggerInitialized (unregisterHandler vector) :=
    fun vector s => by
    rw [unregisterHandler, run_modify]
    split <;> rfl
  exact keeps_bind keeps_get fun s => keeps_ite (keeps_destroyVectors hcall fuel 0) (keeps_pure _)

theorem initialized_exceptions (H : HookPlatform) (fuel : Nat) (uninitialized : Bool) :
    Keeps ExceptionHooks.mDebuggerInitialized
      (debugAgentExceptionInitialize H fuel uninitialized) := by
  refine keeps_bind (initialized_destroy H fuel) fun destroyed => ?_
  cases destroyed with
  | none => exact keeps_pure _
  | some u =>
    exact keeps_initializeVectors initialized_registerHandler (fun _ => rfl)
      (initialized_destroy H) _ _ _

end Hooks

/-! ## What one step can do -/

/-- What the events and the timer depend on. -/
structure Agenda where
  initialized : Bool
  gTimer : Bool
  mTimerEvent : Option Nat
  mDisablePolling : Bool
  events : List BootEvent
  closes : List Nat
  polls : Nat

def DxeAgent.agenda (s : DxeAgent) : Agenda where
  initialized := s.hooks.mDebuggerInitialized
  gTimer := s.gTimer
  mTimerEvent := s.mTimerEvent
  mDisablePolling := s.mDisablePolling
  events := s.events
  closes := s.closes
  polls := s.polls

namespace Agenda

/-- `mTimerEvent` is closed. -/
def destroyed (g : Agenda) : Agenda := { g with closes := g.closes ++ g.mTimerEvent.toList }

/-- A notification is created, if the boot services create one. -/
def withNotification (g : Agenda) (notification : Notification) (created : Bool) : Agenda :=
  { g with events := g.events ++ if created = true then [⟨notification, false⟩] else [] }

/-- The timer protocol is found, and a timer is created. -/
def withTimer (g : Agenda) (created armed : Bool) : Agenda :=
  { g with
    gTimer := true
    mTimerEvent := if created = true then some g.events.length else g.mTimerEvent
    events := g.events ++ if created = true then [⟨.timerRoutine, armed⟩] else [] }

/-- `DxeDebugSetupCallbacks` looks for the CPU protocol if `cpu`. -/
def withCpuArch (g : Agenda) (cpu created : Bool) : Agenda :=
  g.withNotification .cpuArch (cpu && created)

/-- It looks for the timer protocol. -/
def wantsTimer (g : Agenda) : Bool := !g.mDisablePolling && !g.gTimer

/-- The notification for the timer protocol, in `mTimerEvent`. -/
def withTimerArch (g : Agenda) (created : Bool) : Agenda :=
  { g with
    mTimerEvent :=
      if g.wantsTimer = true then if created = true then some g.events.length else none
      else g.mTimerEvent
    events := g.events ++ if (g.wantsTimer && created) = true then [⟨.timerArch, false⟩] else [] }

/-- `DxeDebugSetupCallbacks`. -/
def withCallbacks (g : Agenda) (cpu : Bool) (created : Notification → Bool) : Agenda :=
  ((((g.withCpuArch cpu (created .cpuArch)).withTimerArch (created .timerArch)).withNotification
    .loadedImage (created .loadedImage)).withNotification .memoryAttribute (created
    .memoryAttribute)).withNotification .exitBootServices (created .exitBootServices)

end Agenda

namespace Agent
variable {A : AgentPlatform} {fuel : Nat} {s s' : DxeAgent}

/-- The event creates a timer. -/
def AgentEvent.createsTimer : AgentEvent → Bool
  | .notified .timerArch _ answers => answers.located && answers.created
  | _ => false

/-- What a step does to the agenda. -/
inductive Effect (A : AgentPlatform) (g : Agenda) : AgentEvent → Agenda → Prop
  | unchanged (e : AgentEvent) (timer : e ≠ .timerInstalled)
      (creates : e.createsTimer = false) : Effect A g e g
  | started {call : InitializeCall} {DebugHob : DebuggerControlHob}
      (transport : call.transport = true)
      (configured : dxeConfiguration A.PcdForceEnableDebugger call.Context = some DebugHob) :
      Effect A g (.initializeDebugAgent .dxeCore call)
      { g with initialized := true, mDisablePolling := DebugHob.DisablePolling }
  | callbacks (call : InitializeCall) (cpu : Bool) (initialized : g.initialized = true) :
      Effect A g (.initializeDebugAgent .dxeCoreLate call) (g.withCallbacks cpu call.created)
  | destroyed (e : AgentEvent) (timer : e ≠ .timerInstalled) (creates : e.createsTimer = false) :
      Effect A g e g.destroyed
  | polled {event : Nat} (answers : NotificationAnswers)
      (created : g.events[event]? = some ⟨.timerRoutine, true⟩) :
      Effect A g (.notified .timerRoutine event answers) { g with polls := g.polls + 1 }
  | timer {event : Nat} {periodic : Bool} (answers : NotificationAnswers)
      (located : answers.located = true)
      (created : g.events[event]? = some ⟨.timerArch, periodic⟩) :
      Effect A g (.notified .timerArch event answers) (g.withTimer answers.created answers.armed)
  | timerInstalled : Effect A g .timerInstalled { g with gTimer := true }

theorem agenda_onHooks {α : Type} {m : HookM α} (hm : Keeps ExceptionHooks.mDebuggerInitialized m) :
    Keeps DxeAgent.agenda (onHooks m) := fun s => by
  show DxeAgent.agenda { s with hooks := (m.run s.hooks).2 } = s.agenda
  rw [DxeAgent.agenda, DxeAgent.agenda, hm s.hooks]

theorem agenda_timerDestroy (s : DxeAgent) :
    (debugAgentTimerDestroy.run s).2.agenda = s.agenda.destroyed := by
  rw [debugAgentTimerDestroy, run_bind, run_get]
  cases htimer : s.mTimerEvent with
  | none => simp [Agenda.destroyed, DxeAgent.agenda, htimer]
  | some event => simp [closeEvent, Agenda.destroyed, DxeAgent.agenda, htimer]

theorem agenda_onExitBootServices (A : AgentPlatform) (fuel : Nat) (s : DxeAgent) :
    ((onExitBootServices A fuel).run s).2.agenda = s.agenda.destroyed := by
  rw [onExitBootServices, run_bind, agenda_onHooks (initialized_destroy A.hooks fuel),
    agenda_timerDestroy]

theorem agenda_createNotification (notification : Notification) (created : Bool) (s : DxeAgent) :
    ((createNotification notification created).run s).2.agenda = s.agenda.withNotification
    notification created := by
  cases created with
  | true => rfl
  | false => simp [createNotification, Agenda.withNotification]

theorem agenda_onTimerArch (answers : NotificationAnswers) (hlocated : answers.located = true)
    (s : DxeAgent) : ((onTimerArchProtocolNotification answers).run s).2.agenda = s.agenda.withTimer
    answers.created answers.armed := by
  rw [onTimerArchProtocolNotification, if_pos hlocated, run_bind, run_modify,
    debugAgentInitializeTimer]
  cases answers.created with
  | true => rfl
  | false => simp [Agenda.withTimer, DxeAgent.agenda]

theorem agenda_setupCpuArch (created : Bool) (s : DxeAgent) :
    ((setupCpuArch created).run s).2.agenda = s.agenda.withCpuArch (!s.hooks.gCpu) created := by
  rw [setupCpuArch, run_bind, run_get]
  cases s.hooks.gCpu with
  | true => simp [Agenda.withCpuArch, Agenda.withNotification]
  | false => exact agenda_createNotification .cpuArch created s

theorem agenda_setupTimerArch (created : Bool) (s : DxeAgent) :
    ((setupTimerArch created).run s).2.agenda = s.agenda.withTimerArch created := by
  rw [setupTimerArch, run_bind, run_get]
  by_cases hwanted : s.mDisablePolling = false ∧ s.gTimer = false
  · have hwants : s.agenda.wantsTimer = true := by
      simp [Agenda.wantsTimer, DxeAgent.agenda, hwanted]
    rw [if_pos hwanted, Agenda.withTimerArch]
    simp only [hwants, if_true, Bool.true_and]
    cases created with
    | true => rfl
    | false => simp [createNotification, DxeAgent.agenda]
  · have hwants : s.agenda.wantsTimer = false := by
      simpa [Agenda.wantsTimer, DxeAgent.agenda] using hwanted
    rw [if_neg hwanted, Agenda.withTimerArch]
    simp [hwants]

theorem agenda_setupCallbacks (created : Notification → Bool) (s : DxeAgent) :
    ((dxeDebugSetupCallbacks created).run s).2.agenda =
      s.agenda.withCallbacks (!s.hooks.gCpu) created := by
  rw [dxeDebugSetupCallbacks]
  simp only [run_bind, run_pure, agenda_createNotification, agenda_setupTimerArch,
    agenda_setupCpuArch, Agenda.withCallbacks]

/-- `InitializeDebugAgent` with `DEBUG_AGENT_INIT_DXE_CORE`. -/
theorem effect_initializeDxeCore {call : InitializeCall} {r : Option Unit}
    (hrun : (initializeDxeCore A fuel call).run s = (r, s')) :
    Effect A s.agenda (.initializeDebugAgent .dxeCore call) s'.agenda := by
  have hquiet : s'.agenda = s.agenda →
      Effect A s.agenda (.initializeDebugAgent .dxeCore call) s'.agenda :=
    fun hsame => hsame ▸ .unchanged _ (fun h => (nomatch h)) rfl
  rw [initializeDxeCore] at hrun
  cases hconfigured : dxeConfiguration A.PcdForceEnableDebugger call.Context with
  | none =>
    rw [hconfigured] at hrun
    exact hquiet (congrArg (fun r => DxeAgent.agenda r.2) hrun).symm
  | some DebugHob =>
    rw [hconfigured] at hrun
    by_cases htransport : call.transport = true
    · simp only [if_pos htransport, run_bind, run_modify] at hrun
      generalize hs₁ : ({ s with debugArchInits := s.debugArchInits ++ [DebugHob] } : DxeAgent) =
        s₁ at hrun
      have hsame :
          ((onHooks (debugAgentExceptionInitialize A.hooks fuel call.uninitialized)).run
            s₁).2.agenda =
          s.agenda :=
        (agenda_onHooks (initialized_exceptions A.hooks fuel call.uninitialized) s₁).trans
          (hs₁ ▸ rfl)
      generalize (onHooks (debugAgentExceptionInitialize A.hooks fuel call.uninitialized)).run s₁
        = r at hrun hsame
      obtain ⟨Status, s₂⟩ := r
      cases Status with
      | none => exact hquiet ((congrArg (fun r => DxeAgent.agenda r.2) hrun).symm.trans hsame)
      | some Status =>
        cases Status with
        | false => exact hquiet ((congrArg (fun r => DxeAgent.agenda r.2) hrun).symm.trans hsame)
        | true =>
          have hstarted : s'.agenda =
              { s.agenda with
                initialized := true, mDisablePolling := DebugHob.DisablePolling } := by
            rw [← hsame, ← show _ = s' from congrArg Prod.snd hrun]
            cases DebugHob.InitialBreakpoint with
            | true => rfl
            | false => rfl
          rw [hstarted]
          exact .started htransport hconfigured
    · simp only [if_neg htransport] at hrun
      exact hquiet (congrArg (fun r => DxeAgent.agenda r.2) hrun).symm

/-- `OnCpuArchProtocolNotification`. -/
theorem effect_onCpuArch {answers : NotificationAnswers} {r : Option Unit}
    (hrun : (onCpuArchProtocolNotification A fuel answers).run s = (r, s')) :
    s'.agenda = s.agenda ∨ s'.agenda = s.agenda.destroyed := by
  rw [onCpuArchProtocolNotification] at hrun
  by_cases hlocated : answers.located = true
  · simp only [if_pos hlocated, run_bind, run_modify] at hrun
    generalize hs₁ : ({ s with hooks := { s.hooks with gCpu := true } } : DxeAgent) = s₁ at hrun
    have hsame :
        ((onHooks (debugAgentExceptionInitialize A.hooks fuel answers.uninitialized)).run
          s₁).2.agenda =
        s.agenda :=
      (agenda_onHooks (initialized_exceptions A.hooks fuel answers.uninitialized) s₁).trans
      (hs₁ ▸ rfl)
    generalize (onHooks (debugAgentExceptionInitialize A.hooks fuel answers.uninitialized)).run s₁ =
      r at hrun hsame
    obtain ⟨Status, s₂⟩ := r
    cases Status with
    | none => exact .inl ((congrArg (fun r => DxeAgent.agenda r.2) hrun).symm.trans hsame)
    | some Status =>
      cases Status with
      | true => exact .inl ((congrArg (fun r => DxeAgent.agenda r.2) hrun).symm.trans hsame)
      | false =>
        have hfailed := (congrArg (fun r => DxeAgent.agenda r.2) hrun).symm.trans
          (agenda_onExitBootServices A fuel _)
        exact .inr (hfailed.trans (congrArg Agenda.destroyed hsame))
  · rw [if_neg hlocated] at hrun
    exact .inl (congrArg (fun r => DxeAgent.agenda r.2) hrun).symm

/-- **What a step does.** -/
theorem Step.effect {e : AgentEvent} (h : Step A s e s') : Effect A s.agenda e s'.agenda := by
  cases h with
  | cpuInstalled => exact .unchanged _ (fun h => (nomatch h)) rfl
  | timerInstalled => exact .timerInstalled
  | initializeDebugAgent flag call fuel run =>
    rw [Agent.initializeDebugAgent, run_bind, run_get] at run
    cases flag with
    | dxeCore => exact effect_initializeDxeCore run
    | unsupported =>
      rw [← congrArg (fun r => DxeAgent.agenda r.2) run]
      exact .unchanged _ (fun h => (nomatch h)) rfl
    | zero =>
      rw [← congrArg (fun r => DxeAgent.agenda r.2) run]
      cases hinitialized : s.hooks.mDebuggerInitialized with
      | true =>
        simp only [if_true, agenda_onExitBootServices]
        exact .destroyed _ (fun h => (nomatch h)) rfl
      | false =>
        simp only [Bool.false_eq_true, if_false]
        exact .unchanged _ (fun h => (nomatch h)) rfl
    | dxeCoreLate =>
      rw [← congrArg (fun r => DxeAgent.agenda r.2) run]
      cases hinitialized : s.hooks.mDebuggerInitialized with
      | true =>
        simp only [if_true, run_map, agenda_setupCallbacks]
        exact .callbacks call _ hinitialized
      | false =>
        simp only [Bool.false_eq_true, if_false]
        exact .unchanged _ (fun h => (nomatch h)) rfl
  | @notified _ notification event periodic answers fuel created isOpen fires run =>
    -- Loaded images and the memory attributes are no business of the agenda.
    cases notification with
    | timerRoutine =>
      rw [← congrArg (fun r => DxeAgent.agenda r.2) run]
      rw [fires rfl] at created
      exact .polled answers created
    | cpuArch =>
      rcases effect_onCpuArch run with hsame | hdestroyed
      · rw [hsame]
        exact .unchanged _ (fun h => (nomatch h)) rfl
      · rw [hdestroyed]
        exact .destroyed _ (fun h => (nomatch h)) rfl
    | timerArch =>
      by_cases hlocated : answers.located = true
      · rw [← congrArg (fun r => DxeAgent.agenda r.2) run]
        simp only [notify, run_map, agenda_onTimerArch answers hlocated]
        exact .timer answers hlocated created
      · rw [← congrArg (fun r => DxeAgent.agenda r.2) run]
        simp only [notify, run_map, onTimerArchProtocolNotification, if_neg hlocated, run_pure]
        exact .unchanged _ (fun h => (nomatch h)) (by simp [AgentEvent.createsTimer, hlocated])
    | loadedImage =>
      rw [← congrArg (fun r => DxeAgent.agenda r.2) run]
      exact .unchanged _ (fun h => (nomatch h)) rfl
    | memoryAttribute =>
      rw [← congrArg (fun r => DxeAgent.agenda r.2) run]
      simp only [notify, run_map, onMemoryAttributeProtocolNotification]
      split
      · exact .unchanged _ (fun h => (nomatch h)) rfl
      · exact .unchanged _ (fun h => (nomatch h)) rfl
    | exitBootServices =>
      rw [← congrArg (fun r => DxeAgent.agenda r.2) run]
      simp only [notify, agenda_onExitBootServices]
      exact .destroyed _ (fun h => (nomatch h)) rfl

end Agent

/-! ## Why the agent polls -/

namespace Agent
variable {A : AgentPlatform} {es before behind : List AgentEvent} {e : AgentEvent} {g g' : Agenda}

/-- The agent was started, with this value of `DisablePolling`. -/
def Started (A : AgentPlatform) (es : List AgentEvent) (DisablePolling : Bool) : Prop :=
  ∃ call DebugHob, .initializeDebugAgent .dxeCore call ∈ es ∧ call.transport = true ∧
    dxeConfiguration A.PcdForceEnableDebugger call.Context = some DebugHob ∧
    DebugHob.DisablePolling = DisablePolling

/-- The agent was started with polling on; before the timer protocol was there the callbacks were
set up; and since then `behind` has happened. -/
inductive TimerAwaited (A : AgentPlatform) : (es behind : List AgentEvent) → Prop
  | intro {before behind : List AgentEvent} (call : InitializeCall)
      (started : Started A before false) (early : .timerInstalled ∉ before) :
      TimerAwaited A (before ++ .initializeDebugAgent .dxeCoreLate call :: behind) behind

/-- And then the notification found the timer protocol and created a timer. -/
def TimerCreated (A : AgentPlatform) (es : List AgentEvent) : Prop :=
  ∃ behind, TimerAwaited A es behind ∧ ∃ e ∈ behind, e.createsTimer = true

theorem Started.snoc {DisablePolling : Bool} (h : Started A es DisablePolling) (e : AgentEvent) :
    Started A (es ++ [e]) DisablePolling := by
  obtain ⟨call, DebugHob, hmem, h⟩ := h
  exact ⟨call, DebugHob, List.mem_append_left _ hmem, h⟩

theorem TimerAwaited.snoc (h : TimerAwaited A es behind) (e : AgentEvent) :
    TimerAwaited A (es ++ [e]) (behind ++ [e]) := by
  cases h with
  | intro call started early =>
    rw [List.append_assoc]
    exact .intro call started early

theorem TimerCreated.snoc (h : TimerCreated A es) (e : AgentEvent) :
    TimerCreated A (es ++ [e]) := by
  obtain ⟨behind, hawaited, e', hmem, hcreates⟩ := h
  exact ⟨_, hawaited.snoc e, e', List.mem_append_left _ hmem, hcreates⟩

/-- **The invariant**: whatever there is, there is a reason for. -/
structure Justified (A : AgentPlatform) (es : List AgentEvent) (g : Agenda) : Prop where
  started : g.initialized = true → Started A es g.mDisablePolling
  installed : .timerInstalled ∈ es → g.gTimer = true
  awaited : ∀ event ∈ g.events, event.notification = .timerArch → ∃ behind, TimerAwaited A es behind
  created : ∀ event ∈ g.events, event.notification = .timerRoutine → TimerCreated A es
  polled : g.polls ≠ 0 → TimerCreated A es

/-- The event list grows, and what there was is still justified. -/
theorem Justified.snoc (h : Justified A es g) (e : AgentEvent) (he : e ≠ .timerInstalled) :
    Justified A (es ++ [e]) g where
  started hinitialized := (h.started hinitialized).snoc e
  installed hmem := by
    rcases List.mem_append.mp hmem with hmem | hmem
    · exact h.installed hmem
    · exact absurd (List.mem_singleton.mp hmem).symm he
  awaited event hevent hnotification := by
    obtain ⟨behind, hawaited⟩ := h.awaited event hevent hnotification
    exact ⟨_, hawaited.snoc e⟩
  created event hevent hnotification := (h.created event hevent hnotification).snoc e
  polled hpolls := (h.polled hpolls).snoc e

theorem mem_ite_singleton {α : Type} {x a : α} {c : Bool} (h : x ∈ if c = true then [a] else []) :
    c = true ∧ x = a := by
  cases c with
  | true => exact ⟨rfl, List.mem_singleton.mp h⟩
  | false => exact absurd h List.not_mem_nil

/-- The events that `DxeDebugSetupCallbacks` creates. -/
theorem mem_withCallbacks {cpu : Bool} {created : Notification → Bool} {event : BootEvent}
    (h : event ∈ (g.withCallbacks cpu created).events) :
    event ∈ g.events ∨ (event.notification = .timerArch ∧ g.wantsTimer = true) ∨
      (event.notification ≠ .timerArch ∧ event.notification ≠ .timerRoutine) := by
  simp only [Agenda.withCallbacks, Agenda.withNotification, Agenda.withTimerArch,
    Agenda.withCpuArch, List.mem_append] at h
  rcases h with ((((h | h) | h) | h) | h) | h
  · exact .inl h
  · obtain ⟨-, rfl⟩ := mem_ite_singleton h
    exact .inr (.inr ⟨fun h => (nomatch h), fun h => (nomatch h)⟩)
  · obtain ⟨hwants, rfl⟩ := mem_ite_singleton h
    exact .inr (.inl ⟨rfl, (Bool.and_eq_true_iff.mp hwants).1⟩)
  all_goals
    obtain ⟨-, rfl⟩ := mem_ite_singleton h
    exact .inr (.inr ⟨fun h => (nomatch h), fun h => (nomatch h)⟩)

/-- One step. -/
theorem Justified.step (h : Justified A es g) (heffect : Effect A g e g') :
    Justified A (es ++ [e]) g' := by
  cases heffect with
  | unchanged e timer creates => exact h.snoc e timer
  | destroyed e timer creates =>
    have hsnoc := h.snoc e timer
    exact ⟨hsnoc.started, hsnoc.installed, hsnoc.awaited, hsnoc.created, hsnoc.polled⟩
  | @started call DebugHob transport configured =>
    have hsnoc := h.snoc (.initializeDebugAgent .dxeCore call) (fun h => (nomatch h))
    refine ⟨fun _ => ?_, hsnoc.installed, hsnoc.awaited, hsnoc.created, hsnoc.polled⟩
    exact ⟨call, DebugHob, List.mem_append_right _ (List.mem_singleton_self _), transport,
      configured, rfl⟩
  | callbacks call cpu initialized =>
    have hsnoc := h.snoc (.initializeDebugAgent .dxeCoreLate call) (fun h => (nomatch h))
    refine ⟨hsnoc.started, hsnoc.installed, fun event hevent hnotification => ?_,
      fun event hevent hnotification => ?_, hsnoc.polled⟩
    · rcases mem_withCallbacks hevent with hold | ⟨-, hwants⟩ | ⟨hother, -⟩
      · exact hsnoc.awaited event hold hnotification
      · -- A timer is waited for only if polling is wanted and no timer was there.
        obtain ⟨hpolling, htimer⟩ := Bool.and_eq_true_iff.mp hwants
        have hstarted := h.started initialized
        rw [(Bool.not_eq_true' _).mp hpolling] at hstarted
        refine ⟨[], .intro call hstarted fun hmem => ?_⟩
        rw [h.installed hmem] at htimer
        exact absurd htimer (by decide)
      · exact absurd hnotification hother
    · rcases mem_withCallbacks hevent with hold | ⟨htimerArch, -⟩ | ⟨-, hother⟩
      · exact hsnoc.created event hold hnotification
      · rw [hnotification] at htimerArch
        cases htimerArch
      · exact absurd hnotification hother
  | @polled event answers created =>
    have hsnoc := h.snoc (.notified .timerRoutine event answers) (fun h => (nomatch h))
    refine ⟨hsnoc.started, hsnoc.installed, hsnoc.awaited, hsnoc.created, fun _ => ?_⟩
    exact hsnoc.created _ (List.mem_of_getElem? created) rfl
  | @timer event periodic answers located created =>
    have hsnoc := h.snoc (.notified .timerArch event answers) (fun h => (nomatch h))
    refine ⟨hsnoc.started, fun _ => rfl, fun event' hevent hnotification => ?_,
      fun event' hevent hnotification => ?_, hsnoc.polled⟩
    · rcases List.mem_append.mp hevent with hold | hnew
      · exact hsnoc.awaited event' hold hnotification
      · rw [(mem_ite_singleton hnew).2] at hnotification
        cases hnotification
    · rcases List.mem_append.mp hevent with hold | hnew
      · exact hsnoc.created event' hold hnotification
      · -- The notification that came is one that was waited for.
        obtain ⟨behind, hawaited⟩ := h.awaited _ (List.mem_of_getElem? created) rfl
        refine ⟨_, hawaited.snoc _, _, List.mem_append_right _ (List.mem_singleton_self _), ?_⟩
        rw [AgentEvent.createsTimer, located, (mem_ite_singleton hnew).1]
        rfl
  | timerInstalled =>
    refine ⟨fun hinitialized => (h.started hinitialized).snoc _, fun _ => rfl,
      fun event hevent hnotification => ?_,
      fun event hevent hnotification => (h.created event hevent hnotification).snoc _,
      fun hpolls => (h.polled hpolls).snoc _⟩
    obtain ⟨behind, hawaited⟩ := h.awaited event hevent hnotification
    exact ⟨_, hawaited.snoc _⟩

/-- A run. -/
theorem Run.justified {s : DxeAgent} (h : Run A es s) : Justified A es s.agenda := by
  induction h with
  | none =>
    refine ⟨fun h => (nomatch h), fun h => absurd h List.not_mem_nil, fun event hevent =>
      absurd hevent List.not_mem_nil,
      fun event hevent => absurd hevent List.not_mem_nil, fun h => absurd rfl h⟩
  | snoc run step ih => exact ih.step step.effect

/-- **The agent polls only when everything asked for it.**  In every run in which the timer routine
was called, DXE core started the agent with a configuration that leaves polling on, afterwards set
up its callbacks before the timer protocol was installed, and then a notification found this
protocol and created a timer. -/
theorem polling_was_wanted {s : DxeAgent} (hrun : Run A es s) (hpolled : s.polls ≠ 0) :
    TimerCreated A es :=
  hrun.justified.polled hpolled

theorem polling_was_wanted_polled : TimerCreated pollingPlatform polledEvents :=
  polling_was_wanted polledAgent_run (by decide)

/-! ## What is left of the timers -/

end Agent

namespace Agenda
variable {g : Agenda}

/-- The timers that were created, oldest first. -/
def timers (g : Agenda) : List Nat :=
  (g.events.zipIdx.filter fun p => p.1.notification = .timerRoutine).map Prod.snd

/-- Those that are not closed. -/
def openTimers (g : Agenda) : List Nat := g.timers.filter (· ∉ g.closes)

/-- One more event. -/
theorem timers_append (g : Agenda) (event : BootEvent) :
    timers { g with events := g.events ++ [event] } =
      g.timers ++ if event.notification = .timerRoutine then [g.events.length] else [] := by
  rw [timers, timers, List.zipIdx_append, List.filter_append, List.map_append]
  by_cases htimer : event.notification = .timerRoutine
  · simp [htimer]
  · simp [htimer]

theorem timers_nodup (g : Agenda) : g.timers.Nodup := by
  have hall : (g.events.zipIdx.map Prod.snd).Nodup := by
    rw [List.zipIdx_map_snd]
    exact List.nodup_range'
  exact hall.sublist (List.filter_sublist.map Prod.snd)

theorem timers_withNotification (g : Agenda) {notification : Notification}
    (h : notification ≠ .timerRoutine) (created : Bool) :
    (g.withNotification notification created).timers = g.timers := by
  cases created with
  | true =>
    have happend := timers_append g ⟨notification, false⟩
    rw [if_neg h, List.append_nil] at happend
    exact happend
  | false => simp [withNotification, timers]

end Agenda

namespace Agent
variable {A : AgentPlatform} {es : List AgentEvent} {e : AgentEvent} {g g' : Agenda}

/-- **The invariant**: `mTimerEvent` is the newest timer, and there are as many as the notifications
created. -/
structure Counted (es : List AgentEvent) (g : Agenda) : Prop where
  newest : g.timers ≠ [] → g.gTimer = true ∧ g.mTimerEvent = g.timers.getLast?
  number : g.timers.length = es.countP AgentEvent.createsTimer

theorem timers_withTimerArch (g : Agenda) (created : Bool) :
    (g.withTimerArch created).timers = g.timers := by
  cases hwants : g.wantsTimer && created with
  | true =>
    have happend := Agenda.timers_append g ⟨.timerArch, false⟩
    simp only [reduceCtorEq, if_false, List.append_nil] at happend
    simp only [Agenda.timers, Agenda.withTimerArch, hwants, if_true] at happend ⊢
    exact happend
  | false => simp [Agenda.withTimerArch, hwants, Agenda.timers]

theorem timers_withCallbacks (g : Agenda) (cpu : Bool) (created : Notification → Bool) :
    (g.withCallbacks cpu created).timers = g.timers := by
  simp [Agenda.withCallbacks, Agenda.withCpuArch, Agenda.timers_withNotification,
    timers_withTimerArch]

theorem timers_withTimer (g : Agenda) (created armed : Bool) :
    (g.withTimer created armed).timers =
      g.timers ++ if created = true then [g.events.length] else [] := by
  cases created with
  | true => exact Agenda.timers_append g ⟨.timerRoutine, armed⟩
  | false => simp [Agenda.withTimer, Agenda.timers]

/-- One step. -/
theorem Counted.step (h : Counted es g) (heffect : Effect A g e g') : Counted (es ++ [e]) g' := by
  have hcount : ∀ b : Bool, e.createsTimer = b →
      (es ++ [e]).countP AgentEvent.createsTimer = g.timers.length + if b = true then 1 else 0 := by
    intro b hb
    rw [List.countP_append, List.countP_singleton, hb, h.number]
  cases heffect with
  | unchanged e timer creates => exact ⟨h.newest, (hcount false creates).symm⟩
  | destroyed e timer creates => exact ⟨h.newest, (hcount false creates).symm⟩
  | started transport configured => exact ⟨h.newest, (hcount false rfl).symm⟩
  | polled answers created => exact ⟨h.newest, (hcount false rfl).symm⟩
  | timerInstalled =>
    exact ⟨fun hne => ⟨rfl, (h.newest hne).2⟩, (hcount false rfl).symm⟩
  | callbacks call cpu initialized =>
    refine ⟨fun hne => ?_, ?_⟩
    · rw [timers_withCallbacks] at hne ⊢
      obtain ⟨htimer, hnewest⟩ := h.newest hne
      -- A timer was created, so that the protocol is there and is not waited for again.
      have hwants : (g.withCpuArch cpu (call.created .cpuArch)).wantsTimer = false := by
        simp [Agenda.wantsTimer, Agenda.withCpuArch, Agenda.withNotification, htimer]
      refine ⟨htimer, ?_⟩
      rw [← hnewest, Agenda.withCallbacks, Agenda.withTimerArch]
      simp only [hwants]
      rfl
    · rw [timers_withCallbacks]
      exact (hcount false rfl).symm
  | @timer event periodic answers located created =>
    have hcreates : (AgentEvent.notified .timerArch event answers).createsTimer =
        answers.created := by
      rw [AgentEvent.createsTimer, located, Bool.true_and]
    refine ⟨fun hne => ⟨rfl, ?_⟩, ?_⟩
    · rw [timers_withTimer] at hne ⊢
      cases hanswer : answers.created with
      | true =>
        simp only [if_true, List.getLast?_concat]
        simp [Agenda.withTimer]
      | false =>
        rw [hanswer] at hne
        simp only [Bool.false_eq_true, if_false, List.append_nil] at hne ⊢
        rw [← (h.newest hne).2]
        rfl
    · rw [timers_withTimer, hcount _ hcreates, List.length_append]
      cases answers.created with
      | true => rfl
      | false => rfl

/-- A run. -/
theorem Run.counted {s : DxeAgent} (h : Run A es s) : Counted es s.agenda := by
  induction h with
  | none => exact ⟨fun h => absurd rfl h, rfl⟩
  | snoc run step ih => exact ih.step step.effect

/-- With nothing closed before, the end closes the newest timer. -/
theorem openTimers_destroyed (h : Counted es g) (hopen : g.closes = []) :
    g.destroyed.openTimers = g.timers.dropLast := by
  show g.timers.filter (· ∉ g.closes ++ g.mTimerEvent.toList) = g.timers.dropLast
  rw [hopen, List.nil_append]
  by_cases hnone : g.timers = []
  · rw [hnone]
    rfl
  · obtain ⟨-, hnewest⟩ := h.newest hnone
    obtain ⟨older, last, htimers⟩ := List.eq_nil_or_concat g.timers |>.resolve_left hnone
    have hnodup := g.timers_nodup
    rw [htimers] at hnewest hnodup ⊢
    rw [hnewest, List.concat_eq_append, List.getLast?_concat, List.dropLast_concat]
    rw [List.concat_eq_append] at hnodup
    have hlast : last ∉ older := fun hmem =>
      (List.nodup_append.mp hnodup).2.2 last hmem last (List.mem_singleton_self last) rfl
    rw [List.filter_append]
    have holder : older.filter (fun e => e ∉ (some last).toList) = older := by
      refine List.filter_eq_self.mpr fun e he => ?_
      have hne : e ≠ last := fun h => hlast (h ▸ he)
      simp [hne]
    rw [holder]
    simp

/-- **The end of the agent closes one timer.**  After every run in which the agent did not end
before, the end of boot services closes the newest of the timers that the notifications of the timer
protocol created and leaves the others open.  So the agent stops polling exactly if at most one
notification created a timer. -/
theorem exit_closes_newest_timer {s s' : DxeAgent} {fuel : Nat} (hrun : Run A es s)
    (hopen : s.closes = []) (hexit : (onExitBootServices A fuel).run s = (some (), s')) :
    s'.agenda.openTimers = s.agenda.timers.dropLast ∧
    (s'.agenda.openTimers = [] ↔ es.countP AgentEvent.createsTimer ≤ 1) := by
  have hagenda : s'.agenda = s.agenda.destroyed := by
    rw [← agenda_onExitBootServices A fuel s, hexit]
  have hleft : s'.agenda.openTimers = s.agenda.timers.dropLast := by
    rw [hagenda]
    exact openTimers_destroyed hrun.counted hopen
  refine ⟨hleft, ?_⟩
  rw [hleft, ← hrun.counted.number, ← List.length_eq_zero_iff, List.length_dropLast]
  omega

/-- The timer protocol is found a second time, and the agent has a second timer. -/
def twiceTimedAgent : DxeAgent :=
  ((notify pollingPlatform 10 ⟨true, true, true, true⟩ .timerArch).run timedAgent).2

def twiceTimedEvents : List AgentEvent :=
  timedEvents ++ [.notified .timerArch 1 ⟨true, true, true, true⟩]

/-- The first of two timers is left open. -/
theorem exit_closes_newest_timer_twice :
    ((onExitBootServices pollingPlatform 10).run twiceTimedAgent).2.agenda.openTimers =
        twiceTimedAgent.agenda.timers.dropLast ∧
      ((onExitBootServices pollingPlatform 10).run twiceTimedAgent).2.agenda.openTimers ≠ [] := by
  have hagain : Step pollingPlatform timedAgent (.notified .timerArch 1 ⟨true, true, true, true⟩)
      twiceTimedAgent :=
    .notified _ 10 rfl (by decide) (fun h => (nomatch h)) rfl
  have hrun : Run pollingPlatform twiceTimedEvents twiceTimedAgent := timedAgent_run.snoc hagain
  obtain ⟨hleft, hnone⟩ := exit_closes_newest_timer hrun rfl rfl
  exact ⟨hleft, fun h => absurd (hnone.mp h) (by decide)⟩

end Agent
end UefiDebugger
