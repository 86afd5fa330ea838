import UefiDebugger.DxeAgent

/-!
# What the agent was told

The agent of DXE behind the PEI module that configures it.  Without a configuration it does nothing
at all; with one, everything it did is what that configuration says (`agent_obeys_settings`).  What
it does to the exceptions is what the smaller model of the hooks does (`agent_refines_hooks`), so
that what is known of the hooks holds of the agent.
-/
namespace UefiDebugger
open StateEffect

namespace Agent
variable {A : AgentPlatform} {es : List AgentEvent} {e : AgentEvent}

/-- The agent has done nothing; DXE core may have installed the two protocols. -/
def Inert (s : DxeAgent) : Prop :=
  s = { DxeAgent.initial with
    gTimer := s.gTimer
    hooks := { ExceptionHooks.initial with gCpu := s.hooks.gCpu } }

/-- No call of the list can start the agent. -/
def NeverStarted (A : AgentPlatform) (es : List AgentEvent) : Prop :=
  ∀ call, .initializeDebugAgent .dxeCore call ∈ es →
    dxeConfiguration A.PcdForceEnableDebugger call.Context = none ∨ call.transport = false

theorem Inert.step {s s' : DxeAgent} {e : AgentEvent} (h : Inert s) (hstep : Step A s e s')
    (hnever : ∀ call, e = .initializeDebugAgent .dxeCore call →
      dxeConfiguration A.PcdForceEnableDebugger call.Context = none ∨ call.transport = false) :
    Inert s' := by
  have hidle : s' = s → Inert s' := fun hsame => hsame ▸ h
  have hinitialized : s.hooks.mDebuggerInitialized = false := by
    rw [Inert] at h
    rw [h]
    rfl
  cases hstep with
  | cpuInstalled =>
    rw [Inert] at h ⊢
    rw [h]
  | timerInstalled =>
    rw [Inert] at h ⊢
    rw [h]
  | notified answers fuel created isOpen fires run =>
    rw [Inert] at h
    rw [h] at created
    cases created
  | initializeDebugAgent flag call fuel run =>
    rw [Agent.initializeDebugAgent, run_bind, run_get] at run
    cases flag with
    | unsupported => exact hidle (congrArg Prod.snd run).symm
    | zero =>
      simp only [hinitialized, Bool.false_eq_true, if_false] at run
      exact hidle (congrArg Prod.snd run).symm
    | dxeCoreLate =>
      simp only [hinitialized, Bool.false_eq_true, if_false] at run
      exact hidle (congrArg Prod.snd run).symm
    | dxeCore =>
      have hidles : (initializeDxeCore A fuel call).run s = (some (), s) := by
        rw [initializeDxeCore]
        rcases hnever call rfl with hnone | htransport
        · rw [hnone]
          rfl
        · cases dxeConfiguration A.PcdForceEnableDebugger call.Context with
          | none => rfl
          | some DebugHob =>
            simp only [htransport, Bool.false_eq_true, if_false]
            rfl
      exact hidle (congrArg Prod.snd (run.symm.trans hidles))

/-- Without a configuration there is no agent. -/
theorem Run.inert {s : DxeAgent} (h : Run A es s) (hnever : NeverStarted A es) : Inert s := by
  induction h with
  | none => rfl
  | snoc run step ih =>
    refine (ih fun call hmem => hnever call (List.mem_append_left _ hmem)).step step
      fun call hcall => ?_
    exact hnever call (List.mem_append_right _ (List.mem_singleton.mpr hcall.symm))

/-- The records of `DebugArchInit` and `DebuggerInitialBreakpoint`. -/
def records (s : DxeAgent) : List DebuggerControlHob × List (BitVec 64) :=
  (s.debugArchInits, s.initialBreakpoints)

theorem records_onHooks {α : Type} (m : HookM α) : Keeps records (onHooks m) := fun _ => rfl

theorem records_createNotification (notification : Notification) (created : Bool) :
    Keeps records (createNotification notification created) :=
  keeps_ite (keeps_bind (fun _ => rfl) fun _ => keeps_pure _) (keeps_pure _)

theorem records_onExitBootServices (A : AgentPlatform) (fuel : Nat) :
    Keeps records (onExitBootServices A fuel) := by
  refine keeps_bind (keeps_bind keeps_get fun s => ?_) fun _ => records_onHooks _
  cases s.mTimerEvent with
  | none => exact keeps_pure _
  | some event => exact fun _ => rfl

theorem records_notify (A : AgentPlatform) (fuel : Nat) (answers : NotificationAnswers)
    (notification : Notification) :
    Keeps records (notify A fuel answers notification) := by
  cases notification with
  | timerRoutine => exact fun _ => rfl
  | loadedImage => exact keeps_pure _
  | exitBootServices => exact records_onExitBootServices A fuel
  | memoryAttribute =>
    have hmodify : Keeps records (onMemoryAttributeProtocolNotification answers) :=
      keeps_ite (fun _ => rfl) (keeps_pure _)
    exact fun s => hmodify s
  | timerArch =>
    have htimer : Keeps records (onTimerArchProtocolNotification answers) :=
      keeps_ite (keeps_bind (fun _ => rfl) fun _ =>
        keeps_ite (keeps_bind (fun _ => rfl) fun _ => fun _ => rfl) (keeps_pure _)) (keeps_pure _)
    exact fun s => htimer s
  | cpuArch =>
    refine keeps_ite (keeps_bind (fun _ => rfl) fun _ => keeps_bind (records_onHooks _)
      fun Status => ?_) (keeps_pure _)
    cases Status with
    | none => exact keeps_pure _
    | some Status =>
      cases Status with
      | true => exact keeps_pure _
      | false => exact keeps_bind (fun _ => rfl) fun _ => records_onExitBootServices A fuel

theorem records_setupCallbacks (created : Notification → Bool) :
    Keeps records (dxeDebugSetupCallbacks created) := by
  have hcpu : ∀ b, Keeps records (setupCpuArch b) := fun b => keeps_bind keeps_get fun _ =>
    keeps_ite (keeps_bind (records_createNotification _ _) fun _ => keeps_pure _) (keeps_pure _)
  have htimer : ∀ b, Keeps records (setupTimerArch b) := fun b => keeps_bind keeps_get fun _ =>
    keeps_ite (keeps_bind (records_createNotification _ _) fun _ => fun _ => rfl) (keeps_pure _)
  exact keeps_bind (hcpu _) fun _ => keeps_bind (htimer _) fun _ =>
    keeps_bind (records_createNotification _ _) fun _ =>
    keeps_bind (records_createNotification _ _) fun _ =>
      keeps_bind (records_createNotification _ _) fun _ => keeps_pure _

/-- The configuration that an event sets the processor up with. -/
def AgentEvent.configuration (A : AgentPlatform) : AgentEvent → Option DebuggerControlHob
  | .initializeDebugAgent .dxeCore call =>
      if call.transport = true then dxeConfiguration A.PcdForceEnableDebugger call.Context else none
  | _ => none

/-- What the records hold after the calls `es`. -/
structure Told (A : AgentPlatform) (es : List AgentEvent) (s : DxeAgent) : Prop where
  inits : s.debugArchInits = es.filterMap (AgentEvent.configuration A)
  breakpoints : ∀ t ∈ s.initialBreakpoints, ∃ call h, .initializeDebugAgent .dxeCore call ∈ es ∧
    dxeConfiguration A.PcdForceEnableDebugger call.Context = some h ∧ h.InitialBreakpoint = true ∧
      t = h.InitialBreakpointTimeout

theorem Told.snoc {s s' : DxeAgent} (h : Told A es s) (hnone : e.configuration A = none)
    (hsame : records s' = records s) : Told A (es ++ [e]) s' := by
  refine ⟨?_, fun t hmem => ?_⟩
  · rw [List.filterMap_append, List.filterMap_cons_none hnone, List.filterMap_nil,
      List.append_nil, ← h.inits]
    exact congrArg Prod.fst hsame
  · rw [show s'.initialBreakpoints = s.initialBreakpoints from congrArg Prod.snd hsame] at hmem
    obtain ⟨call, hob, hcall, hrest⟩ := h.breakpoints t hmem
    exact ⟨call, hob, List.mem_append_left _ hcall, hrest⟩

/-- `InitializeDebugAgent` with `DEBUG_AGENT_INIT_DXE_CORE`: what it adds to the records.  The
processor is set up before anything that can fail. -/
theorem records_initializeDxeCore (A : AgentPlatform) (fuel : Nat) (call : InitializeCall)
    (s : DxeAgent) : ((initializeDxeCore A fuel call).run s).2.debugArchInits = s.debugArchInits ++
    ((AgentEvent.initializeDebugAgent .dxeCore call).configuration A).toList ∧
      (((initializeDxeCore A fuel call).run s).2.initialBreakpoints = s.initialBreakpoints ∨
        ∃ h, dxeConfiguration A.PcdForceEnableDebugger call.Context = some h ∧
        h.InitialBreakpoint = true ∧
          ((initializeDxeCore A fuel call).run s).2.initialBreakpoints =
            s.initialBreakpoints ++ [h.InitialBreakpointTimeout]) := by
  rw [initializeDxeCore, AgentEvent.configuration]
  cases dxeConfiguration A.PcdForceEnableDebugger call.Context with
  | none =>
    rw [ite_self]
    exact ⟨(List.append_nil _).symm, .inl rfl⟩
  | some DebugHob =>
    by_cases htransport : call.transport = true
    · simp only [if_pos htransport, run_bind, run_modify, Option.toList_some]
      generalize hs₁ : ({ s with debugArchInits := s.debugArchInits ++ [DebugHob] } : DxeAgent) = s₁
      have hsame :=
        records_onHooks (debugAgentExceptionInitialize A.hooks fuel call.uninitialized) s₁
      generalize (onHooks (debugAgentExceptionInitialize A.hooks fuel call.uninitialized)).run s₁ =
        r at hsame ⊢
      obtain ⟨Status, s₂⟩ := r
      have hinits : s₂.debugArchInits = s.debugArchInits ++ [DebugHob] :=
        (congrArg Prod.fst hsame).trans (hs₁ ▸ rfl)
      have hbreakpoints : s₂.initialBreakpoints = s.initialBreakpoints :=
        (congrArg Prod.snd hsame).trans (hs₁ ▸ rfl)
      cases Status with
      | none => exact ⟨hinits, .inl hbreakpoints⟩
      | some Status =>
        cases Status with
        | false => exact ⟨hinits, .inl hbreakpoints⟩
        | true =>
          cases hbreak : DebugHob.InitialBreakpoint with
          | false =>
            simp only
            exact ⟨hinits, .inl hbreakpoints⟩
          | true =>
            simp only
            exact ⟨hinits, .inr ⟨DebugHob, rfl, hbreak, hbreakpoints ▸ rfl⟩⟩
    · simp only [if_neg htransport]
      exact ⟨(List.append_nil _).symm, .inl rfl⟩

theorem Told.step {s s' : DxeAgent} (h : Told A es s) (hstep : Step A s e s') :
    Told A (es ++ [e]) s' := by
  cases hstep with
  | cpuInstalled => exact h.snoc rfl rfl
  | timerInstalled => exact h.snoc rfl rfl
  | notified answers fuel created isOpen fires run =>
    exact h.snoc rfl (by rw [← records_notify A fuel answers _ s, run])
  | initializeDebugAgent flag call fuel run =>
    rw [Agent.initializeDebugAgent, run_bind, run_get] at run
    obtain rfl : _ = s' := congrArg Prod.snd run
    cases flag with
    | unsupported => exact h.snoc rfl rfl
    | zero =>
      have hkeeps : Keeps records
          (if s.hooks.mDebuggerInitialized = true then onExitBootServices A fuel
          else pure (some ())) := keeps_ite (records_onExitBootServices A fuel) (keeps_pure _)
      exact h.snoc rfl (hkeeps s)
    | dxeCoreLate =>
      have hkeeps : Keeps records (if s.hooks.mDebuggerInitialized = true then
          some <$> dxeDebugSetupCallbacks call.created else pure (some ())) :=
        keeps_ite (fun s => records_setupCallbacks call.created s) (keeps_pure _)
      exact h.snoc rfl (hkeeps s)
    | dxeCore =>
      -- Only this call sets up the processor or asks for a breakpoint.
      obtain ⟨hinits, hbreakpoints⟩ := records_initializeDxeCore A fuel call s
      refine ⟨?_, fun t hmem => ?_⟩
      · have hsingle : [AgentEvent.initializeDebugAgent .dxeCore call].filterMap
            (AgentEvent.configuration A) =
            ((AgentEvent.initializeDebugAgent .dxeCore call).configuration A).toList := by
          cases hnew : (AgentEvent.initializeDebugAgent .dxeCore call).configuration A with
          | none => exact List.filterMap_cons_none hnew
          | some hob => exact List.filterMap_cons_some hnew
        rw [List.filterMap_append, hsingle, ← h.inits]
        exact hinits
      · have hold : t ∈ s.initialBreakpoints → ∃ call' hob,
            .initializeDebugAgent .dxeCore call' ∈ es ++ [.initializeDebugAgent .dxeCore call] ∧
              dxeConfiguration A.PcdForceEnableDebugger call'.Context = some hob ∧
              hob.InitialBreakpoint = true ∧ t = hob.InitialBreakpointTimeout := fun hmem => by
          obtain ⟨call', hob, hcall', hrest⟩ := h.breakpoints t hmem
          exact ⟨call', hob, List.mem_append_left _ hcall', hrest⟩
        rcases hbreakpoints with hsame | ⟨hob, hconfigured, hbreak, hmore⟩
        · exact hold (hsame ▸ hmem)
        · rcases List.mem_append.mp
            (hmore ▸ hmem : t ∈ s.initialBreakpoints ++ [_]) with hmem | hnew
          · exact hold hmem
          · exact ⟨call, hob, List.mem_append_right _ (List.mem_singleton_self _),
              hconfigured, hbreak, List.mem_singleton.mp hnew⟩

/-- A run. -/
theorem Run.told {s : DxeAgent} (h : Run A es s) : Told A es s := by
  induction h with
  | none => exact ⟨rfl, fun t hmem => absurd hmem List.not_mem_nil⟩
  | snoc run step ih => exact ih.step step

/-- The configuration that DXE has behind PEI, if it has one. -/
def dxeSettings (A : AgentPlatform) (E : PeiSettings) : Option DebuggerControlHob :=
  if A.PcdForceEnableDebugger = true then some dxeDefaultDebugConfig
  else if (E.configures && E.controlHob.DxeDebugEnabled) = true then some E.controlHob else none

/-- The call of DXE core that brings up the transport of the stub. -/
def AgentEvent.setsUp : AgentEvent → Bool
  | .initializeDebugAgent .dxeCore call => call.transport
  | _ => false

/-- Calls that all bring the one configuration `h`: it is used once for each that brings up the
transport. -/
theorem configuration_replicate {h : DebuggerControlHob} (es : List AgentEvent)
    (hall : ∀ call, .initializeDebugAgent .dxeCore call ∈ es →
      dxeConfiguration A.PcdForceEnableDebugger call.Context = some h) :
    es.filterMap (AgentEvent.configuration A) = List.replicate (es.countP AgentEvent.setsUp) h := by
  induction es with
  | nil => rfl
  | cons e es ih =>
    have hrest := ih fun call hcall => hall call (List.mem_cons_of_mem _ hcall)
    cases hup : e.setsUp with
    | false =>
      have hnone : e.configuration A = none := by
        cases e with
        | initializeDebugAgent flag call =>
          cases flag with
          | dxeCore => exact if_neg (Bool.eq_false_iff.mp hup)
          | _ => rfl
        | _ => rfl
      rw [List.filterMap_cons_none hnone, List.countP_cons_of_neg (Bool.eq_false_iff.mp hup), hrest]
    | true =>
      have hsome : e.configuration A = some h := by
        cases e with
        | initializeDebugAgent flag call =>
          cases flag with
          | dxeCore => exact (if_pos hup).trans (hall call List.mem_cons_self)
          | _ => cases hup
        | _ => cases hup
      rw [List.filterMap_cons_some hsome, List.countP_cons_of_pos hup, List.replicate_succ, hrest]

/-- **The agent does what the settings say, and nothing else.**  In every run in which DXE core
hands over the HOB list that PEI left: without a configuration (the build does not force one, and
the device state does not ask for source debugging, PEI had no space for the HOB, or the flag for
DXE is clear) the agent does nothing at all; with one, it sets up the processor with it once for
each call that brings up the transport of the stub, and with nothing else, every initial breakpoint
is asked for by its flag and waits as long as it says, and the agent polls only if the flag against
polling is clear. -/
theorem agent_obeys_settings {E : PeiSettings} {hobs : List Hob} {s : DxeAgent} (hrun : Run A es s)
    (hnone : getNextGuidHob hobs = none) (hpei : ∀ call, .initializeDebugAgent .dxeCore call ∈ es →
      call.Context = (debugConfigPeiEntry E hobs).2) :
    (dxeSettings A E = none → Inert s) ∧ ∀ h, dxeSettings A E = some h →
      s.debugArchInits = List.replicate (es.countP AgentEvent.setsUp) h ∧
      (∀ t ∈ s.initialBreakpoints, h.InitialBreakpoint = true ∧ t = h.InitialBreakpointTimeout) ∧
      (s.polls ≠ 0 → h.DisablePolling = false) := by
  have hconfigured : ∀ call, .initializeDebugAgent .dxeCore call ∈ es →
      dxeConfiguration A.PcdForceEnableDebugger call.Context = dxeSettings A E :=
      fun call hcall => by
    rw [hpei call hcall]
    exact configuration_pei _ _ _ E hnone
  refine ⟨fun hsettings => hrun.inert fun call hcall =>
    .inl ((hconfigured call hcall).trans hsettings),
    fun h hsettings => ⟨?_, fun t hmem => ?_, fun hpolls => ?_⟩⟩
  · rw [hrun.told.inits]
    exact configuration_replicate es fun call hcall => (hconfigured call hcall).trans hsettings
  · obtain ⟨call, hob, hcall, htold, hbreak, htimeout⟩ := hrun.told.breakpoints t hmem
    obtain rfl := Option.some.inj (htold.symm.trans ((hconfigured call hcall).trans hsettings))
    exact ⟨hbreak, htimeout⟩
  · obtain ⟨behind, hawaited, -⟩ := hrun.justified.polled hpolls
    cases hawaited with
    | intro call started early =>
      obtain ⟨call', hob, hmem, -, htold, hpolling⟩ := started
      have hcall := hconfigured call' (List.mem_append_left _ hmem)
      obtain rfl := Option.some.inj (htold.symm.trans (hcall.trans hsettings))
      exact hpolling

theorem agent_obeys_settings_polled :
    (dxeSettings pollingPlatform pollingSettings = none → Inert polledAgent) ∧
      ∀ h, dxeSettings pollingPlatform pollingSettings = some h →
        polledAgent.debugArchInits = List.replicate (polledEvents.countP AgentEvent.setsUp) h ∧
        (∀ t ∈ polledAgent.initialBreakpoints, h.InitialBreakpoint = true ∧
          t = h.InitialBreakpointTimeout) ∧
        (polledAgent.polls ≠ 0 → h.DisablePolling = false) := by
  have hnone : getNextGuidHob [.other] = none := rfl
  refine agent_obeys_settings polledAgent_run hnone fun call hcall => ?_
  simp [polledEvents, timedEvents] at hcall
  rw [hcall]
  rfl

/-! ## The hooks under the agent -/

/-- What an event is for the hooks. -/
def AgentEvent.hookEvents (A : AgentPlatform) : AgentEvent → List HookEvent
  | .initializeDebugAgent .dxeCore call =>
      [.initializeDxeCore
        ((dxeConfiguration A.PcdForceEnableDebugger call.Context).isSome && call.transport)
        call.uninitialized]
  | .initializeDebugAgent .zero _ => [.initializeZero]
  | .notified .cpuArch _ answers => [.cpuArchProtocol answers.located answers.uninitialized]
  | .notified .exitBootServices _ _ => [.exitBootServices]
  | .cpuInstalled => [.cpuInstalled]
  | _ => []

/-- The runs of the hooks. -/
inductive HookRun (H : HookPlatform) : List HookEvent → ExceptionHooks → Prop
  | none : HookRun H [] .initial
  | snoc {es : List HookEvent} {s s' : ExceptionHooks} {e : HookEvent} (run : HookRun H es s)
      (step : HookSteps H e s s') : HookRun H (es ++ [e]) s'

section Hooks
variable {fuel : Nat} {s s' : DxeAgent}

theorem hooks_of_run {α : Type} {r : α × DxeAgent} {a : α} (h : r = (a, s')) :
    r.2.hooks = s'.hooks := by rw [h]

theorem hooks_timerDestroy : Keeps DxeAgent.hooks debugAgentTimerDestroy := by
  refine keeps_bind keeps_get fun s => ?_
  cases s.mTimerEvent with
  | none => exact keeps_pure _
  | some event => exact fun _ => rfl

/-- `OnExitBootServices` is that of the hooks. -/
theorem hooks_onExitBootServices (A : AgentPlatform) (fuel : Nat) (s : DxeAgent) :
    (((onExitBootServices A fuel).run s).1, ((onExitBootServices A fuel).run s).2.hooks) =
      (debugAgentExceptionDestroy A.hooks fuel).run s.hooks := by
  have hsame := hooks_timerDestroy s
  rw [onExitBootServices, run_bind]
  generalize debugAgentTimerDestroy.run s = r at hsame ⊢
  show ((debugAgentExceptionDestroy A.hooks fuel).run r.2.hooks) = _
  rw [hsame]

theorem hooks_exit (hrun : (onExitBootServices A fuel).run s = (some (), s')) :
    (debugAgentExceptionDestroy A.hooks fuel).run s.hooks = (some (), s'.hooks) := by
  rw [← hooks_onExitBootServices, hrun]

theorem hooks_onCpuArch {answers : NotificationAnswers}
    (hrun : (onCpuArchProtocolNotification A fuel answers).run s = (some (), s')) :
    HookSteps A.hooks (.cpuArchProtocol answers.located answers.uninitialized) s.hooks
    s'.hooks := by
  refine ⟨fuel, ?_⟩
  rw [onCpuArchProtocolNotification] at hrun
  rw [hookStep, UefiDebugger.onCpuArchProtocolNotification]
  by_cases hlocated : answers.located = true
  · simp only [if_pos hlocated, run_bind, run_modify, onHooks, run_modifyGet] at hrun ⊢
    generalize (debugAgentExceptionInitialize A.hooks fuel answers.uninitialized).run
      { s.hooks with gCpu := true } = r at hrun ⊢
    obtain ⟨Status, h₂⟩ := r
    cases Status with
    | none => cases congrArg Prod.fst hrun
    | some Status =>
      cases Status with
      | true => exact ⟨.initialized true, by rw [← hooks_of_run hrun]; rfl⟩
      | false =>
        simp only [run_bind, run_modify] at hrun ⊢
        have hexit := hooks_exit hrun
        rw [UefiDebugger.onExitBootServices]
        dsimp only at hexit ⊢
        rw [hexit]
        exact ⟨_, rfl⟩
  · simp only [if_neg hlocated] at hrun ⊢
    exact ⟨.untouched, by rw [← hooks_of_run hrun]; rfl⟩

theorem hooks_initializeDxeCore {call : InitializeCall}
    (hrun : (initializeDxeCore A fuel call).run s = (some (), s')) :
    HookSteps A.hooks (.initializeDxeCore
      ((dxeConfiguration A.PcdForceEnableDebugger call.Context).isSome && call.transport)
      call.uninitialized) s.hooks s'.hooks := by
  refine ⟨fuel, ?_⟩
  rw [initializeDxeCore] at hrun
  rw [hookStep, initializeDebugAgentDxeCore]
  cases hconfigured : dxeConfiguration A.PcdForceEnableDebugger call.Context with
  | none =>
    rw [hconfigured] at hrun
    exact ⟨.untouched, by rw [← hooks_of_run hrun]; rfl⟩
  | some DebugHob =>
    rw [hconfigured] at hrun
    by_cases htransport : call.transport = true
    · simp only [htransport, Option.isSome_some, Bool.and_self, if_true, run_bind,
        run_modify, onHooks, run_modifyGet] at hrun ⊢
      generalize (debugAgentExceptionInitialize A.hooks fuel call.uninitialized).run s.hooks =
        r at hrun ⊢
      obtain ⟨Status, h₂⟩ := r
      cases Status with
      | none => cases congrArg Prod.fst hrun
      | some Status =>
        cases Status with
        | false => exact ⟨.initialized false, by rw [← hooks_of_run hrun]; rfl⟩
        | true =>
          refine ⟨.initialized true, ?_⟩
          rw [← hooks_of_run hrun]
          cases DebugHob.InitialBreakpoint with
          | true => rfl
          | false => rfl
    · simp only [htransport, Bool.and_false, Bool.false_eq_true, if_false] at hrun ⊢
      exact ⟨.untouched, by rw [← hooks_of_run hrun]; rfl⟩

theorem hooks_notify {answers : NotificationAnswers} {notification : Notification}
    (hcpu : notification ≠ .cpuArch) (hexit : notification ≠ .exitBootServices) :
    Keeps DxeAgent.hooks (notify A fuel answers notification) := by
  cases notification with
  | timerRoutine => exact fun _ => rfl
  | loadedImage => exact keeps_pure _
  | cpuArch => exact absurd rfl hcpu
  | exitBootServices => exact absurd rfl hexit
  | memoryAttribute =>
    have hmodify : Keeps DxeAgent.hooks (onMemoryAttributeProtocolNotification answers) :=
      keeps_ite (fun _ => rfl) (keeps_pure _)
    exact fun s => hmodify s
  | timerArch =>
    have htimer : Keeps DxeAgent.hooks (onTimerArchProtocolNotification answers) :=
      keeps_ite (keeps_bind (fun _ => rfl) fun _ =>
        keeps_ite (keeps_bind (fun _ => rfl) fun _ => fun _ => rfl) (keeps_pure _)) (keeps_pure _)
    exact fun s => htimer s

theorem hooks_setupCallbacks (created : Notification → Bool) :
    Keeps DxeAgent.hooks (dxeDebugSetupCallbacks created) := by
  have hcreate : ∀ notification b, Keeps DxeAgent.hooks (createNotification notification b) :=
    fun _ _ =>
    keeps_ite (keeps_bind (fun _ => rfl) fun _ => keeps_pure _) (keeps_pure _)
  have hcpu : ∀ b, Keeps DxeAgent.hooks (setupCpuArch b) := fun b => keeps_bind keeps_get fun _ =>
    keeps_ite (keeps_bind (hcreate _ _) fun _ => keeps_pure _) (keeps_pure _)
  have htimer : ∀ b, Keeps DxeAgent.hooks (setupTimerArch b) :=
    fun b => keeps_bind keeps_get fun _ =>
    keeps_ite (keeps_bind (hcreate _ _) fun _ => fun _ => rfl) (keeps_pure _)
  exact keeps_bind (hcpu _) fun _ => keeps_bind (htimer _) fun _ =>
    keeps_bind (hcreate _ _) fun _ =>
    keeps_bind (hcreate _ _) fun _ => keeps_bind (hcreate _ _) fun _ => keeps_pure _

/-- One step: the hooks are left alone, or take the step of their event. -/
theorem Step.hooks (h : Step A s e s') : (e.hookEvents A = [] ∧ s'.hooks = s.hooks) ∨
    ∃ event, e.hookEvents A = [event] ∧ HookSteps A.hooks event s.hooks s'.hooks := by
  cases h with
  | cpuInstalled => exact .inr ⟨_, rfl, 0, _, rfl⟩
  | timerInstalled => exact .inl ⟨rfl, rfl⟩
  | @notified _ notification event periodic answers fuel created isOpen fires run =>
    by_cases hcpu : notification = .cpuArch
    · subst hcpu
      exact .inr ⟨_, rfl, hooks_onCpuArch run⟩
    · by_cases hexit : notification = .exitBootServices
      · subst hexit
        refine .inr ⟨_, rfl, fuel, .destroyed, ?_⟩
        rw [hookStep, UefiDebugger.onExitBootServices, run_bind, hooks_exit run]
        rfl
      · refine .inl ⟨?_, ?_⟩
        · cases notification with
          | cpuArch => exact absurd rfl hcpu
          | exitBootServices => exact absurd rfl hexit
          | _ => rfl
        · rw [← hooks_of_run run, hooks_notify hcpu hexit]
  | initializeDebugAgent flag call fuel run =>
    rw [Agent.initializeDebugAgent, run_bind, run_get] at run
    cases flag with
    | unsupported => exact .inl ⟨rfl, (hooks_of_run run).symm⟩
    | dxeCore => exact .inr ⟨_, rfl, hooks_initializeDxeCore run⟩
    | dxeCoreLate =>
      refine .inl ⟨rfl, ?_⟩
      have hkeeps : Keeps DxeAgent.hooks (if s.hooks.mDebuggerInitialized = true then
          some <$> dxeDebugSetupCallbacks call.created else pure (some ())) :=
        keeps_ite (fun s => hooks_setupCallbacks call.created s) (keeps_pure _)
      exact (hooks_of_run run).symm.trans (hkeeps s)
    | zero =>
      refine .inr ⟨_, rfl, fuel, ?_⟩
      rw [hookStep, initializeDebugAgentZero, run_bind, run_get]
      cases hinitialized : s.hooks.mDebuggerInitialized with
      | true =>
        simp only [hinitialized, if_true] at run ⊢
        rw [UefiDebugger.onExitBootServices, run_bind, hooks_exit run]
        exact ⟨_, rfl⟩
      | false =>
        simp only [hinitialized, Bool.false_eq_true, if_false] at run ⊢
        exact ⟨.untouched, by rw [← hooks_of_run run]; rfl⟩

end Hooks

/-- **The agent refines the hooks.**  What every run of the agent does to the exceptions is a run of
the model of the hooks, whose events can be read off the run. -/
theorem agent_refines_hooks {s : DxeAgent} (hrun : Run A es s) :
    HookRun A.hooks (es.flatMap (AgentEvent.hookEvents A)) s.hooks := by
  induction hrun with
  | none => exact .none
  | snoc run step ih =>
    rw [List.flatMap_append, List.flatMap_singleton]
    rcases step.hooks with ⟨hevents, hsame⟩ | ⟨event, hevents, hsteps⟩
    · rw [hevents, List.append_nil, hsame]
      exact ih
    · rw [hevents]
      exact ih.snoc hsteps

theorem agent_refines_hooks_polled :
    HookRun pollingPlatform.hooks (polledEvents.flatMap (AgentEvent.hookEvents pollingPlatform))
    polledAgent.hooks :=
  agent_refines_hooks polledAgent_run

end Agent
end UefiDebugger
