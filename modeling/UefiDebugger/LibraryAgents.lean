import UefiDebugger.DxeAgent
import Mathlib.Data.List.TakeWhile

/-!
# The agents in MM and PEI

`InitializeDebugAgent` of `DebugAgentMm.c` and of `DebugAgentPeiLib.c`.  They know one service that
routes exceptions, the exception library, and take it back without a condition; so what DXE promises
under conditions only holds here in every state: the exceptions are all routed or not at all.

Which of the two it is, is what the last call says that got as far as the exceptions
(`mm_follows_calls`).  What MM forgets is that it was ended: `mDebuggerInitialized` stays, and each
SMI polls the transport although no exception comes back to the debugger.
-/
namespace UefiDebugger
open StateEffect

/-! ## The exception library -/

/-- Which vectors the exception library routes to `DebuggerExceptionHandler`.  `registrations`
counts the registration calls made. -/
structure LibraryHooks where
  routed : Nat → Bool
  registrations : Nat
  failedAsserts : List String

/-- Before the first call. -/
def LibraryHooks.initial : LibraryHooks := ⟨fun _ => false, 0, []⟩

/-- A program on it. -/
abbrev LibraryM := StateM LibraryHooks

namespace Library

/-- `RegisterCpuInterruptHandler` with the handler. -/
def registerCpuInterruptHandler (H : HookPlatform) (vector : Nat) : LibraryM Bool :=
  modifyGet fun s =>
  if H.succeeds s.registrations = true then
    (true, { s with
      registrations := s.registrations + 1
      routed := Function.update s.routed vector true })
  else (false, { s with registrations := s.registrations + 1 })

/-- The same call with `NULL`. -/
def unregisterCpuInterruptHandler (vector : Nat) : LibraryM Unit := modify fun s =>
  { s with routed := Function.update s.routed vector false }

/-- The loop of `DebugAgentExceptionDestroy`. -/
def destroyLoop (H : HookPlatform) : (fuel Index : Nat) → LibraryM (Option Unit) :=
  destroyVectors H.mArchExceptionTypes unregisterCpuInterruptHandler

/-- `DebugAgentExceptionDestroy`, of MM and of PEI. -/
def debugAgentExceptionDestroy (H : HookPlatform) (fuel : Nat) : LibraryM (Option Unit) :=
  destroyLoop H fuel 0

/-- The loop of `DebugAgentExceptionInitialize`. -/
def initializeLoop (H : HookPlatform) : (fuel Index : Nat) → (Status : Bool) →
    LibraryM (Option Bool) :=
  initializeVectors H.mArchExceptionTypes (registerCpuInterruptHandler H)
    (modify fun s => { s with failedAsserts := s.failedAsserts ++ ["ASSERT_EFI_ERROR (Status)"] })
    (debugAgentExceptionDestroy H)

end Library

/-! ## MM -/

/-- The globals of the agent, and records: the calls of `DebuggerPollInput`, `DebugArchInit` and
`DebuggerInitialBreakpoint`. -/
structure MmAgent where
  hooks : LibraryHooks
  mDebuggerInitialized : Bool
  polls : Nat
  debugArchInits : List DebuggerControlHob
  initialBreakpoints : List (BitVec 64)

/-- The image as it is loaded. -/
def MmAgent.initial : MmAgent := ⟨.initial, false, 0, [], []⟩

namespace Mm

/-- A program of the agent. -/
abbrev AgentM := StateM MmAgent

/-- A program on the exceptions. -/
def onLibrary {α : Type} (m : LibraryM α) : AgentM α := modifyGet fun s =>
  ((m.run s.hooks).1, { s with hooks := (m.run s.hooks).2 })

/-- `DebugAgentExceptionInitialize`.  For an empty list it returns a `Status` it never set. -/
def debugAgentExceptionInitialize (H : HookPlatform) (fuel : Nat) (uninitialized : Bool) :
    LibraryM (Option Bool) := do
  let destroyed ← Library.debugAgentExceptionDestroy H fuel
  match destroyed with
  | none => pure none
  | some () => Library.initializeLoop H fuel 0 uninitialized

/-- The values of `InitFlag` that the agent tells apart. -/
inductive InitFlag where
  | smm
  | enterSmi
  | zero
  | unsupported
  deriving DecidableEq, Repr

/-- A call of `InitializeDebugAgent`: its flag, its HOB list, the status of
`DebugTransportInitialize`, and what `Status` of `DebugAgentExceptionInitialize` held. -/
structure AgentCall where
  flag : InitFlag
  Context : List Hob
  transport : Bool
  uninitialized : Bool

/-- What follows a successful `DebugAgentExceptionInitialize`. -/
def startAgent (DebugHob : DebuggerControlHob) : AgentM Unit := modify fun s => { s with
  mDebuggerInitialized := true
  initialBreakpoints :=
    if DebugHob.InitialBreakpoint = true then s.initialBreakpoints ++
      [DebugHob.InitialBreakpointTimeout]
    else s.initialBreakpoints }

/-- `InitializeDebugAgent` with `DEBUG_AGENT_INIT_SMM`. -/
def initializeSmm (A : AgentPlatform) (fuel : Nat) (call : AgentCall) :
    AgentM (Option HookResult) :=
  match mmConfiguration A.PcdForceEnableDebugger call.Context with
  | none => pure (some .untouched)
  | some DebugHob =>
      if call.transport = true then do
        modify fun s => { s with debugArchInits := s.debugArchInits ++ [DebugHob] }
        let Status ← onLibrary (debugAgentExceptionInitialize A.hooks fuel call.uninitialized)
        match Status with
        | none => pure none
        | some false => pure (some (.initialized false))
        | some true => do
            startAgent DebugHob
            pure (some (.initialized true))
      else pure (some .untouched)

/-- `InitializeDebugAgent`, and what it did to the exceptions. -/
def initializeDebugAgent (A : AgentPlatform) (fuel : Nat) (call : AgentCall) :
    AgentM (Option HookResult) := do
  let s ← get
  match call.flag with
  | .smm => initializeSmm A fuel call
  | .enterSmi =>
      if s.mDebuggerInitialized = true then do
        modify fun s => { s with polls := s.polls + 1 }
        pure (some .untouched)
      else pure (some .untouched)
  | .zero =>
      if s.mDebuggerInitialized = true then do
        let destroyed ← onLibrary (Library.debugAgentExceptionDestroy A.hooks fuel)
        pure (destroyed.map fun _ => .destroyed)
      else pure (some .untouched)
  | .unsupported => pure (some .untouched)

/-- The runs from the image as it is loaded: calls that return, each with what it did to the
exceptions. -/
inductive Run (A : AgentPlatform) : List (AgentCall × HookResult) → MmAgent → Prop
  | none : Run A [] .initial
  | snoc {es : List (AgentCall × HookResult)} {s s' : MmAgent} {result : HookResult}
      (run : Run A es s) (call : AgentCall) (fuel : Nat)
      (returns : (initializeDebugAgent A fuel call).run s = (some result, s')) :
      Run A (es ++ [(call, result)]) s'

end Mm

/-! ## PEI -/

/-- What the agent of PEI leaves behind. -/
structure PeiAgent where
  hooks : LibraryHooks
  debugArchInits : List DebuggerControlHob
  initialBreakpoints : List (BitVec 64)

/-- Before the first call. -/
def PeiAgent.initial : PeiAgent := ⟨.initial, [], []⟩

namespace Pei

/-- A program of the agent. -/
abbrev AgentM := StateM PeiAgent

/-- A program on the exceptions. -/
def onLibrary {α : Type} (m : LibraryM α) : AgentM α := modifyGet fun s =>
  ((m.run s.hooks).1, { s with hooks := (m.run s.hooks).2 })

/-- What the agent is built with, and what `InitializeCpuExceptionHandlers` makes of the vectors
that are routed when it succeeds. -/
structure AgentPlatform where
  hooks : HookPlatform
  initializeCpuExceptionHandlers : (routed : Nat → Bool) → Nat → Bool
  PcdForceEnablePeiDebugger : Bool

/-- The status of `DebugTransportInitialize` and of `InitializeCpuExceptionHandlers`. -/
structure AgentCall where
  transport : Bool
  handlers : Bool

/-- `DebugAgentExceptionInitialize`. -/
def debugAgentExceptionInitialize (A : AgentPlatform) (fuel : Nat) (handlers : Bool) :
    LibraryM (Option Bool) :=
  if handlers = true then do
    modify fun s => { s with routed := A.initializeCpuExceptionHandlers s.routed }
    Library.initializeLoop A.hooks fuel 0 true
  else pure (some false)

/-- `InitializeDebugAgent`. -/
def initializeDebugAgent (A : AgentPlatform) (fuel : Nat) (call : AgentCall) :
    AgentM (Option Bool) :=
  if A.PcdForceEnablePeiDebugger = true ∧ call.transport = true then do
    modify fun s => { s with debugArchInits := s.debugArchInits ++ [defaultPeiDebugConfig] }
    let Status ← onLibrary (debugAgentExceptionInitialize A fuel call.handlers)
    match Status with
    | none => pure none
    | some false => pure (some false)
    | some true => do
        modify fun s => { s with initialBreakpoints := s.initialBreakpoints ++ [0] }
        pure (some true)
  else pure (some false)

/-- The runs from the start: calls that return, each with whether it came to its breakpoint. -/
inductive Run (A : AgentPlatform) : List (AgentCall × Bool) → PeiAgent → Prop
  | none : Run A [] .initial
  | snoc {es : List (AgentCall × Bool)} {s s' : PeiAgent} {stopped : Bool} (run : Run A es s)
      (call : AgentCall) (fuel : Nat)
      (returns : (initializeDebugAgent A fuel call).run s = (some stopped, s')) :
      Run A (es ++ [(call, stopped)]) s'

end Pei

/-! ## All or nothing -/

namespace Library
variable {H : HookPlatform} {s s' : LibraryHooks} {fuel : Nat}

/-- Every vector of the list is routed. -/
def AllRouted (H : HookPlatform) (s : LibraryHooks) : Prop :=
  ∀ v ∈ H.mArchExceptionTypes, s.routed v = true

/-- No vector of the list is routed. -/
def NoneRouted (H : HookPlatform) (s : LibraryHooks) : Prop :=
  ∀ v ∈ H.mArchExceptionTypes, s.routed v = false

theorem noneRouted_destroy (hrun : (debugAgentExceptionDestroy H fuel).run s = (some (), s')) :
    NoneRouted H s' := by
  intro v hv
  obtain ⟨j, hj⟩ := List.getElem?_of_mem hv
  have hcall : ∀ vector (t : LibraryHooks), True →
      True ∧ ((unregisterCpuInterruptHandler vector).run t).2.routed =
        Function.update t.routed vector false :=
    fun _ _ _ => ⟨trivial, rfl⟩
  obtain ⟨-, hcleared, -⟩ := destroyVectors_spec hcall fuel 0 s s' trivial (by decide) hrun
  exact hcleared j (Nat.zero_le j) v hj

theorem addsHandler_register :
    AddsHandler LibraryHooks.routed (registerCpuInterruptHandler H) := by
  intro vector s s₁ hrun
  rw [registerCpuInterruptHandler, run_modifyGet] at hrun
  by_cases hcall : H.succeeds s.registrations = true
  · rw [if_pos hcall] at hrun
    rw [← show _ = s₁ from congrArg Prod.snd hrun]
    exact ⟨Function.update_self .., fun v hv => update_true_of_true hv⟩
  · rw [if_neg hcall] at hrun
    cases hrun

/-- The loop from the start routes all vectors, or none. -/
theorem allOrNone_initializeLoop {uninitialized b : Bool}
    (hrun : (initializeLoop H fuel 0 uninitialized).run s = (some b, s')) :
    if b = true then AllRouted H s' else NoneRouted H s' := by
  rcases Nat.eq_zero_or_pos H.mArchExceptionTypes.length with hempty | hpos
  · -- Of an empty list both hold.
    unfold AllRouted NoneRouted
    rw [List.length_eq_zero_iff.mp hempty]
    split <;> exact fun v hv => absurd hv List.not_mem_nil
  · obtain ⟨k, Index', s₁, hpassed, hend⟩ := initializeVectors_ends _ _ _ _ _ _ (Or.inr hpos) hrun
    cases b with
    | false =>
      obtain ⟨vector, s₂, n, -, -, hdestroyed⟩ := hend
      exact noneRouted_destroy hdestroyed
    | true =>
      obtain ⟨hnone, rfl⟩ := hend
      intro v hv
      obtain ⟨j, hj⟩ := List.getElem?_of_mem hv
      exact hpassed.all addsHandler_register hnone j (Nat.zero_le j) v hj

/-! ### Returning -/

/-- Enough rounds for a list that the index can reach the end of. -/
def rounds (H : HookPlatform) : Nat := 256 + H.mArchExceptionTypes.length

theorem destroyLoop_returns (hshort : H.mArchExceptionTypes.length < 256) (fuel Index : Nat)
    (s : LibraryHooks) (hfuel : H.mArchExceptionTypes.length - Index < fuel) :
    ∃ s', (destroyLoop H fuel Index).run s = (some (), s') :=
  destroyVectors_returns hshort fuel Index s hfuel

/-- A list that the index can reach the end of is walked to its end, or back from a vector that
fails. -/
theorem initializeLoop_returns (hshort : H.mArchExceptionTypes.length < 256) :
    ∀ (more Index : Nat) (s : LibraryHooks) (Status : Bool),
    H.mArchExceptionTypes.length - Index ≤ more →
    ∃ b s', (initializeLoop H (256 + more) Index Status).run s = (some b, s') := by
  intro more
  induction more with
  | zero =>
    intro Index s Status hmore
    rw [initializeLoop, initializeVectors, List.getElem?_eq_none (by omega)]
    exact ⟨Status, s, rfl⟩
  | succ more ih =>
    intro Index s Status hmore
    rw [← Nat.add_assoc, initializeLoop, initializeVectors]
    cases hget : H.mArchExceptionTypes[Index]? with
    | none => exact ⟨Status, s, rfl⟩
    | some vector =>
      have hlt := (List.getElem?_eq_some_iff.mp hget).1
      have hnext : nextIndex Index = Index + 1 := Nat.mod_eq_of_lt (by omega)
      simp only [run_bind, hnext]
      cases hcall : ((registerCpuInterruptHandler H vector).run s).1 with
      | true =>
        rw [if_pos rfl]
        exact ih (Index + 1) _ true (by omega)
      | false =>
        rw [if_neg Bool.false_ne_true]
        obtain ⟨s', hdestroyed⟩ := destroyLoop_returns hshort (256 + more + 1) 0
          { ((registerCpuInterruptHandler H vector).run s).2 with
            failedAsserts := ((registerCpuInterruptHandler H vector).run s).2.failedAsserts ++
              ["ASSERT_EFI_ERROR (Status)"] } (by omega)
        refine ⟨false, s', ?_⟩
        simp only [run_bind, run_modify, debugAgentExceptionDestroy, hdestroyed]
        rfl

end Library

/-! ## MM follows its calls -/

/-- A call got as far as the exceptions. -/
def HookResult.decides : HookResult → Bool
  | .untouched => false
  | .initialized _ => true
  | .destroyed => true

/-- It routed them. -/
def HookResult.succeeds : HookResult → Bool
  | .initialized Status => Status
  | _ => false

namespace Mm
variable {A : AgentPlatform} {es : List (AgentCall × HookResult)} {s s' : MmAgent}
  {call : AgentCall} {result : HookResult} {fuel : Nat}

/-- The last call that got as far as the exceptions routed them. -/
def lastSucceeds (es : List (AgentCall × HookResult)) : Bool :=
  (((es.map Prod.snd).filter HookResult.decides).getLast?.map HookResult.succeeds).getD false

/-- The SMIs behind the first success. -/
def smisBehind (es : List (AgentCall × HookResult)) : Nat :=
  (es.dropWhile fun e => !e.2.succeeds).countP fun e => e.1.flag = .enterSmi

/-- The configuration that a call sets the processor up with. -/
def configurationOf (A : AgentPlatform) (call : AgentCall) : Option DebuggerControlHob :=
  if call.flag = .smm ∧ call.transport = true then
    mmConfiguration A.PcdForceEnableDebugger call.Context else none

/-- The timeout of the breakpoint that it makes. -/
def breakpointOf (A : AgentPlatform) (e : AgentCall × HookResult) : Option (BitVec 64) :=
  if e.2.succeeds = true then
    ((configurationOf A e.1).filter DebuggerControlHob.InitialBreakpoint).map
    DebuggerControlHob.InitialBreakpointTimeout
  else none

/-- The state is what the calls say. -/
structure AsCalled (A : AgentPlatform) (es : List (AgentCall × HookResult)) (s : MmAgent) :
    Prop where
  initialized : s.mDebuggerInitialized = es.any fun e => e.2.succeeds
  routed : if lastSucceeds es = true then Library.AllRouted A.hooks s.hooks
    else Library.NoneRouted A.hooks s.hooks
  polls : s.polls = smisBehind es
  debugArchInits : s.debugArchInits = es.filterMap fun e => configurationOf A e.1
  initialBreakpoints : s.initialBreakpoints = es.filterMap (breakpointOf A)

/-- What one call does. -/
structure CallEffect (A : AgentPlatform) (call : AgentCall) (result : HookResult) (s s' : MmAgent) :
    Prop where
  initialized : s'.mDebuggerInitialized = (s.mDebuggerInitialized || result.succeeds)
  untouched : result.decides = false → s'.hooks = s.hooks
  routed : result.decides = true →
    if result.succeeds = true then Library.AllRouted A.hooks s'.hooks
    else Library.NoneRouted A.hooks s'.hooks
  succeeds : result.succeeds = true → call.flag = .smm
  polls : s'.polls =
    s.polls + if s.mDebuggerInitialized = true ∧ call.flag = .enterSmi then 1 else 0
  debugArchInits : s'.debugArchInits = s.debugArchInits ++ (configurationOf A call).toList
  initialBreakpoints : s'.initialBreakpoints = s.initialBreakpoints ++
    (breakpointOf A (call, result)).toList

/-- A call that does nothing. -/
theorem callEffect_untouched (h : call.flag = .enterSmi → s.mDebuggerInitialized = false)
    (hnone : configurationOf A call = none) : CallEffect A call .untouched s s := by
  refine ⟨(Bool.or_false _).symm, fun _ => rfl, fun h => (nomatch h), fun h => (nomatch h),
    ?_, ?_, ?_⟩
  · rw [if_neg fun ⟨hinitialized, hflag⟩ => by rw [h hflag] at hinitialized; cases hinitialized]
    rfl
  · rw [hnone]
    exact (List.append_nil _).symm
  · exact (List.append_nil _).symm

theorem fst_onLibrary {α : Type} (m : LibraryM α) (s : MmAgent) :
    ((onLibrary m).run s).1 = (m.run s.hooks).1 := rfl

/-- `DebugAgentExceptionInitialize` routes all vectors, or none. -/
theorem allOrNone_initialize {H : HookPlatform} {h h' : LibraryHooks} {uninitialized b : Bool}
    (hrun : (debugAgentExceptionInitialize H fuel uninitialized).run h = (some b, h')) :
    if b = true then Library.AllRouted H h' else Library.NoneRouted H h' := by
  rw [debugAgentExceptionInitialize, run_bind] at hrun
  cases hdestroyed : ((Library.debugAgentExceptionDestroy H fuel).run h).1 with
  | none =>
    rw [hdestroyed] at hrun
    cases hrun
  | some u =>
    rw [hdestroyed] at hrun
    exact Library.allOrNone_initializeLoop hrun

/-- `DEBUG_AGENT_INIT_SMM`. -/
theorem effect_smm (hflag : call.flag = .smm)
    (hrun : (initializeSmm A fuel call).run s = (some result, s')) :
    CallEffect A call result s s' := by
  have hsmi : ¬ call.flag = .enterSmi := by
    rw [hflag]
    exact fun h => (nomatch h)
  have hpolls : ∀ n,
      n = n + if s.mDebuggerInitialized = true ∧ call.flag = .enterSmi then 1 else 0 := fun n => by
    rw [if_neg fun h => hsmi h.2]
    rfl
  rw [initializeSmm] at hrun
  cases hconfiguration : mmConfiguration A.PcdForceEnableDebugger call.Context with
  | none =>
    rw [hconfiguration] at hrun
    obtain ⟨hresult, rfl⟩ := Prod.mk.inj hrun
    obtain rfl := Option.some.inj hresult
    exact callEffect_untouched (fun h => absurd h hsmi)
      (by rw [configurationOf, hconfiguration, ite_self])
  | some DebugHob =>
    rw [hconfiguration] at hrun
    dsimp only at hrun
    by_cases htransport : call.transport = true
    · have hconfigured : configurationOf A call = some DebugHob := by
        rw [configurationOf, if_pos ⟨hflag, htransport⟩, hconfiguration]
      rw [if_pos htransport, run_bind, run_modify, run_bind, fst_onLibrary] at hrun
      dsimp only at hrun
      cases hstatus :
        ((debugAgentExceptionInitialize A.hooks fuel call.uninitialized).run s.hooks).1 with
      | none =>
        rw [hstatus] at hrun
        cases hrun
      | some b =>
        have hexceptions := allOrNone_initialize (Prod.ext hstatus rfl)
        rw [hstatus] at hrun
        cases b with
        | false =>
          obtain ⟨hresult, rfl⟩ := Prod.mk.inj hrun
          obtain rfl := Option.some.inj hresult
          -- The processor stays set up although a registration failed.
          refine ⟨(Bool.or_false _).symm, fun h => (nomatch h), fun _ => hexceptions,
            fun h => (nomatch h), hpolls _, ?_, (List.append_nil _).symm⟩
          rw [hconfigured]
          rfl
        | true =>
          rw [run_bind] at hrun
          obtain ⟨hresult, rfl⟩ := Prod.mk.inj hrun
          obtain rfl := Option.some.inj hresult
          refine ⟨(Bool.or_true _).symm, fun h => (nomatch h), fun _ => hexceptions, fun _ => hflag,
            hpolls _, ?_, ?_⟩
          · rw [hconfigured]
            rfl
          · -- The breakpoint is only asked for if the configuration wants one.
            have hbreakpointOf : breakpointOf A (call, .initialized true) =
                ((some DebugHob).filter DebuggerControlHob.InitialBreakpoint).map
                  DebuggerControlHob.InitialBreakpointTimeout := by
              rw [← hconfigured]
              rfl
            rw [hbreakpointOf]
            show (if DebugHob.InitialBreakpoint = true then _ else _ : List (BitVec 64)) = _
            by_cases hbreakpoint : DebugHob.InitialBreakpoint = true
            · rw [if_pos hbreakpoint, Option.filter_some_pos hbreakpoint]
              rfl
            · rw [if_neg hbreakpoint, Option.filter_some_neg (Bool.eq_false_iff.mpr hbreakpoint)]
              exact (List.append_nil _).symm
    · rw [if_neg htransport] at hrun
      obtain ⟨hresult, rfl⟩ := Prod.mk.inj hrun
      obtain rfl := Option.some.inj hresult
      exact callEffect_untouched (fun h => absurd h hsmi) (if_neg fun h => htransport h.2)

/-- Every call. -/
theorem effect_call (hrun : (initializeDebugAgent A fuel call).run s = (some result, s')) :
    CallEffect A call result s s' := by
  rw [initializeDebugAgent, run_bind, run_get] at hrun
  cases hflag : call.flag with
  | smm =>
    rw [hflag] at hrun
    exact effect_smm hflag hrun
  | enterSmi =>
    have hnone : configurationOf A call = none := if_neg fun h => by rw [hflag] at h; cases h.1
    rw [hflag] at hrun
    dsimp only at hrun
    cases hinitialized : s.mDebuggerInitialized with
    | true =>
      rw [if_pos hinitialized] at hrun
      obtain ⟨hresult, rfl⟩ := Prod.mk.inj hrun
      obtain rfl := Option.some.inj hresult
      refine ⟨(Bool.or_false _).symm, fun _ => rfl, fun h => (nomatch h), fun h => (nomatch h),
        ?_, ?_, ?_⟩
      · rw [if_pos ⟨hinitialized, hflag⟩]
      · rw [hnone]
        exact (List.append_nil _).symm
      · exact (List.append_nil _).symm
    | false =>
      rw [if_neg (by rw [hinitialized]; exact Bool.false_ne_true)] at hrun
      obtain ⟨hresult, rfl⟩ := Prod.mk.inj hrun
      obtain rfl := Option.some.inj hresult
      exact callEffect_untouched (fun _ => hinitialized) hnone
  | zero =>
    have hsmi : call.flag = .enterSmi → s.mDebuggerInitialized = false :=
      fun h => by rw [hflag] at h; cases h
    have hnone : configurationOf A call = none := if_neg fun h => by rw [hflag] at h; cases h.1
    rw [hflag] at hrun
    dsimp only at hrun
    by_cases hinitialized : s.mDebuggerInitialized = true
    · rw [if_pos hinitialized, run_bind] at hrun
      obtain ⟨hresult, rfl⟩ := Prod.mk.inj hrun
      obtain ⟨u, hdestroyed, rfl⟩ := Option.map_eq_some_iff.mp hresult
      have hnoneRouted :=
        Library.noneRouted_destroy
        (Prod.ext (show ((Library.debugAgentExceptionDestroy A.hooks fuel).run
        s.hooks).1 = some u from hdestroyed) rfl)
      refine ⟨(Bool.or_false _).symm, fun h => (nomatch h), fun _ => hnoneRouted,
        fun h => (nomatch h), ?_, ?_, ?_⟩
      · rw [if_neg fun h => by rw [hflag] at h; cases h.2]
        rfl
      · rw [hnone]
        exact (List.append_nil _).symm
      · exact (List.append_nil _).symm
    · rw [if_neg hinitialized] at hrun
      obtain ⟨hresult, rfl⟩ := Prod.mk.inj hrun
      obtain rfl := Option.some.inj hresult
      exact callEffect_untouched hsmi hnone
  | unsupported =>
    rw [hflag] at hrun
    obtain ⟨hresult, rfl⟩ := Prod.mk.inj hrun
    obtain rfl := Option.some.inj hresult
    exact callEffect_untouched (fun h => by rw [hflag] at h; cases h)
      (if_neg fun h => by rw [hflag] at h; cases h.1)

/-- One more call. -/
theorem AsCalled.snoc (h : AsCalled A es s) (heffect : CallEffect A call result s s') :
    AsCalled A (es ++ [(call, result)]) s' where
  initialized := by
    rw [heffect.initialized, h.initialized, List.any_append]
    simp
  routed := by
    rw [lastSucceeds, List.map_append, List.filter_append]
    cases hdecides : result.decides with
    | false =>
      rw [heffect.untouched hdecides]
      simpa [hdecides, lastSucceeds] using h.routed
    | true => simpa [hdecides] using heffect.routed hdecides
  polls := by
    rw [heffect.polls, h.polls, h.initialized, smisBehind, smisBehind, List.dropWhile_append]
    cases hany : es.any (fun e => e.2.succeeds) with
    | true =>
      have hrest : (es.dropWhile fun e => !e.2.succeeds).isEmpty = false := by
        rw [Bool.eq_false_iff, Ne, List.isEmpty_iff, List.dropWhile_eq_nil_iff]
        obtain ⟨e, he, hsucceeds⟩ := List.any_eq_true.mp hany
        exact fun hall => by simpa [hsucceeds] using hall e he
      rw [hrest]
      simp only [Bool.false_eq_true, if_false, List.countP_append, List.countP_singleton, true_and]
      simp
    | false =>
      have hrest : (es.dropWhile fun e => !e.2.succeeds) = [] := by
        rw [List.dropWhile_eq_nil_iff]
        exact fun e he => by simpa using List.any_eq_false.mp hany e he
      rw [hrest]
      cases hsucceeds : result.succeeds with
      | false => simp [hsucceeds]
      | true => simp [hsucceeds, heffect.succeeds hsucceeds]
  debugArchInits := by
    rw [heffect.debugArchInits, h.debugArchInits, List.filterMap_append]
    cases hconfiguration : configurationOf A call with
    | none => simp [hconfiguration]
    | some DebugHob => simp [hconfiguration]
  initialBreakpoints := by
    rw [heffect.initialBreakpoints, h.initialBreakpoints, List.filterMap_append]
    cases hbreakpoint : breakpointOf A (call, result) with
    | none => simp [hbreakpoint]
    | some Timeout => simp [hbreakpoint]

theorem initialize_returns {H : HookPlatform} (hshort : H.mArchExceptionTypes.length < 256)
    (h : LibraryHooks) (uninitialized : Bool) : ∃ b h',
    (debugAgentExceptionInitialize H (Library.rounds H) uninitialized).run h = (some b, h') := by
  obtain ⟨h₁, hdestroyed⟩ :=
    Library.destroyLoop_returns hshort (Library.rounds H) 0 h (by unfold Library.rounds; omega)
  rw [debugAgentExceptionInitialize, run_bind, Library.debugAgentExceptionDestroy, hdestroyed]
  exact Library.initializeLoop_returns hshort _ 0 h₁ uninitialized (Nat.sub_le ..)

/-- Every call returns. -/
theorem returns_call (hshort : A.hooks.mArchExceptionTypes.length < 256) (s : MmAgent)
    (call : AgentCall) : ∃ result s', (initializeDebugAgent A (Library.rounds A.hooks) call).run s =
    (some result, s') := by
  rw [initializeDebugAgent, run_bind, run_get]
  cases call.flag with
  | smm =>
    dsimp only
    rw [initializeSmm]
    cases mmConfiguration A.PcdForceEnableDebugger call.Context with
    | none => exact ⟨_, _, rfl⟩
    | some DebugHob =>
      dsimp only
      by_cases htransport : call.transport = true
      · obtain ⟨b, h', hrun⟩ := initialize_returns hshort s.hooks call.uninitialized
        rw [if_pos htransport, run_bind, run_modify, run_bind, fst_onLibrary]
        dsimp only
        rw [hrun]
        cases b with
        | false => exact ⟨_, _, rfl⟩
        | true => exact ⟨_, _, rfl⟩
      · rw [if_neg htransport]
        exact ⟨_, _, rfl⟩
  | enterSmi =>
    dsimp only
    split
    · exact ⟨_, _, rfl⟩
    · exact ⟨_, _, rfl⟩
  | zero =>
    dsimp only
    split
    · obtain ⟨h', hrun⟩ :=
        Library.destroyLoop_returns hshort (Library.rounds A.hooks) 0 s.hooks
        (by unfold Library.rounds; omega)
      rw [run_bind, fst_onLibrary, Library.debugAgentExceptionDestroy, hrun]
      exact ⟨_, _, rfl⟩
    · exact ⟨_, _, rfl⟩
  | unsupported => exact ⟨_, _, rfl⟩

theorem asCalled_initial : AsCalled A [] .initial :=
  ⟨rfl, fun _ _ => rfl, rfl, rfl, rfl⟩

/-- **The agent of MM is what its calls made of it.**  After every run: it counts as initialized
once a call succeeded, for good; its exceptions are all routed if the last call that got as far as
them succeeded, and else not at all; it polled at each SMI behind the first success; it set up the
processor with the configuration of each call that has one, and made the breakpoints that the
successful ones ask for.  And every call returns if the list of exceptions is shorter than its index
can count. -/
theorem mm_follows_calls (hrun : Run A es s) :
    AsCalled A es s ∧ (A.hooks.mArchExceptionTypes.length < 256 →
      ∀ call, ∃ fuel result s', (initializeDebugAgent A fuel call).run s = (some result, s')) := by
  refine ⟨?_, fun hshort call => ⟨_, returns_call hshort s call⟩⟩
  induction hrun with
  | none => exact asCalled_initial
  | snoc run call fuel returns ih => exact ih.snoc (effect_call returns)

/-- A build that forces the agent on, with two exceptions. -/
def forcedPlatform : AgentPlatform := ⟨⟨[1, 3], fun _ => true⟩, true⟩

/-- The agent after a start, its end, and an SMI. -/
def endedAgent : MmAgent :=
  ((initializeDebugAgent forcedPlatform 9 ⟨.enterSmi, [], true, true⟩).run
    ((initializeDebugAgent forcedPlatform 9 ⟨.zero, [], true, true⟩).run
      ((initializeDebugAgent forcedPlatform 9 ⟨.smm, [], true, true⟩).run .initial).2).2).2

def endedCalls : List (AgentCall × HookResult) :=
  [(⟨.smm, [], true, true⟩, .initialized true), (⟨.zero, [], true, true⟩, .destroyed),
    (⟨.enterSmi, [], true, true⟩, .untouched)]

theorem endedAgent_run : Run forcedPlatform endedCalls endedAgent := by
  have hstart := (Run.none (A := forcedPlatform)).snoc ⟨.smm, [], true, true⟩ 9 rfl
  have hend := hstart.snoc ⟨.zero, [], true, true⟩ 9 rfl
  exact hend.snoc ⟨.enterSmi, [], true, true⟩ 9 rfl

/-- It polled, and nothing is routed. -/
example : endedAgent.polls = 1 ∧ endedAgent.hooks.routed 1 = false ∧
    endedAgent.hooks.routed 3 = false := by decide

theorem mm_follows_calls_ended :
    AsCalled forcedPlatform endedCalls endedAgent ∧
    (forcedPlatform.hooks.mArchExceptionTypes.length < 256 → ∀ call, ∃ fuel result s',
    (initializeDebugAgent forcedPlatform fuel call).run endedAgent = (some result, s')) :=
  mm_follows_calls endedAgent_run

end Mm

/-! ## PEI follows its calls -/

namespace Pei
variable {A : AgentPlatform} {es : List (AgentCall × Bool)} {s s' : PeiAgent} {call : AgentCall}
  {stopped : Bool} {fuel : Nat}

/-- A call gets as far as the exceptions. -/
def Reaches (A : AgentPlatform) (call : AgentCall) : Bool :=
  A.PcdForceEnablePeiDebugger && call.transport && call.handlers

/-- The last call that got as far as the exceptions routed them. -/
def lastStops (A : AgentPlatform) (es : List (AgentCall × Bool)) : Bool :=
  ((es.filter fun e => Reaches A e.1).getLast?.map Prod.snd).getD false

/-- The state is what the calls say. -/
structure AsCalled (A : AgentPlatform) (es : List (AgentCall × Bool)) (s : PeiAgent) : Prop where
  routed : if lastStops A es = true then Library.AllRouted A.hooks s.hooks
    else Library.NoneRouted A.hooks s.hooks
  initialBreakpoints : s.initialBreakpoints = List.replicate (es.countP Prod.snd) 0
  disabled : A.PcdForceEnablePeiDebugger = false → s = .initial

/-- What one call does. -/
structure CallEffect (A : AgentPlatform) (call : AgentCall) (stopped : Bool) (s s' : PeiAgent) :
    Prop where
  untouched : Reaches A call = false → s'.hooks = s.hooks ∧ stopped = false
  routed : Reaches A call = true →
    if stopped = true then Library.AllRouted A.hooks s'.hooks
    else Library.NoneRouted A.hooks s'.hooks
  initialBreakpoints : s'.initialBreakpoints = s.initialBreakpoints ++ if stopped = true then
    [0] else []
  disabled : A.PcdForceEnablePeiDebugger = false → s' = s

theorem fst_onLibrary {α : Type} (m : LibraryM α) (s : PeiAgent) :
    ((onLibrary m).run s).1 = (m.run s.hooks).1 := rfl

/-- Without the default handlers nothing is done; with them all vectors are routed, or none. -/
theorem allOrNone_initialize {h h' : LibraryHooks} {handlers b : Bool}
    (hrun : (debugAgentExceptionInitialize A fuel handlers).run h = (some b, h')) :
    if handlers = true then
      (if b = true then Library.AllRouted A.hooks h' else Library.NoneRouted A.hooks h')
    else h' = h ∧ b = false := by
  rw [debugAgentExceptionInitialize] at hrun
  cases handlers with
  | true => exact Library.allOrNone_initializeLoop hrun
  | false =>
    obtain ⟨hb, rfl⟩ := Prod.mk.inj hrun
    exact ⟨rfl, (Option.some.inj hb).symm⟩

theorem effect_call (hrun : (initializeDebugAgent A fuel call).run s = (some stopped, s')) :
    CallEffect A call stopped s s' := by
  rw [initializeDebugAgent] at hrun
  by_cases henabled : A.PcdForceEnablePeiDebugger = true ∧ call.transport = true
  · have hreaches : Reaches A call = call.handlers := by rw [Reaches, henabled.1, henabled.2]; rfl
    have hdisabled : A.PcdForceEnablePeiDebugger = false → s' = s :=
      fun h => by rw [henabled.1] at h; cases h
    rw [if_pos henabled, run_bind, run_modify, run_bind, fst_onLibrary] at hrun
    dsimp only at hrun
    cases hstatus : ((debugAgentExceptionInitialize A fuel call.handlers).run s.hooks).1 with
    | none =>
      rw [hstatus] at hrun
      cases hrun
    | some b =>
      have hexceptions := allOrNone_initialize (Prod.ext hstatus rfl)
      rw [hstatus] at hrun
      cases b with
      | false =>
        obtain ⟨hstopped, rfl⟩ := Prod.mk.inj hrun
        obtain rfl := Option.some.inj hstopped
        refine ⟨fun h => ?_, fun h => ?_, (List.append_nil _).symm, hdisabled⟩
        · rw [if_neg (by rw [← hreaches, h]; exact Bool.false_ne_true)] at hexceptions
          exact ⟨hexceptions.1, rfl⟩
        · rw [if_pos (hreaches.symm.trans h)] at hexceptions
          exact hexceptions
      | true =>
        obtain ⟨hstopped, rfl⟩ := Prod.mk.inj hrun
        obtain rfl := Option.some.inj hstopped
        refine ⟨fun h => ?_, fun h => ?_, rfl, hdisabled⟩
        · rw [if_neg (by rw [← hreaches, h]; exact Bool.false_ne_true)] at hexceptions
          cases hexceptions.2
        · rw [if_pos (hreaches.symm.trans h)] at hexceptions
          exact hexceptions
  · rw [if_neg henabled] at hrun
    obtain ⟨hstopped, rfl⟩ := Prod.mk.inj hrun
    obtain rfl := Option.some.inj hstopped
    refine ⟨fun _ => ⟨rfl, rfl⟩, fun h => absurd ?_ henabled, (List.append_nil _).symm,
      fun _ => rfl⟩
    simp only [Reaches, Bool.and_eq_true] at h
    exact h.1

/-- One more call. -/
theorem AsCalled.snoc (h : AsCalled A es s) (heffect : CallEffect A call stopped s s') :
    AsCalled A (es ++ [(call, stopped)]) s' where
  routed := by
    rw [lastStops, List.filter_append]
    cases hreaches : Reaches A call with
    | false =>
      rw [(heffect.untouched hreaches).1]
      simpa [hreaches, lastStops] using h.routed
    | true => simpa [hreaches] using heffect.routed hreaches
  initialBreakpoints := by
    rw [heffect.initialBreakpoints, h.initialBreakpoints, List.countP_append, List.countP_singleton,
      ← List.replicate_append_replicate]
    cases stopped with
    | true => rfl
    | false => rfl
  disabled hdisabled := (heffect.disabled hdisabled).trans (h.disabled hdisabled)

/-- Every call returns. -/
theorem returns_call (hshort : A.hooks.mArchExceptionTypes.length < 256) (s : PeiAgent)
    (call : AgentCall) : ∃ stopped s',
    (initializeDebugAgent A (Library.rounds A.hooks) call).run s = (some stopped, s') := by
  rw [initializeDebugAgent]
  by_cases henabled : A.PcdForceEnablePeiDebugger = true ∧ call.transport = true
  · rw [if_pos henabled, run_bind, run_modify, run_bind, fst_onLibrary]
    dsimp only
    rw [debugAgentExceptionInitialize]
    cases call.handlers with
    | false => exact ⟨_, _, rfl⟩
    | true =>
      obtain ⟨b, h', hrun⟩ := Library.initializeLoop_returns hshort _ 0
        { s.hooks with routed := A.initializeCpuExceptionHandlers s.hooks.routed } true
        (Nat.sub_le ..)
      rw [if_pos rfl, run_bind, run_modify, Library.rounds, hrun]
      cases b with
      | false => exact ⟨_, _, rfl⟩
      | true => exact ⟨_, _, rfl⟩
  · rw [if_neg henabled]
    exact ⟨_, _, rfl⟩

/-- **The agent of PEI is what its calls made of it.**  After every run: its exceptions are all
routed if the last call that got as far as them came to its breakpoint, and else not at all; each
such call made one breakpoint, without a timeout; and a build that does not enable the agent has
none.  And every call returns if the list of exceptions is shorter than its index can count. -/
theorem pei_follows_calls (hrun : Run A es s) :
    AsCalled A es s ∧ (A.hooks.mArchExceptionTypes.length < 256 →
      ∀ call, ∃ fuel stopped s',
        (initializeDebugAgent A fuel call).run s = (some stopped, s')) := by
  refine ⟨?_, fun hshort call => ⟨_, returns_call hshort s call⟩⟩
  induction hrun with
  | none => exact ⟨fun _ _ => rfl, rfl, fun _ => rfl⟩
  | snoc run call fuel returns ih => exact ih.snoc (effect_call returns)

/-- The second registration call fails. -/
def failingPlatform : AgentPlatform := ⟨⟨[1, 3], fun n => n != 1⟩, fun _ _ => false, true⟩

theorem pei_follows_calls_failed :
    AsCalled failingPlatform [(⟨true, true⟩, false)]
      ((initializeDebugAgent failingPlatform 9 ⟨true, true⟩).run .initial).2 :=
  (pei_follows_calls (Run.none.snoc ⟨true, true⟩ 9 rfl)).1

end Pei
end UefiDebugger
