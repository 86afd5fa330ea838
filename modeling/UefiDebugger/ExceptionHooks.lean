import UefiDebugger.StateEffect
import Mathlib.Logic.Function.Basic
import Mathlib.Tactic.Set

/-!
# Routing the exceptions

`DebugAgentExceptionInitialize` and `DebugAgentExceptionDestroy` of `DebugAgentDxe.c` and their
callers.  A vector is routed to the debugger through one of two services: the CPU protocol when
`gCpu` is set, the exception library before that.  A service routes a vector until it is called with
`NULL` for it.

The index into `mArchExceptionTypes` is a `UINT8`; a list that is too long for it is walked in
circles.
-/
namespace UefiDebugger
open StateEffect

/-! ## The loops over the vectors

The loops of all phases; the calls of the phase's service are given. -/

section Loops
variable {σ γ : Type}

/-- `Index += 1` of a `UINT8`. -/
def nextIndex (Index : Nat) : Nat := (Index + 1) % 256

/-- The loop of `DebugAgentExceptionDestroy`; `none` when it is still running after so many
rounds. -/
def destroyVectors (mArchExceptionTypes : List Nat) (unregister : (vector : Nat) → StateM σ Unit) :
    (fuel Index : Nat) → StateM σ (Option Unit)
  | 0, _ => pure none
  | fuel + 1, Index =>
      match mArchExceptionTypes[Index]? with
      | none => pure (some ())
      | some vector => do
          unregister vector
          destroyVectors mArchExceptionTypes unregister fuel (nextIndex Index)

/-- The loop of `DebugAgentExceptionInitialize`, with the last status. -/
def initializeVectors (mArchExceptionTypes : List Nat) (register : (vector : Nat) → StateM σ Bool)
    (assertFails : StateM σ Unit) (destroy : (fuel : Nat) → StateM σ (Option Unit)) :
    (fuel Index : Nat) → (Status : Bool) → StateM σ (Option Bool)
  | 0, _, _ => pure none
  | fuel + 1, Index, Status =>
      match mArchExceptionTypes[Index]? with
      | none => pure (some Status)
      | some vector => do
          let Status ← register vector
          if Status = true then
            initializeVectors mArchExceptionTypes register assertFails destroy fuel
              (nextIndex Index) Status
          else do
            assertFails
            let destroyed ← destroy (fuel + 1)
            pure (destroyed.map fun _ => Status)

theorem nextIndex_le (Index : Nat) : nextIndex Index ≤ Index + 1 := Nat.mod_le ..

theorem nextIndex_lt (Index : Nat) : nextIndex Index < 256 := Nat.mod_lt _ (by decide)

variable {types : List Nat} {unregister : Nat → StateM σ Unit}

/-- Where each call takes its vector out of the handlers, the loop takes out those from `Index` on,
puts none back, and keeps what the calls keep. -/
theorem destroyVectors_spec {handlers : σ → Nat → Bool} {I : σ → Prop}
    (hcall : ∀ vector s, I s → I ((unregister vector).run s).2 ∧
      handlers ((unregister vector).run s).2 = Function.update (handlers s) vector false) :
    ∀ (fuel Index : Nat) (s s' : σ), I s → Index < 256 →
      (destroyVectors types unregister fuel Index).run s = (some (), s') →
      I s' ∧ (∀ j, Index ≤ j → ∀ v, types[j]? = some v → handlers s' v = false) ∧
        (∀ v, handlers s v = false → handlers s' v = false) ∧ types.length < 256 := by
  intro fuel
  induction fuel with
  | zero => intro Index s s' _ _ hrun; cases hrun
  | succ fuel ih =>
    intro Index s s' hI hindex hrun
    rw [destroyVectors] at hrun
    cases hget : types[Index]? with
    | none =>
      rw [hget] at hrun
      obtain rfl : s = s' := congrArg Prod.snd hrun
      have hlength := List.getElem?_eq_none_iff.mp hget
      refine ⟨hI, fun j hj v hv => ?_, fun _ h => h, by omega⟩
      have := (List.getElem?_eq_some_iff.mp hv).1
      omega
    | some vector =>
      rw [hget] at hrun
      obtain ⟨hI₁, hhandlers⟩ := hcall vector s hI
      obtain ⟨hI', hrest, hstays, hlength⟩ :=
        ih (nextIndex Index) _ s' hI₁ (nextIndex_lt Index) hrun
      rw [hhandlers] at hstays
      refine ⟨hI', fun j hj v hv => ?_, fun v hv => hstays v ?_, hlength⟩
      · rcases Nat.eq_or_lt_of_le hj with rfl | hlt
        · obtain rfl := Option.some.inj (hget.symm.trans hv)
          exact hstays _ (Function.update_self ..)
        · exact hrest j (Nat.le_trans (nextIndex_le Index) hlt) v hv
      · by_cases hvv : v = vector
        · rw [hvv]
          exact Function.update_self ..
        · exact (Function.update_of_ne hvv ..).trans hv

/-- A list its index can reach the end of is walked to its end. -/
theorem destroyVectors_returns (hshort : types.length < 256) : ∀ (fuel Index : Nat) (s : σ),
    types.length - Index < fuel →
    ∃ s', (destroyVectors types unregister fuel Index).run s = (some (), s') := by
  intro fuel
  induction fuel with
  | zero => intro Index s hfuel; omega
  | succ fuel ih =>
    intro Index s hfuel
    rw [destroyVectors]
    cases hget : types[Index]? with
    | none => exact ⟨s, rfl⟩
    | some vector =>
      have hlt := (List.getElem?_eq_some_iff.mp hget).1
      have hnext : nextIndex Index = Index + 1 := Nat.mod_eq_of_lt (by omega)
      simp only [run_bind, hnext]
      exact ih (Index + 1) _ (by omega)

/-- Whether the loop returns does not depend on the state. -/
theorem destroyVectors_uniform : ∀ (fuel Index : Nat) (s t : σ),
    ((destroyVectors types unregister fuel Index).run s).1 =
    ((destroyVectors types unregister fuel Index).run t).1 := by
  intro fuel
  induction fuel with
  | zero => exact fun _ _ _ => rfl
  | succ fuel ih =>
    intro Index s t
    rw [destroyVectors]
    cases types[Index]? with
    | none => rfl
    | some vector => exact ih _ _ _

variable {π : σ → γ}

theorem keeps_destroyVectors (hcall : ∀ vector, Keeps π (unregister vector)) : ∀ fuel Index,
    Keeps π (destroyVectors types unregister fuel Index) := by
  intro fuel
  induction fuel with
  | zero => exact fun _ => keeps_pure _
  | succ fuel ih =>
    intro Index
    rw [destroyVectors]
    cases types[Index]? with
    | none => exact keeps_pure _
    | some vector => exact keeps_bind (hcall vector) fun _ => ih _

theorem keeps_initializeVectors {register : Nat → StateM σ Bool} {assertFails : StateM σ Unit}
    {destroy : Nat → StateM σ (Option Unit)} (hcall : ∀ vector, Keeps π (register vector))
    (hassert : Keeps π assertFails) (hdestroy : ∀ fuel, Keeps π (destroy fuel)) :
    ∀ fuel Index Status,
    Keeps π (initializeVectors types register assertFails destroy fuel Index Status) := by
  intro fuel
  induction fuel with
  | zero => exact fun _ _ => keeps_pure _
  | succ fuel ih =>
    intro Index Status
    rw [initializeVectors]
    cases types[Index]? with
    | none => exact keeps_pure _
    | some vector =>
      exact keeps_bind (hcall vector) fun b => keeps_ite (ih _ _) (keeps_bind hassert fun _ =>
        keeps_bind (hdestroy _) fun _ => keeps_pure _)

/-- From `Index` on, `k` registrations succeed one after the other; behind them the loop stands at
`Index'`. -/
inductive Registrations (mArchExceptionTypes : List Nat)
    (register : (vector : Nat) → StateM σ Bool) :
    (k Index : Nat) → (s : σ) → (Index' : Nat) → (s' : σ) → Prop
  | start (Index : Nat) (s : σ) : Registrations mArchExceptionTypes register 0 Index s Index s
  | next {k Index Index' vector : Nat} {s s₁ s' : σ}
      (here : mArchExceptionTypes[Index]? = some vector)
      (succeeds : (register vector).run s = (true, s₁))
      (rest : Registrations mArchExceptionTypes register k (nextIndex Index) s₁ Index' s') :
      Registrations mArchExceptionTypes register (k + 1) Index s Index' s'

section Registrations
variable {register : Nat → StateM σ Bool} {k Index Index' : Nat} {s s' : σ}

/-- The loop ends behind the last vector, or undoes everything at the first registration that
fails. -/
theorem initializeVectors_ends {assertFails : StateM σ Unit}
    {destroy : Nat → StateM σ (Option Unit)} :
    ∀ (fuel Index : Nat) (s s' : σ) (Status b : Bool), (Status = true ∨ Index < types.length) →
    (initializeVectors types register assertFails destroy fuel Index Status).run s =
      (some b, s') →
    ∃ k Index' s₁, Registrations types register k Index s Index' s₁ ∧
      if b = true then types[Index']? = none ∧ s' = s₁
      else ∃ vector s₂ fuel, types[Index']? = some vector ∧
        (register vector).run s₁ = (false, s₂) ∧
        (destroy fuel).run (assertFails.run s₂).2 = (some (), s') := by
  intro fuel
  induction fuel with
  | zero => intro Index s s' Status b _ hrun; cases hrun
  | succ fuel ih =>
    intro Index s s' Status b hstatus hrun
    rw [initializeVectors] at hrun
    cases hget : types[Index]? with
    | none =>
      rw [hget] at hrun
      have hlength := List.getElem?_eq_none_iff.mp hget
      obtain rfl : Status = true := hstatus.resolve_right (by omega)
      obtain ⟨hb, rfl⟩ := Prod.mk.inj hrun
      obtain rfl : true = b := Option.some.inj hb
      refine ⟨0, Index, s, .start Index s, ?_⟩
      rw [if_pos rfl]
      exact ⟨hget, rfl⟩
    | some vector =>
      rw [hget] at hrun
      cases hregister : (register vector).run s with
      | mk Status₁ s₁ =>
        simp only [run_bind, hregister] at hrun
        cases Status₁ with
        | true =>
          -- From here on the status is that of a call, so that the end of the list is a success.
          rw [if_pos rfl] at hrun
          obtain ⟨k, Index', s₂, hpassed, hend⟩ := ih _ _ _ _ _ (Or.inl rfl) hrun
          exact ⟨k + 1, Index', s₂, .next hget hregister hpassed, hend⟩
        | false =>
          simp only [Bool.false_eq_true, if_false, run_bind, run_pure] at hrun
          obtain ⟨hb, hs'⟩ := Prod.mk.inj hrun
          obtain ⟨u, hdestroyed, rfl⟩ := Option.map_eq_some_iff.mp hb
          refine ⟨0, Index, s, .start Index s, ?_⟩
          rw [if_neg Bool.false_ne_true]
          exact ⟨vector, s₁, fuel + 1, hget, hregister, Prod.ext hdestroyed hs'⟩

theorem Registrations.index_lt (h : Registrations types register k Index s Index' s')
    (hindex : Index < 256) : Index' < 256 := by
  induction h with
  | start => exact hindex
  | next _ _ _ ih => exact ih (nextIndex_lt _)

/-- Behind the last vector there was a call for each. -/
theorem Registrations.reached (h : Registrations types register k Index s Index' s')
    (hend : types[Index']? = none) : types.length ≤ Index + k := by
  induction h with
  | start => exact List.getElem?_eq_none_iff.mp hend
  | @next k Index _ _ _ _ _ _ _ _ ih =>
    have hrest := ih hend
    have hnext := nextIndex_le Index
    omega

/-- At a vector there is one left, or the index has wrapped around. -/
theorem Registrations.remains (h : Registrations types register k Index s Index' s') {v : Nat}
    (hhere : types[Index']? = some v) : Index + k < types.length ∨ 256 ≤ types.length := by
  induction h with
  | start => exact Or.inl (List.getElem?_eq_some_iff.mp hhere).1
  | @next k Index _ _ _ _ _ here _ _ ih =>
    have hlt := (List.getElem?_eq_some_iff.mp here).1
    by_cases hwrap : Index + 1 < 256
    · have hrest := ih hhere
      rw [nextIndex, Nat.mod_eq_of_lt hwrap] at hrest
      omega
    · exact Or.inr (by omega)

section Handlers
variable {handlers : σ → Nat → Bool}

/-- A call that succeeds adds its vector to the handlers and takes none out. -/
def AddsHandler (handlers : σ → Nat → Bool) (register : Nat → StateM σ Bool) : Prop :=
  ∀ vector s s₁, (register vector).run s = (true, s₁) →
    handlers s₁ vector = true ∧ ∀ v, handlers s v = true → handlers s₁ v = true

theorem Registrations.stays (h : Registrations types register k Index s Index' s')
    (hadds : AddsHandler handlers register) {v : Nat} (hv : handlers s v = true) :
    handlers s' v = true := by
  induction h with
  | start => exact hv
  | next _ succeeds _ ih => exact ih ((hadds _ _ _ succeeds).2 v hv)

theorem Registrations.first (h : Registrations types register k Index s Index' s')
    (hadds : AddsHandler handlers register) (hk : 0 < k) {v : Nat} (hv : types[Index]? = some v) :
    handlers s' v = true := by
  cases h with
  | start => exact absurd hk (Nat.lt_irrefl 0)
  | next here succeeds rest =>
    obtain rfl := Option.some.inj (here.symm.trans hv)
    exact rest.stays hadds (hadds _ _ _ succeeds).1

/-- Behind the last vector all vectors from the first on are handled. -/
theorem Registrations.all (h : Registrations types register k Index s Index' s')
    (hadds : AddsHandler handlers register) (hend : types[Index']? = none) :
    ∀ j, Index ≤ j → ∀ v, types[j]? = some v → handlers s' v = true := by
  induction h with
  | start =>
    intro j hj v hv
    have hlt := (List.getElem?_eq_some_iff.mp hv).1
    have hlength := List.getElem?_eq_none_iff.mp hend
    omega
  | @next k Index _ _ _ _ _ here succeeds rest ih =>
    intro j hj v hv
    rcases Nat.eq_or_lt_of_le hj with rfl | hlt
    · obtain rfl := Option.some.inj (here.symm.trans hv)
      exact rest.stays hadds (hadds _ _ _ succeeds).1
    · exact ih hend j (Nat.le_trans (nextIndex_le Index) hlt) v hv

end Handlers
end Registrations

end Loops

/-! ## The state -/

/-- Which vectors each service routes to `DebuggerExceptionHandler`, and the globals.
`registrations` counts the registration calls made. -/
structure ExceptionHooks where
  gCpu : Bool
  cpuHandlers : Nat → Bool
  libraryHandlers : Nat → Bool
  registrations : Nat
  mDebuggerInitialized : Bool
  failedAsserts : List String

/-- Before the first call. -/
def ExceptionHooks.initial : ExceptionHooks := ⟨false, fun _ => false, fun _ => false, 0, false, []⟩

/-- A program on it. -/
abbrev HookM := StateM ExceptionHooks

/-- What the phase is compiled and linked with: the entries of `mArchExceptionTypes` in front of its
end, and the status of each registration call. -/
structure HookPlatform where
  mArchExceptionTypes : List Nat
  succeeds : Nat → Bool

/-- A vector is routed. -/
def ExceptionHooks.routed (s : ExceptionHooks) (vector : Nat) : Bool :=
  s.cpuHandlers vector || s.libraryHandlers vector

/-! ## The functions -/

/-- `gCpu->RegisterInterruptHandler` or `RegisterCpuInterruptHandler` with the handler. -/
def registerHandler (H : HookPlatform) (vector : Nat) : HookM Bool := modifyGet fun s =>
  if H.succeeds s.registrations = true then
    (true, if s.gCpu = true then
        { s with
          registrations := s.registrations + 1
          cpuHandlers := Function.update s.cpuHandlers vector true }
      else
        { s with
          registrations := s.registrations + 1
          libraryHandlers := Function.update s.libraryHandlers vector true })
  else (false, { s with registrations := s.registrations + 1 })

/-- The same call with `NULL`, as `DebugAgentExceptionDestroy` selects it. -/
def unregisterHandler (vector : Nat) : HookM Unit := modify fun s =>
  if s.gCpu = true then { s with cpuHandlers := Function.update s.cpuHandlers vector false }
  else { s with libraryHandlers := Function.update s.libraryHandlers vector false }

/-- The loop of `DebugAgentExceptionDestroy`. -/
def destroyLoop (H : HookPlatform) : (fuel Index : Nat) → HookM (Option Unit) :=
  destroyVectors H.mArchExceptionTypes unregisterHandler

/-- `DebugAgentExceptionDestroy`. -/
def debugAgentExceptionDestroy (H : HookPlatform) (fuel : Nat) : HookM (Option Unit) := do
  let s ← get
  if s.gCpu = true then destroyLoop H fuel 0 else pure (some ())

/-- The loop of `DebugAgentExceptionInitialize`. -/
def initializeLoop (H : HookPlatform) : (fuel Index : Nat) → (Status : Bool) →
    HookM (Option Bool) :=
  initializeVectors H.mArchExceptionTypes (registerHandler H)
    (modify fun s => { s with failedAsserts := s.failedAsserts ++ ["ASSERT_EFI_ERROR (Status)"] })
    (debugAgentExceptionDestroy H)

/-- `DebugAgentExceptionInitialize`.  For an empty list it returns a `Status` it never set. -/
def debugAgentExceptionInitialize (H : HookPlatform) (fuel : Nat) (uninitialized : Bool) :
    HookM (Option Bool) := do
  let destroyed ← debugAgentExceptionDestroy H fuel
  match destroyed with
  | none => pure none
  | some () => initializeLoop H fuel 0 uninitialized

/-! ## The callers -/

/-- What a caller did with the hooks. -/
inductive HookResult where
  | untouched
  | initialized (Status : Bool)
  | destroyed

/-- The events that reach them; DXE core sets `gCpu` as well.  The status of `LocateProtocol`,
whether `DEBUG_AGENT_INIT_DXE_CORE` gets as far as the hooks, and what `Status` held, are given. -/
inductive HookEvent where
  | initializeDxeCore (enabled : Bool) (uninitialized : Bool)
  | initializeZero
  | cpuInstalled
  | cpuArchProtocol (located : Bool) (uninitialized : Bool)
  | exitBootServices

/-- `OnExitBootServices`. -/
def onExitBootServices (H : HookPlatform) (fuel : Nat) : HookM (Option Unit) :=
  debugAgentExceptionDestroy H fuel

/-- `OnCpuArchProtocolNotification`.  A `LocateProtocol` that fails is assumed to leave `gCpu` as it
was. -/
def onCpuArchProtocolNotification (H : HookPlatform) (fuel : Nat) (located uninitialized : Bool) :
    HookM (Option HookResult) :=
  if located = true then do
    modify fun s => { s with gCpu := true }
    let Status ← debugAgentExceptionInitialize H fuel uninitialized
    match Status with
    | none => pure none
    | some true => pure (some (.initialized true))
    | some false => do
        modify fun s => { s with failedAsserts := s.failedAsserts ++ ["ASSERT_EFI_ERROR (Status)"] }
        let destroyed ← onExitBootServices H fuel
        pure (destroyed.map fun _ => .initialized false)
  else pure (some .untouched)

/-- `InitializeDebugAgent` with `DEBUG_AGENT_INIT_DXE_CORE`. -/
def initializeDebugAgentDxeCore (H : HookPlatform) (fuel : Nat) (enabled uninitialized : Bool) :
    HookM (Option HookResult) :=
  if enabled = true then do
    let Status ← debugAgentExceptionInitialize H fuel uninitialized
    match Status with
    | none => pure none
    | some false => pure (some (.initialized false))
    | some true => do
        modify fun s => { s with mDebuggerInitialized := true }
        pure (some (.initialized true))
  else pure (some .untouched)

/-- `InitializeDebugAgent` with `0`. -/
def initializeDebugAgentZero (H : HookPlatform) (fuel : Nat) : HookM (Option HookResult) := do
  let s ← get
  if s.mDebuggerInitialized = true then do
    let destroyed ← onExitBootServices H fuel
    pure (destroyed.map fun _ => .destroyed)
  else pure (some .untouched)

/-- An event. -/
def hookStep (H : HookPlatform) (fuel : Nat) : HookEvent → HookM (Option HookResult)
  | .initializeDxeCore enabled uninitialized =>
      initializeDebugAgentDxeCore H fuel enabled uninitialized
  | .initializeZero => initializeDebugAgentZero H fuel
  | .cpuInstalled => do
      modify fun s => { s with gCpu := true }
      pure (some .untouched)
  | .cpuArchProtocol located uninitialized =>
      onCpuArchProtocolNotification H fuel located uninitialized
  | .exitBootServices => do
      let destroyed ← onExitBootServices H fuel
      pure (destroyed.map fun _ => .destroyed)

/-! ## Destroying -/

section Hooks
variable {H : HookPlatform} {s s' : ExceptionHooks} {fuel : Nat}

/-- No vector of the list is routed. -/
def NoneRouted (H : HookPlatform) (s : ExceptionHooks) : Prop :=
  ∀ v ∈ H.mArchExceptionTypes, s.routed v = false

/-- Every vector of the list is routed. -/
def AllRouted (H : HookPlatform) (s : ExceptionHooks) : Prop :=
  ∀ v ∈ H.mArchExceptionTypes, s.routed v = true

/-- No vector of the list is routed by the library. -/
def LibraryFree (H : HookPlatform) (s : ExceptionHooks) : Prop :=
  ∀ v ∈ H.mArchExceptionTypes, s.libraryHandlers v = false

/-- No vector of the list is routed by the CPU protocol. -/
def CpuFree (H : HookPlatform) (s : ExceptionHooks) : Prop :=
  ∀ v ∈ H.mArchExceptionTypes, s.cpuHandlers v = false

theorem noneRouted_iff : NoneRouted H s ↔ CpuFree H s ∧ LibraryFree H s := by
  unfold NoneRouted CpuFree LibraryFree ExceptionHooks.routed
  simp only [Bool.or_eq_false_iff]
  exact forall₂_and

/-- The loop of `DebugAgentExceptionDestroy` takes the vectors from `Index` on away from the CPU
protocol, and leaves the library alone. -/
structure Destroyed (H : HookPlatform) (Index : Nat) (s s' : ExceptionHooks) : Prop where
  cpu : ∀ j, Index ≤ j → ∀ v, H.mArchExceptionTypes[j]? = some v → s'.cpuHandlers v = false
  shrinks : ∀ v, s.cpuHandlers v = false → s'.cpuHandlers v = false
  library : s'.libraryHandlers = s.libraryHandlers
  rest : s'.gCpu = s.gCpu ∧ s'.registrations = s.registrations

theorem destroyLoop_spec (H : HookPlatform) (fuel Index : Nat) (s s' : ExceptionHooks)
    (hcpu : s.gCpu = true) (hindex : Index < 256)
    (hrun : (destroyLoop H fuel Index).run s = (some (), s')) : Destroyed H Index s s' ∧
    H.mArchExceptionTypes.length < 256 := by
  have hcall : ∀ vector (t : ExceptionHooks),
      (t.gCpu, t.libraryHandlers, t.registrations) = (true, s.libraryHandlers, s.registrations) →
      (((unregisterHandler vector).run t).2.gCpu,
          ((unregisterHandler vector).run t).2.libraryHandlers,
          ((unregisterHandler vector).run t).2.registrations) =
        (true, s.libraryHandlers, s.registrations) ∧
        ((unregisterHandler vector).run t).2.cpuHandlers =
          Function.update t.cpuHandlers vector false := by
    intro vector t ht
    rw [unregisterHandler, run_modify, if_pos (Prod.mk.inj ht).1]
    exact ⟨ht, rfl⟩
  obtain ⟨hkept, hcleared, hshrinks, hlength⟩ :=
    destroyVectors_spec hcall fuel Index s s' (by rw [hcpu]) hindex hrun
  obtain ⟨hcpu', hlibrary, hcount⟩ : s'.gCpu = true ∧ s'.libraryHandlers = s.libraryHandlers ∧
      s'.registrations = s.registrations := by simpa using hkept
  exact ⟨⟨hcleared, hshrinks, hlibrary, hcpu'.trans hcpu.symm, hcount⟩, hlength⟩

theorem cpuFree_of_destroyed (h : Destroyed H 0 s s') : CpuFree H s' := by
  intro v hv
  obtain ⟨j, hj⟩ := List.getElem?_of_mem hv
  exact h.cpu j (Nat.zero_le j) v hj

/-- What `DebugAgentExceptionDestroy` does when it returns. -/
theorem destroy_spec (hrun : (debugAgentExceptionDestroy H fuel).run s = (some (), s')) :
    s'.libraryHandlers = s.libraryHandlers ∧
    (s'.gCpu = s.gCpu ∧ s'.registrations = s.registrations) ∧
      (s.gCpu = true → CpuFree H s' ∧ H.mArchExceptionTypes.length < 256) ∧
      (s.gCpu = false → s' = s) := by
  rw [debugAgentExceptionDestroy, run_bind, run_get] at hrun
  cases hcpu : s.gCpu with
  | true =>
    simp only [hcpu, if_true] at hrun
    obtain ⟨hspec, hshort⟩ := destroyLoop_spec H fuel 0 s s' hcpu (by decide) hrun
    exact ⟨hspec.library, ⟨hspec.rest.1.trans hcpu, hspec.rest.2⟩,
      fun _ => ⟨cpuFree_of_destroyed hspec, hshort⟩,
      fun h => (by cases h)⟩
  | false =>
    simp only [hcpu, Bool.false_eq_true, if_false] at hrun
    obtain rfl : s = s' := congrArg Prod.snd hrun
    exact ⟨rfl, ⟨hcpu, rfl⟩, fun h => (by cases h), fun _ => rfl⟩

/-- `DebugAgentExceptionDestroy` returns when there is nothing to do, or the list is short. -/
theorem destroy_returns (fuel : Nat) (h : s.gCpu = false ∨ H.mArchExceptionTypes.length < 256)
    (hfuel : 256 < fuel) : ∃ s', (debugAgentExceptionDestroy H fuel).run s = (some (), s') := by
  rw [debugAgentExceptionDestroy, run_bind, run_get]
  cases hcpu : s.gCpu with
  | true =>
    rcases h with h | h
    · rw [hcpu] at h
      cases h
    · simp only [if_true]
      exact destroyVectors_returns h fuel 0 s (by omega)
  | false =>
    simp only [Bool.false_eq_true, if_false]
    exact ⟨s, rfl⟩

/-- What is routed does not outlive a `DebugAgentExceptionDestroy`: with `gCpu` set the library
routes nothing, and without it nothing is routed at all. -/
def DestroyClean (H : HookPlatform) (s : ExceptionHooks) : Prop :=
  (s.gCpu = true → H.mArchExceptionTypes.length < 256 → LibraryFree H s) ∧
  (s.gCpu = false → NoneRouted H s)

theorem destroy_noneRouted (h : DestroyClean H s)
    (hrun : (debugAgentExceptionDestroy H fuel).run s = (some (), s')) :
    NoneRouted H s' := by
  obtain ⟨hlibrary, -, hset, hunset⟩ := destroy_spec hrun
  cases hcpu : s.gCpu with
  | true =>
    obtain ⟨hfree, hshort⟩ := hset hcpu
    refine noneRouted_iff.mpr ⟨hfree, fun v hv => ?_⟩
    rw [hlibrary]
    exact h.1 hcpu hshort v hv
  | false =>
    rw [hunset hcpu]
    exact h.2 hcpu

/-- **When nothing is left behind.** -/
theorem destroy_iff :
    (∀ fuel s', (debugAgentExceptionDestroy H fuel).run s = (some (), s') → NoneRouted H s') ↔
    DestroyClean H s := by
  constructor
  · intro h
    constructor
    · intro hcpu hshort v hv
      obtain ⟨s', hrun⟩ := destroy_returns (s := s) 257 (Or.inr hshort) (by decide)
      have hnone := noneRouted_iff.mp (h _ s' hrun)
      rw [← (destroy_spec hrun).1]
      exact hnone.2 v hv
    · intro hcpu
      obtain ⟨s', hrun⟩ := destroy_returns (H := H) (s := s) 257 (Or.inl hcpu) (by decide)
      have hsame := (destroy_spec hrun).2.2.2 hcpu
      rw [← hsame]
      exact h _ s' hrun
  · exact fun h fuel s' hrun => destroy_noneRouted h hrun

/-! ## Initializing -/

/-- What registering vectors does: one service routes more of them, and the other is left alone. -/
structure Registered (s s₁ : ExceptionHooks) : Prop where
  gCpu : s₁.gCpu = s.gCpu
  cpu : ∀ v, s.cpuHandlers v = true → s₁.cpuHandlers v = true
  library : ∀ v, s.libraryHandlers v = true → s₁.libraryHandlers v = true
  cpuAlone : s.gCpu = false → s₁.cpuHandlers = s.cpuHandlers
  libraryAlone : s.gCpu = true → s₁.libraryHandlers = s.libraryHandlers

theorem registered_refl (s : ExceptionHooks) : Registered s s :=
  ⟨rfl, fun _ h => h, fun _ h => h, fun _ => rfl, fun _ => rfl⟩

theorem Registered.trans {s₁ s₂ : ExceptionHooks} (h : Registered s s₁) (h' : Registered s₁ s₂) :
    Registered s s₂ where
  gCpu := h'.gCpu.trans h.gCpu
  cpu v hv := h'.cpu v (h.cpu v hv)
  library v hv := h'.library v (h.library v hv)
  cpuAlone hcpu := (h'.cpuAlone (h.gCpu.trans hcpu)).trans (h.cpuAlone hcpu)
  libraryAlone hcpu := (h'.libraryAlone (h.gCpu.trans hcpu)).trans (h.libraryAlone hcpu)

theorem Registered.routed {s₁ : ExceptionHooks} (h : Registered s s₁) {v : Nat}
    (hv : s.routed v = true) : s₁.routed v = true := by
  unfold ExceptionHooks.routed at *
  rcases Bool.or_eq_true_iff.mp hv with hcpu | hlibrary
  · rw [h.cpu v hcpu, Bool.true_or]
  · rw [h.library v hlibrary, Bool.or_true]

theorem update_true_of_true {f : Nat → Bool} {v w : Nat} (h : f w = true) :
    Function.update f v true w = true := by
  by_cases hw : w = v
  · rw [hw]
    exact Function.update_self ..
  · exact (Function.update_of_ne hw ..).trans h

/-- A registration that succeeds. -/
theorem registerHandler_succeeds (vector : Nat) (h : H.succeeds s.registrations = true) :
    ∃ s₁, (registerHandler H vector).run s = (true, s₁) ∧ Registered s s₁ ∧
      s₁.routed vector = true ∧ s₁.registrations = s.registrations + 1 := by
  rw [registerHandler, run_modifyGet, if_pos h]
  by_cases hcpu : s.gCpu = true
  · rw [if_pos hcpu]
    refine ⟨_, rfl,
      ⟨rfl, fun v hv => update_true_of_true hv, fun v hv => hv, fun h => ?_, fun _ => rfl⟩, ?_, rfl⟩
    · rw [hcpu] at h
      cases h
    · exact Bool.or_eq_true_iff.mpr (Or.inl (Function.update_self ..))
  · rw [if_neg hcpu]
    refine ⟨_, rfl,
      ⟨rfl, fun v hv => hv, fun v hv => update_true_of_true hv, fun _ => rfl, fun h => ?_⟩, ?_, rfl⟩
    · exact absurd h hcpu
    · exact Bool.or_eq_true_iff.mpr (Or.inr (Function.update_self ..))

theorem registerHandler_succeeded {vector : Nat} {s₁ : ExceptionHooks}
    (hrun : (registerHandler H vector).run s = (true, s₁)) :
    H.succeeds s.registrations = true ∧ Registered s s₁ ∧ s₁.routed vector = true ∧
      s₁.registrations = s.registrations + 1 := by
  by_cases h : H.succeeds s.registrations = true
  · obtain ⟨s₂, hrun₂, hregistered⟩ := registerHandler_succeeds vector h
    obtain rfl : s₁ = s₂ := congrArg Prod.snd (hrun.symm.trans hrun₂)
    exact ⟨h, hregistered⟩
  · rw [registerHandler, run_modifyGet, if_neg h] at hrun
    cases hrun

theorem registerHandler_fails {vector : Nat} {s₁ : ExceptionHooks}
    (hrun : (registerHandler H vector).run s = (false, s₁)) :
    H.succeeds s.registrations = false ∧
      s₁ = { s with registrations := s.registrations + 1 } := by
  rw [registerHandler, run_modifyGet] at hrun
  by_cases h : H.succeeds s.registrations = true
  · rw [if_pos h] at hrun
    cases hrun
  · rw [if_neg h] at hrun
    exact ⟨Bool.not_eq_true _ ▸ h, (congrArg Prod.snd hrun).symm⟩

theorem addsHandler_registerHandler : AddsHandler ExceptionHooks.routed (registerHandler H) := by
  intro vector s s₁ hrun
  obtain ⟨-, hregistered, hrouted, -⟩ := registerHandler_succeeded hrun
  exact ⟨hrouted, fun v hv => hregistered.routed hv⟩

/-- The registrations in front of one that fails, or of the end. -/
theorem Registrations.registered {k Index Index' : Nat}
    (h : Registrations H.mArchExceptionTypes (registerHandler H) k Index s Index' s') :
    Registered s s' ∧ s'.registrations = s.registrations + k ∧
      ∀ i < k, H.succeeds (s.registrations + i) = true := by
  induction h with
  | start => exact ⟨registered_refl _, rfl, fun i hi => absurd hi (Nat.not_lt_zero i)⟩
  | next _ succeeds _ ih =>
    obtain ⟨hcall, hregistered, -, hcount⟩ := registerHandler_succeeded succeeds
    obtain ⟨hrest, hcounts, hbefore⟩ := ih
    refine ⟨hregistered.trans hrest, by omega, fun i hi => ?_⟩
    cases i with
    | zero => exact hcall
    | succ i =>
      have hnext := hbefore i (by omega)
      rwa [hcount, Nat.add_assoc, Nat.add_comm 1 i] at hnext

/-- How the loop ends.  Either every call was made and succeeded; or one failed, and
`DebugAgentExceptionDestroy` returned from what the calls in front of it left. -/
inductive LoopOutcome (H : HookPlatform) (Index : Nat) (s s' : ExceptionHooks) : Bool → Prop
  | success (short : H.mArchExceptionTypes.length < 256) (registered : Registered s s')
      (all : ∀ j, Index ≤ j → ∀ v, H.mArchExceptionTypes[j]? = some v → s'.routed v = true)
      (calls : ∀ k, Index + k < H.mArchExceptionTypes.length →
        H.succeeds (s.registrations + k) = true) :
      LoopOutcome H Index s s' true
  | failure (k : Nat)
      (made : Index + k < H.mArchExceptionTypes.length ∨ 256 ≤ H.mArchExceptionTypes.length)
      (fails : H.succeeds (s.registrations + k) = false)
      (before : ∀ i < k, H.succeeds (s.registrations + i) = true) (s₁ : ExceptionHooks)
      (registered : Registered s s₁)
      (first : 0 < k → ∀ v, H.mArchExceptionTypes[Index]? = some v → s₁.routed v = true)
      (unchanged : k = 0 → ∀ v, s₁.routed v = s.routed v)
      (destroyed : ∃ fuel, (debugAgentExceptionDestroy H fuel).run s₁ = (some (), s')) :
      LoopOutcome H Index s s' false

theorem initializeLoop_spec (H : HookPlatform) (fuel Index : Nat) (s s' : ExceptionHooks)
    (Status b : Bool) (hindex : Index < 256)
    (hstatus : Status = true ∨ Index < H.mArchExceptionTypes.length)
    (hrun : (initializeLoop H fuel Index Status).run s = (some b, s')) :
    LoopOutcome H Index s s' b := by
  obtain ⟨k, Index', s₁, hpassed, hend⟩ := initializeVectors_ends _ _ _ _ _ _ hstatus hrun
  obtain ⟨hregistered, hcount, hbefore⟩ := hpassed.registered
  cases b with
  | true =>
    rw [if_pos rfl] at hend
    obtain ⟨hnone, rfl⟩ := hend
    have hlength := List.getElem?_eq_none_iff.mp hnone
    have hbehind := hpassed.index_lt hindex
    have hreached := hpassed.reached hnone
    exact .success (by omega) hregistered (hpassed.all addsHandler_registerHandler hnone)
      fun i hi => hbefore i (by omega)
  | false =>
    rw [if_neg Bool.false_ne_true] at hend
    obtain ⟨vector, s₂, n, hhere, hfailed, hdestroyed⟩ := hend
    obtain ⟨hfails, rfl⟩ := registerHandler_fails hfailed
    rw [hcount] at hfails
    -- The failed call and its assertion leave the handlers as the calls in front of them did.
    refine .failure k (hpassed.remains hhere) hfails hbefore
      { s₁ with
        registrations := s₁.registrations + 1
        failedAsserts := s₁.failedAsserts ++ ["ASSERT_EFI_ERROR (Status)"] }
      ⟨hregistered.gCpu, hregistered.cpu, hregistered.library, hregistered.cpuAlone,
        hregistered.libraryAlone⟩
      (fun hk v hv => hpassed.first addsHandler_registerHandler hk hv) (fun hk v => ?_)
      ⟨n, hdestroyed⟩
    subst hk
    cases hpassed
    rfl

/-- A call of the pattern is made, unless one in front of it fails. -/
def CallMade (H : HookPlatform) (k : Nat) : Prop :=
  k < H.mArchExceptionTypes.length ∨ 256 ≤ H.mArchExceptionTypes.length

theorem initializeLoop_returns_first {Index : Nat} {Status : Bool}
    (hfails : ¬ H.succeeds s.registrations = true)
    (hreturns : s.gCpu = false ∨ H.mArchExceptionTypes.length < 256) (hfuel : 256 < fuel) :
    ∃ b s', (initializeLoop H fuel Index Status).run s = (some b, s') := by
  obtain ⟨fuel, rfl⟩ : ∃ n, fuel = n + 1 := ⟨fuel - 1, by omega⟩
  rw [initializeLoop, initializeVectors]
  cases H.mArchExceptionTypes[Index]? with
  | none => exact ⟨Status, s, rfl⟩
  | some vector =>
    have hregister : (registerHandler H vector).run s =
        (false, { s with registrations := s.registrations + 1 }) := by
      rw [registerHandler, run_modifyGet, if_neg hfails]
    obtain ⟨s', hdestroy⟩ := destroy_returns (H := H) (s := { s with
      registrations := s.registrations + 1
      failedAsserts := s.failedAsserts ++ ["ASSERT_EFI_ERROR (Status)"] }) (fuel + 1) hreturns hfuel
    refine ⟨false, s', ?_⟩
    simp only [run_bind, hregister, Bool.false_eq_true, if_false, run_modify, run_pure, hdestroy]
    rfl

/-- The loop returns if a call fails and `DebugAgentExceptionDestroy` would return. -/
theorem initializeLoop_returns (H : HookPlatform) :
    ∀ (k fuel Index : Nat) (s : ExceptionHooks) (Status : Bool),
    H.succeeds (s.registrations + k) = false →
    (s.gCpu = false ∨ H.mArchExceptionTypes.length < 256) → k + 256 < fuel →
    ∃ b s', (initializeLoop H fuel Index Status).run s = (some b, s') := by
  intro k
  induction k with
  | zero =>
    intro fuel Index s Status hfails hreturns hfuel
    refine initializeLoop_returns_first (fun h => ?_) hreturns (by omega)
    rw [Nat.add_zero, h] at hfails
    cases hfails
  | succ k ih =>
    intro fuel Index s Status hfails hreturns hfuel
    by_cases hfirst : H.succeeds s.registrations = true
    · obtain ⟨fuel, rfl⟩ : ∃ n, fuel = n + 1 := ⟨fuel - 1, by omega⟩
      rw [initializeLoop, initializeVectors]
      cases H.mArchExceptionTypes[Index]? with
      | none => exact ⟨Status, s, rfl⟩
      | some vector =>
        obtain ⟨s₁, hregister, hregistered, -, hcount⟩ := registerHandler_succeeds vector hfirst
        simp only [run_bind, hregister, if_true]
        refine ih fuel (nextIndex Index) s₁ true ?_ ?_ (by omega)
        · rwa [hcount, Nat.add_assoc, Nat.add_comm 1 k]
        · rwa [hregistered.gCpu]
    · exact initializeLoop_returns_first hfirst hreturns (by omega)

/-- Initialization leaves nothing behind when it fails.  With `gCpu` set the library routes nothing;
without it nothing is routed, and it is the first call that fails. -/
def InitializeClean (H : HookPlatform) (s : ExceptionHooks) : Prop :=
  ∀ k, CallMade H k → H.succeeds (s.registrations + k) = false →
    (s.gCpu = true → H.mArchExceptionTypes.length < 256 → LibraryFree H s) ∧
      (s.gCpu = false → NoneRouted H s ∧ H.succeeds s.registrations = false)

/-- After an error nothing is routed, and after success everything is. -/
def InitializeRight (H : HookPlatform) (uninitialized : Bool) (s : ExceptionHooks) : Prop :=
  ∀ fuel b s', (debugAgentExceptionInitialize H fuel uninitialized).run s = (some b, s') →
    if b = true then AllRouted H s' else NoneRouted H s'

/-- A call of `DebugAgentExceptionInitialize` that returns is a call of `DebugAgentExceptionDestroy`
and the loop. -/
theorem initialize_split {uninitialized b : Bool}
    (hrun : (debugAgentExceptionInitialize H fuel uninitialized).run s = (some b, s')) :
    ∃ s₁, (debugAgentExceptionDestroy H fuel).run s = (some (), s₁) ∧
      (initializeLoop H fuel 0 uninitialized).run s₁ = (some b, s') := by
  rw [debugAgentExceptionInitialize, run_bind] at hrun
  cases hdestroyed : ((debugAgentExceptionDestroy H fuel).run s).1 with
  | none =>
    rw [hdestroyed] at hrun
    cases hrun
  | some u =>
    rw [hdestroyed] at hrun
    exact ⟨_, Prod.ext hdestroyed rfl, hrun⟩

theorem initialize_join {uninitialized b : Bool} {s₁ : ExceptionHooks}
    (hdestroy : (debugAgentExceptionDestroy H fuel).run s = (some (), s₁))
    (hloop : (initializeLoop H fuel 0 uninitialized).run s₁ = (some b, s')) :
    (debugAgentExceptionInitialize H fuel uninitialized).run s = (some b, s') := by
  rw [debugAgentExceptionInitialize, run_bind, hdestroy]
  exact hloop

/-- What a failed initialization leaves, with `gCpu` set: what the library routed. -/
theorem failed_with_cpu {s₁ : ExceptionHooks} {k : Nat} (hcpu : s.gCpu = true)
    (hregistered : Registered s s₁)
    (hdestroyed : (debugAgentExceptionDestroy H k).run s₁ = (some (), s')) : NoneRouted H s' ↔
    LibraryFree H s := by
  have hcpu₁ := hregistered.gCpu.trans hcpu
  obtain ⟨hlibrary, -, hset, -⟩ := destroy_spec hdestroyed
  rw [noneRouted_iff, show LibraryFree H s' ↔ LibraryFree H s from by
    unfold LibraryFree
    rw [hlibrary, hregistered.libraryAlone hcpu]]
  exact and_iff_right (hset hcpu₁).1

/-- Without `gCpu` nothing is undone. -/
theorem failed_without_cpu {s₁ : ExceptionHooks} {k : Nat} (hcpu : s.gCpu = false)
    (hregistered : Registered s s₁)
    (hdestroyed : (debugAgentExceptionDestroy H k).run s₁ = (some (), s')) : s' = s₁ :=
  (destroy_spec hdestroyed).2.2.2 (hregistered.gCpu.trans hcpu)

theorem initialize_right {uninitialized : Bool} (h : InitializeClean H s) :
    InitializeRight H uninitialized s := by
  intro fuel b s' hrun
  obtain ⟨s₀, hdestroy, hloop⟩ := initialize_split hrun
  obtain ⟨hlibrary, ⟨hcpu₀, hcount₀⟩, hset, hunset⟩ := destroy_spec hdestroy
  rcases Nat.eq_zero_or_pos H.mArchExceptionTypes.length with hempty | hpos
  · -- Nothing is said of an empty list, whose status is not set.
    obtain hnil := List.length_eq_zero_iff.mp hempty
    unfold AllRouted NoneRouted
    rw [hnil]
    split
    · exact fun v hv => by cases hv
    · exact fun v hv => by cases hv
  · cases initializeLoop_spec H fuel 0 s₀ s' uninitialized b (by decide) (Or.inr hpos) hloop with
    | success short registered all calls =>
      rw [if_pos rfl]
      intro v hv
      obtain ⟨j, hj⟩ := List.getElem?_of_mem hv
      exact all j (Nat.zero_le j) v hj
    | failure k made fails before s₁ registered first unchanged destroyed =>
      rw [if_neg Bool.false_ne_true]
      obtain ⟨n, hdestroyed⟩ := destroyed
      rw [Nat.zero_add] at made
      rw [hcount₀] at fails
      obtain ⟨hwith, hwithout⟩ := h k made fails
      cases hcpu : s.gCpu with
      | true =>
        refine (failed_with_cpu (hcpu₀.trans hcpu) registered hdestroyed).mpr ?_
        unfold LibraryFree
        rw [hlibrary]
        exact hwith hcpu (hset hcpu).2
      | false =>
        obtain ⟨hnone, hfirst⟩ := hwithout hcpu
        rw [failed_without_cpu (hcpu₀.trans hcpu) registered hdestroyed]
        -- The first call fails, so none was made in front of the one that failed.
        obtain rfl : k = 0 := by
          by_contra hk
          have hsucceeds := before 0 (by omega)
          rw [hcount₀, Nat.add_zero, hfirst] at hsucceeds
          cases hsucceeds
        intro v hv
        rw [unchanged rfl v, hunset hcpu]
        exact hnone v hv

/-- **When initialization is all or nothing.** -/
theorem initialize_iff {uninitialized : Bool} : InitializeRight H uninitialized s ↔
    InitializeClean H s := by
  refine ⟨fun h k hmade hfails => ?_, initialize_right⟩
  have hpos : 0 < H.mArchExceptionTypes.length := by
    rcases hmade with hmade | hmade <;> omega
  -- The call returns, and it does not succeed.
  have hfailed : (s.gCpu = false ∨ H.mArchExceptionTypes.length < 256) →
      ∃ s₀ s', s₀.gCpu = s.gCpu ∧ s₀.registrations = s.registrations ∧
      s₀.libraryHandlers = s.libraryHandlers ∧ (s.gCpu = false → s₀ = s) ∧
      LoopOutcome H 0 s₀ s' false ∧ NoneRouted H s' := by
    intro hreturns
    obtain ⟨s₀, hdestroy⟩ := destroy_returns (k + 257) hreturns (by omega)
    obtain ⟨hlibrary, ⟨hcpu₀, hcount₀⟩, hset, hunset⟩ := destroy_spec hdestroy
    obtain ⟨b, s', hloop⟩ :=
      initializeLoop_returns H k (k + 257) 0 s₀ uninitialized (by rwa [hcount₀]) (by rwa [hcpu₀])
      (by omega)
    have houtcome := initializeLoop_spec H _ 0 s₀ s' uninitialized b (by decide) (Or.inr hpos) hloop
    have hright := h _ b s' (initialize_join hdestroy hloop)
    cases b with
    | true =>
      cases houtcome with
      | success short registered all calls =>
        have hlt : k < H.mArchExceptionTypes.length := by
          rcases hmade with hmade | hmade <;> omega
        have := calls k (by omega)
        rw [hcount₀, hfails] at this
        cases this
    | false => exact ⟨s₀, s', hcpu₀, hcount₀, hlibrary, hunset, houtcome, hright⟩
  refine ⟨fun hcpu hshort => ?_, fun hcpu => ?_⟩
  · obtain ⟨s₀, s', hcpu₀, -, hlibrary, -, houtcome, hnone⟩ := hfailed (Or.inr hshort)
    cases houtcome with
    | failure j made fails before s₁ registered first unchanged destroyed =>
      obtain ⟨n, hdestroyed⟩ := destroyed
      have := (failed_with_cpu (hcpu₀.trans hcpu) registered hdestroyed).mp hnone
      unfold LibraryFree at *
      rwa [hlibrary] at this
  · obtain ⟨s₀, s', hcpu₀, hcount₀, -, hsame, houtcome, hnone⟩ := hfailed (Or.inl hcpu)
    cases houtcome with
    | failure j made fails before s₁ registered first unchanged destroyed =>
      obtain ⟨n, hdestroyed⟩ := destroyed
      rw [failed_without_cpu (hcpu₀.trans hcpu) registered hdestroyed] at hnone
      rw [hsame hcpu] at registered
      refine ⟨fun v hv => ?_, ?_⟩
      · by_contra hrouted
        have := registered.routed (Bool.of_not_eq_false hrouted)
        rw [hnone v hv] at this
        cases this
      · rcases Nat.eq_zero_or_pos j with rfl | hj
        · rwa [hcount₀] at fails
        · have hget := List.getElem?_eq_getElem hpos
          have hrouted := first hj _ hget
          rw [hnone _ (List.getElem_mem hpos)] at hrouted
          cases hrouted

/-! ## The callers -/

/-- What an event that returned says of the hooks. -/
def HookResult.Kept (H : HookPlatform) (s' : ExceptionHooks) : HookResult → Prop
  | .untouched => True
  | .initialized Status => if Status = true then AllRouted H s' else NoneRouted H s'
  | .destroyed => NoneRouted H s'

/-- Whenever the event returns, the hooks are all or nothing. -/
def HookRight (H : HookPlatform) (event : HookEvent) (s : ExceptionHooks) : Prop :=
  ∀ fuel r s', (hookStep H fuel event).run s = (some r, s') → r.Kept H s'

/-- The condition of an event. -/
def HookClean (H : HookPlatform) : HookEvent → ExceptionHooks → Prop
  | .initializeDxeCore enabled _, s => enabled = true → InitializeClean H s
  | .initializeZero, s => s.mDebuggerInitialized = true → DestroyClean H s
  | .cpuInstalled, _ => True
  | .cpuArchProtocol located _, s => located = true → InitializeClean H { s with gCpu := true }
  | .exitBootServices, s => DestroyClean H s

/-- A call and what is returned for it. -/
theorem map_run {α β : Type} {m : HookM (Option α)} {f : α → β} {b : β}
    (hrun : (do let a ← m; pure (a.map f) : HookM (Option β)).run s = (some b, s')) :
    ∃ a, m.run s = (some a, s') ∧ f a = b := by
  rw [run_bind, run_pure] at hrun
  obtain ⟨hb, hs⟩ := Prod.mk.inj hrun
  obtain ⟨a, ha, hab⟩ := Option.map_eq_some_iff.mp hb
  exact ⟨a, Prod.ext ha hs, hab⟩

theorem destroyed_iff : (∀ fuel r s', (do
      let destroyed ← onExitBootServices H fuel
      pure (destroyed.map fun _ => .destroyed) : HookM (Option HookResult)).run s = (some r, s') →
        r.Kept H s') ↔
    DestroyClean H s := by
  rw [← destroy_iff]
  constructor
  · intro h fuel s' hrun
    refine h fuel .destroyed s' ?_
    rw [run_bind, onExitBootServices, hrun]
    rfl
  · intro h fuel r s' hrun
    obtain ⟨a, ha, rfl⟩ := map_run hrun
    exact h fuel s' ha

/-- `InitializeDebugAgent` returns as its `DebugAgentExceptionInitialize`. -/
theorem initializeDxeCore_iff (uninitialized : Bool) :
    HookRight H (.initializeDxeCore true uninitialized) s ↔ InitializeRight H uninitialized s := by
  constructor
  · intro h fuel b s' hrun
    have hstep : ∃ u, (hookStep H fuel (.initializeDxeCore true uninitialized)).run s =
        (some (.initialized b), u) ∧ u.cpuHandlers = s'.cpuHandlers ∧
        u.libraryHandlers = s'.libraryHandlers := by
      rw [hookStep, initializeDebugAgentDxeCore, if_pos rfl, run_bind, hrun]
      cases b with
      | true => exact ⟨_, rfl, rfl, rfl⟩
      | false => exact ⟨_, rfl, rfl, rfl⟩
    obtain ⟨u, hu, hcpu, hlibrary⟩ := hstep
    have hkept := h fuel _ u hu
    rw [HookResult.Kept] at hkept
    unfold AllRouted NoneRouted ExceptionHooks.routed at *
    rwa [hcpu, hlibrary] at hkept
  · intro h fuel r s' hrun
    rw [hookStep, initializeDebugAgentDxeCore, if_pos rfl, run_bind] at hrun
    cases hinit : ((debugAgentExceptionInitialize H fuel uninitialized).run s).1 with
    | none =>
      rw [hinit] at hrun
      cases hrun
    | some b =>
      have hright := h fuel b _ (Prod.ext hinit rfl)
      rw [hinit] at hrun
      cases b with
      | true =>
        obtain ⟨hr, rfl⟩ := Prod.mk.inj hrun
        obtain rfl := Option.some.inj hr
        exact hright
      | false =>
        obtain ⟨hr, rfl⟩ := Prod.mk.inj hrun
        obtain rfl := Option.some.inj hr
        exact hright

theorem gCpu_registerHandler (vector : Nat) :
    Keeps ExceptionHooks.gCpu (registerHandler H vector) := by
  intro s
  rw [registerHandler, run_modifyGet]
  split
  · show (if s.gCpu = true then _ else _ : ExceptionHooks).gCpu = s.gCpu
    split <;> rfl
  · rfl

theorem gCpu_unregisterHandler (vector : Nat) :
    Keeps ExceptionHooks.gCpu (unregisterHandler vector) := by
  intro s
  rw [unregisterHandler, run_modify]
  split <;> rfl

theorem gCpu_destroy (H : HookPlatform) (fuel : Nat) :
    Keeps ExceptionHooks.gCpu (debugAgentExceptionDestroy H fuel) :=
  keeps_bind keeps_get fun _ => keeps_ite (keeps_destroyVectors gCpu_unregisterHandler fuel 0)
  (keeps_pure _)

theorem gCpu_initialize (H : HookPlatform) (fuel : Nat) (uninitialized : Bool) :
    Keeps ExceptionHooks.gCpu (debugAgentExceptionInitialize H fuel uninitialized) := by
  refine keeps_bind (gCpu_destroy H fuel) fun destroyed => ?_
  cases destroyed with
  | none => exact keeps_pure _
  | some u =>
    exact keeps_initializeVectors gCpu_registerHandler (fun _ => rfl) (gCpu_destroy H) _ _ _

/-- Whether `DebugAgentExceptionDestroy` returns depends on `gCpu` only. -/
theorem destroy_uniform {s t : ExceptionHooks} (hcpu : s.gCpu = t.gCpu) (fuel : Nat) :
    ((debugAgentExceptionDestroy H fuel).run s).1 =
    ((debugAgentExceptionDestroy H fuel).run t).1 := by
  rw [debugAgentExceptionDestroy, run_bind, run_bind, run_get, run_get]
  simp only [hcpu]
  split
  · exact destroyVectors_uniform fuel 0 s t
  · rfl

/-- A failed initialization with `gCpu` set leaves the CPU protocol nothing. -/
theorem cpuFree_of_failed {uninitialized : Bool} (hcpu : s.gCpu = true)
    (hrun : (debugAgentExceptionInitialize H fuel uninitialized).run s = (some false, s')) :
    CpuFree H s' := by
  obtain ⟨s₀, hdestroy, hloop⟩ := initialize_split hrun
  rcases Nat.eq_zero_or_pos H.mArchExceptionTypes.length with hempty | hpos
  · rw [CpuFree, List.length_eq_zero_iff.mp hempty]
    exact fun v hv => by cases hv
  · cases initializeLoop_spec H fuel 0 s₀ s' uninitialized false (by decide) (Or.inr hpos)
      hloop with
    | failure k made fails before s₁ registered first unchanged destroyed =>
      obtain ⟨n, hdestroyed⟩ := destroyed
      exact ((destroy_spec hdestroyed).2.2.1
        (registered.gCpu.trans ((destroy_spec hdestroy).2.1.1.trans hcpu))).1

/-- So does `OnCpuArchProtocolNotification`, which calls `DebugAgentExceptionDestroy` once more
after an error. -/
theorem cpuArchProtocol_iff (uninitialized : Bool) :
    HookRight H (.cpuArchProtocol true uninitialized) s ↔
    InitializeRight H uninitialized { s with gCpu := true } := by
  set t : ExceptionHooks := { s with gCpu := true } with ht
  have hfront : ∀ fuel, (hookStep H fuel (.cpuArchProtocol true uninitialized)).run s = (do
      let Status ← debugAgentExceptionInitialize H fuel uninitialized
      match Status with
      | none => pure none
      | some true => pure (some (.initialized true))
      | some false => do
          modify fun s =>
            { s with failedAsserts := s.failedAsserts ++ ["ASSERT_EFI_ERROR (Status)"] }
          let destroyed ← onExitBootServices H fuel
          pure (destroyed.map fun _ => .initialized false) : HookM (Option HookResult)).run t := by
    intro fuel
    rw [hookStep, onCpuArchProtocolNotification, if_pos rfl, run_bind]
    rfl
  constructor
  · intro h fuel b s' hrun
    cases b with
    | true =>
      refine h fuel (.initialized true) s' ?_
      rw [hfront, run_bind, hrun]
      rfl
    | false =>
      -- The second call returns since the first did.
      obtain ⟨s₀, hdestroy, -⟩ := initialize_split hrun
      set u : ExceptionHooks :=
        { s' with failedAsserts := s'.failedAsserts ++ ["ASSERT_EFI_ERROR (Status)"] } with hu
      have hcpu : u.gCpu = t.gCpu := by
        have := gCpu_initialize H fuel uninitialized t
        rwa [hrun] at this
      have hreturns : ((debugAgentExceptionDestroy H fuel).run u).1 = some () := by
        rw [destroy_uniform hcpu, hdestroy]
      have hkept : NoneRouted H ((debugAgentExceptionDestroy H fuel).run u).2 := by
        refine h fuel (.initialized false) _ ?_
        rw [hfront, run_bind, hrun]
        refine Prod.ext ?_ rfl
        show Option.map _ ((debugAgentExceptionDestroy H fuel).run u).1 = _
        rw [hreturns]
        rfl
      have hlibrary :=
        (destroy_spec
          (Prod.ext hreturns rfl : (debugAgentExceptionDestroy H fuel).run u = (some (), _))).1
      refine noneRouted_iff.mpr ⟨cpuFree_of_failed rfl hrun, fun v hv => ?_⟩
      have := (noneRouted_iff.mp hkept).2 v hv
      rwa [hlibrary] at this
  · intro h fuel r s' hrun
    rw [hfront, run_bind] at hrun
    cases hinit : ((debugAgentExceptionInitialize H fuel uninitialized).run t).1 with
    | none =>
      rw [hinit] at hrun
      cases hrun
    | some b =>
      have hright := h fuel b _ (Prod.ext hinit rfl)
      rw [hinit] at hrun
      cases b with
      | true =>
        obtain ⟨hr, rfl⟩ := Prod.mk.inj hrun
        obtain rfl := Option.some.inj hr
        exact hright
      | false =>
        obtain ⟨u, hu, rfl⟩ := map_run (m := onExitBootServices H fuel)
          (f := fun _ => HookResult.initialized false) hrun
        set v := ((debugAgentExceptionInitialize H fuel uninitialized).run t).2
        have hclean : DestroyClean H
            { v with failedAsserts := v.failedAsserts ++ ["ASSERT_EFI_ERROR (Status)"] } :=
          ⟨fun _ _ => (noneRouted_iff.mp hright).2, fun _ => hright⟩
        exact destroy_noneRouted hclean hu

/-- **An event is right exactly when it is clean.** -/
theorem hookRight_iff (H : HookPlatform) (event : HookEvent) (s : ExceptionHooks) :
    HookRight H event s ↔ HookClean H event s := by
  have huntouched : ∀ {m : HookM (Option HookResult)}, (∀ t, ∃ u, m.run t = (some .untouched, u)) →
      ∀ r s', m.run s = (some r, s') → r.Kept H s' := by
    intro m hm r s' hrun
    obtain ⟨u, hu⟩ := hm s
    rw [hu] at hrun
    obtain rfl := Option.some.inj (congrArg Prod.fst hrun)
    trivial
  cases event with
  | initializeDxeCore enabled uninitialized =>
    cases enabled with
    | true =>
      exact (initializeDxeCore_iff uninitialized).trans
        (initialize_iff.trans ⟨fun h _ => h, fun h => h rfl⟩)
    | false =>
      refine ⟨fun _ h => (by cases h), fun _ fuel => huntouched fun t => ⟨t, rfl⟩⟩
  | initializeZero =>
    cases hinitialized : s.mDebuggerInitialized with
    | true =>
      have hstep : ∀ fuel, (hookStep H fuel .initializeZero).run s = (do
          let destroyed ← onExitBootServices H fuel
          pure (destroyed.map fun _ => .destroyed) : HookM (Option HookResult)).run s := by
        intro fuel
        rw [hookStep, initializeDebugAgentZero, run_bind, run_get, if_pos hinitialized]
      rw [HookRight, HookClean]
      simp only [hstep, hinitialized, forall_const]
      exact destroyed_iff
    | false =>
      refine ⟨fun _ h => ?_, fun _ fuel r s' hrun => ?_⟩
      · rw [hinitialized] at h
        cases h
      · rw [hookStep, initializeDebugAgentZero, run_bind, run_get,
          if_neg (by rw [hinitialized]; exact Bool.false_ne_true)] at hrun
        obtain rfl := Option.some.inj (congrArg Prod.fst hrun)
        trivial
  | cpuInstalled => exact ⟨fun _ => trivial, fun _ fuel => huntouched fun t => ⟨_, rfl⟩⟩
  | cpuArchProtocol located uninitialized =>
    cases located with
    | true =>
      exact (cpuArchProtocol_iff uninitialized).trans
        (initialize_iff.trans ⟨fun h _ => h, fun h => h rfl⟩)
    | false =>
      refine ⟨fun _ h => (by cases h), fun _ fuel => huntouched fun t => ⟨t, rfl⟩⟩
  | exitBootServices => exact destroyed_iff

/-! ## Runs -/

/-- The event can take one state to the other. -/
def HookSteps (H : HookPlatform) (event : HookEvent) (s s' : ExceptionHooks) : Prop :=
  ∃ fuel r, (hookStep H fuel event).run s = (some r, s')

/-- **The hooks are all or nothing** in a run exactly when each of its events is clean. -/
theorem hooks_all_or_nothing_iff (H : HookPlatform) (s : ExceptionHooks) (events : List HookEvent) :
    (InitializeRight H true s ↔ InitializeClean H s) ∧
    (InitializeRight H false s ↔ InitializeClean H s) ∧
      ((∀ fuel s', (debugAgentExceptionDestroy H fuel).run s = (some (), s') → NoneRouted H s') ↔
        DestroyClean H s) ∧
      (Every (HookSteps H) (HookRight H) s events ↔ Every (HookSteps H) (HookClean H) s events) :=
  ⟨initialize_iff, initialize_iff, destroy_iff, every_congr (hookRight_iff H) events s⟩

/-- Two vectors; the first registration succeeds and the second fails. -/
def secondFails : HookPlatform := ⟨[1, 3], fun k => k = 0⟩

/-- Two vectors whose registrations all succeed. -/
def allSucceed : HookPlatform := ⟨[1, 3], fun _ => true⟩

/-- A boot: DXE core starts the debugger, the CPU protocol is installed, and boot services end. -/
def plainBoot : List HookEvent :=
  [.initializeDxeCore true true, .cpuArchProtocol true true, .exitBootServices]

/-- Without `gCpu` a failed initialization leaves the first vector routed; and what was registered
through the library stays routed at the end of a boot. -/
theorem library_left_routed : ¬ InitializeRight secondFails true .initial ∧
    ¬ Every (HookSteps allSucceed) (HookRight allSucceed) .initial plainBoot := by
  constructor
  · intro h
    have hnone : NoneRouted secondFails _ := h 10 false _ rfl
    exact absurd (hnone 1 (by decide)) (by decide)
  · intro h
    have hcpu := h.2 _ ⟨10, _, rfl⟩
    have hexit := hcpu.2 _ ⟨10, _, rfl⟩
    have hnone : NoneRouted allSucceed _ := hexit.1 10 _ _ rfl
    exact absurd (hnone 1 (by decide)) (by decide)

end Hooks
end UefiDebugger
