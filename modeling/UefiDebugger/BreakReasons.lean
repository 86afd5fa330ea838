import UefiDebugger.BreakIn

/-!
# What a break was made for

`DebuggerBreak` sets `DebuggerBreakpointReason`, hits a breakpoint and clears it; a debugger that
asks gets the text of it.  Two levels meet here.  A run of the firmware is a run of the machine of
the stops, so that what is known of the stops holds with the program in front of them
(`firmware_refines_stops`); and over whole runs the reason is that of the break under way, and none
outside of breaks (`break_reason_kept`).
-/
namespace UefiDebugger
open HexText ByteString StateEffect

variable {σ : Type}

/-! ## The runs of the stops -/

/-- The event is an exception. -/
def Event.isException : Event σ → Bool
  | .exception .. => true
  | _ => false

namespace Firmware
variable {P : Platform σ}

/-- The exception that a step raises. -/
def FirmwareEvent.raises : FirmwareEvent σ → Option (Event σ)
  | .nested i c info context now => some (.exception i c info context now)
  | .exception i c info context now => some (.exception i c info context now)
  | .cpuBreakpoint i c info context now => some (.exception i c info context now)
  | _ => none

/-- The machine is allowed what the firmware is allowed. -/
structure Admits (P : Platform σ) (Allowed : Firmware σ → FirmwareEvent σ → Prop)
    (AllowedStop : Machine σ → Event σ → Prop) : Prop where
  others : ∀ m e, e.isException = false → AllowedStop m e
  exceptions : ∀ F e F' raised, Allowed F e → Step P F e F' → e.raises = some raised →
    AllowedStop F.machine raised

/-- Such a run of the firmware is an orderly run of the machine. -/
theorem admits_orderly (P : Platform σ) : Admits P Calm Machine.Orderly where
  others m e he := by
    cases e with
    | exception => cases he
    | tick => trivial
    | initialBreakpoint => trivial
    | running => trivial
  exceptions F e F' raised hcalm hstep hraised := by
    cases hstep with
    | nested stopped step => exact absurd hcalm id
    | exception i c info context now runs =>
      cases Option.some.inj hraised
      exact ⟨runs.running, hcalm⟩
    | cpuBreakpoint i c info context now breaking running alive =>
      cases Option.some.inj hraised
      exact ⟨running, hcalm⟩
    | tick now arrived => cases hraised
    | program target runs => cases hraised
    | pollInput runs => cases hraised
    | initialBreakpoint Timeout runs => cases hraised
    | moduleLoad runs => cases hraised

/-- Events of the machine that one event of the firmware stands for. -/
structure StandsFor (es : List (Event σ)) (e : FirmwareEvent σ) : Prop where
  arrived : es.flatMap Event.arrived = e.arrived
  exceptions : es.filter Event.isException = e.raises.toList

section Simulation
variable {AllowedStop : Machine σ → Event σ → Prop}
  (hothers : ∀ m e, e.isException = false → AllowedStop m e)
include hothers

/-- The running code sets the reason for a break and reads bytes; the machine has one event for
both. -/
theorem run_running (m : Machine σ) (target : σ) (reason : BreakpointReason) (polled : Nat)
    (hrunning : m.frames = []) (halive : m.stub.halted = false) :
    Machine.Run P AllowedStop m [.running target reason polled]
    (m.runTarget target reason polled) :=
  Machine.run_one (hothers _ _ rfl) (.running m target reason polled hrunning halive)

theorem run_advance {F : Firmware σ} (h : Free F) (now : Nat) :
    ∃ es', Machine.Run P AllowedStop F.machine es' (F.advance now).machine ∧
      es'.flatMap Event.arrived = [] ∧ es'.filter Event.isException = [] := by
  unfold advance
  cases hpoint : F.point with
  | program => exact ⟨[], .none _, rfl, rfl⟩
  | poll => exact ⟨[], .none _, rfl, rfl⟩
  | readStart => exact ⟨[], .none _, rfl, rfl⟩
  | readClock E => exact ⟨[], .none _, rfl, rfl⟩
  | breaking caller => exact ⟨[], .none _, rfl, rfl⟩
  | broken caller =>
    exact ⟨_, run_running hothers F.machine F.machine.stub.target .none 0 h.running h.alive, rfl,
      rfl⟩
  | readPoll E =>
    cases hpending : F.machine.pending with
    | nil => exact ⟨[], .none _, rfl, rfl⟩
    | cons b bs =>
      let reason :=
        if b = breakCharacter then .debuggerBreak else F.machine.stub.debuggerBreakpointReason
      have hrun :=
        run_running (P := P) hothers F.machine F.machine.stub.target reason 1 h.running h.alive
      refine ⟨[.running F.machine.stub.target reason 1], ?_, rfl, rfl⟩
      by_cases hbreak : b = breakCharacter
      · simpa [polled, hbreak, reason, debuggerBreak, setReason, Machine.runTarget,
          hpending] using hrun
      · simpa [polled, hbreak, reason, Machine.runTarget, hpending] using hrun

theorem run_tick (F : Firmware σ) (now : Nat) (arrived : List UInt8) :
    ∃ es', Machine.Run P AllowedStop F.machine es' (F.tick P now arrived).machine ∧
      es'.flatMap Event.arrived = arrived ∧ es'.filter Event.isException = [] := by
  have htick :=
    Machine.run_one (hothers F.machine (.tick now arrived) rfl)
    (.tick (P := P) F.machine now arrived)
  unfold tick
  by_cases hrunning : F.machine.frames = []
  · have hnone : F.machine.tick P now arrived = (F.arrive arrived).machine := by
      rcases Machine.tick_cases P F.machine now arrived with ⟨-, h⟩ | ⟨-, f, fs, hcons, -⟩
      · exact h
      · rw [hrunning] at hcons
        cases hcons
    rw [hnone] at htick
    rw [if_pos hrunning]
    by_cases hhalted : F.machine.stub.halted = true
    · rw [if_pos hhalted]
      exact ⟨_, htick, List.append_nil _, rfl⟩
    · rw [if_neg hhalted]
      obtain ⟨es', hrun, harrived, hexceptions⟩ :=
        run_advance (P := P) hothers (F := F.arrive arrived)
        ⟨hrunning, Bool.eq_false_of_not_eq_true hhalted⟩ now
      refine ⟨_, htick.trans hrun, ?_, ?_⟩
      · rw [List.flatMap_append, harrived, List.append_nil]
        exact List.append_nil _
      · rw [List.filter_append, hexceptions]
        rfl
  · rw [if_neg hrunning]
    exact ⟨_, htick, List.append_nil _, rfl⟩

end Simulation

/-- One step. -/
theorem Step.simulated {Allowed : Firmware σ → FirmwareEvent σ → Prop}
    {AllowedStop : Machine σ → Event σ → Prop} (hadmits : Admits P Allowed AllowedStop)
    {F F' : Firmware σ} {e : FirmwareEvent σ} (hallowed : Allowed F e) (h : Step P F e F') :
    ∃ es', Machine.Run P AllowedStop F.machine es' F'.machine ∧ StandsFor es' e := by
  have hraises : ∀ raised, e.raises = some raised → AllowedStop F.machine raised :=
    fun raised => hadmits.exceptions F e F' raised hallowed h
  cases h with
  | tick now arrived =>
    obtain ⟨es', hrun, harrived, hexceptions⟩ := run_tick (P := P) hadmits.others F now arrived
    exact ⟨es', hrun, harrived, hexceptions⟩
  | nested stopped step => exact ⟨_, Machine.run_one (hraises _ rfl) step, rfl, rfl⟩
  | program target runs =>
    exact ⟨_, run_running hadmits.others F.machine target F.machine.stub.debuggerBreakpointReason 0
      runs.running runs.alive, rfl, rfl⟩
  | exception i c info context now runs =>
    exact ⟨_,
      Machine.run_one (hraises _ rfl) (.stop _ i c info context now runs.running runs.alive), rfl,
      rfl⟩
  | pollInput runs => exact ⟨[], .none _, rfl, rfl⟩
  | initialBreakpoint Timeout runs =>
    exact ⟨_, Machine.run_one (hadmits.others _ (.initialBreakpoint Timeout) rfl)
      (.arm _ Timeout runs.running runs.alive), rfl, rfl⟩
  | moduleLoad runs =>
    exact ⟨_, run_running hadmits.others F.machine F.machine.stub.target .moduleLoad 0 runs.running
      runs.alive, rfl, rfl⟩
  | cpuBreakpoint i c info context now breaking running alive =>
    exact ⟨_, Machine.run_one (hraises _ rfl) (.stop _ i c info context now running alive), rfl,
      rfl⟩

/-- **The stops see the program only through its events.**  Every run of the firmware is, as far as
the stops go, a run of the machine of the stops on the same arriving bytes with the same exceptions;
what holds of every run of that machine holds while `DebuggerPollInput` and `DebuggerBreak` run in
front of it. -/
theorem firmware_refines_stops (P : Platform σ) {Allowed : Firmware σ → FirmwareEvent σ → Prop}
    {AllowedStop : Machine σ → Event σ → Prop} (hadmits : Admits P Allowed AllowedStop)
    {F F' : Firmware σ} {es : List (FirmwareEvent σ)} (hrun : Run P Allowed F es F') : ∃ es',
    Machine.Run P AllowedStop F.machine es' F'.machine ∧ es'.flatMap Event.arrived = stream es ∧
    es'.filter Event.isException = es.filterMap FirmwareEvent.raises := by
  induction hrun with
  | none => exact ⟨[], .none _, rfl, rfl⟩
  | snoc run allowed step ih =>
    obtain ⟨es', hrun, harrived, hexceptions⟩ := ih
    obtain ⟨es'', hstep, hstands⟩ := step.simulated hadmits allowed
    refine ⟨es' ++ es'', hrun.trans hstep, ?_, ?_⟩
    · rw [List.flatMap_append, harrived, hstands.arrived, stream, stream, List.flatMap_append,
        List.flatMap_singleton]
    · rw [List.filter_append, hexceptions, hstands.exceptions, List.filterMap_append]
      cases hraised : FirmwareEvent.raises _ with
      | none => simp [hraised]
      | some raised => simp [hraised]

theorem firmware_refines_stops_break :
    ∃ es',
    Machine.Run flatPlatform Machine.Orderly (Machine.initial (Stub.initial ⟨fun _ => 0x90, []⟩))
    es' brokenFirmware.machine ∧
      es'.flatMap Event.arrived = stream breakInEvents ∧
      es'.filter Event.isException = breakInEvents.filterMap FirmwareEvent.raises :=
  firmware_refines_stops flatPlatform (admits_orderly flatPlatform) brokenFirmware_run

end Firmware

/-! ## What a stop was made for -/

instance : Unmoved (Stub.debuggerBreakpointReason (σ := σ)) where
  request _ _ := rfl
  buffers _ _ _ _ _ _ _ := rfl
  packet _ _ := rfl
  asked _ _ := rfl
  output _ _ := rfl
  connected _ _ := rfl

instance (P : Platform σ) : Aside P (Stub.debuggerBreakpointReason (σ := σ)) :=
  ⟨fun _ _ _ _ _ => rfl, fun _ _ _ => rfl⟩

instance : Unresumed (Stub.debuggerBreakpointReason (σ := σ)) where
  saved _ _ := rfl
  resumed _ _ _ := rfl

/-- What is left of the commands leaves the reason alone. -/
def Reasoned (m : Machine σ) : Prop :=
  ∀ f ∈ m.frames, ∀ rest, f.point = .execute rest → Keeps Stub.debuggerBreakpointReason rest.program

theorem keeps_leaveStop_reason (P : Platform σ) :
    Keeps Stub.debuggerBreakpointReason (leaveStop P) :=
  keeps_bind keeps_get fun _ => keeps_ite (keeps_bind (keeps_debugReboot P) fun _ => keeps_pure _)
  (keeps_pure _)

theorem keeps_reportException_reason (i c : Nat) (info : ExceptionInfo) (context : Context)
    (now : Nat) :
    Keeps Stub.debuggerBreakpointReason (reportException i c info context now : StubM σ Nat) :=
  keeps_bind (fun _ => rfl) fun _ => keeps_bind (fun _ => rfl) fun _ =>
  keeps_bind keeps_get fun _ =>
    keeps_bind (fun _ => rfl) fun _ => keeps_bind keeps_sendStopReply fun _ => keeps_pure _

/-- The command of a packet is a whole one. -/
theorem afterRead_whole (P : Platform σ) (input : InputPoint) (e : Receive) (s : Stub σ)
    (rest : Remainder σ) (h : ((afterRead P input e).run s).1 = .execute rest) :
    Keeps Stub.debuggerBreakpointReason rest.program := by
  rw [afterRead, run_bind] at h
  generalize ((collect input e).run s).1 = next at h
  generalize ((collect input e).run s).2 = t at h
  cases next with
  | first => cases h
  | next n => cases h
  | returned => cases h
  | packet n =>
    dsimp only at h
    rw [run_bind] at h
    generalize ((validateGdbPacket P n).run t).1 = valid at h
    cases valid with
    | none => cases h
    | some ChecksumIndex =>
      cases h
      exact unresumed_executeGdbCommand P _ _

namespace Machine
variable {P : Platform σ}

theorem reason_advance {m : Machine σ} {f : Frame σ} {fs : List (Frame σ)}
    (hframes : m.frames = f :: fs) (h : Reasoned m) (now : Nat) : Reasoned (m.advance P f fs now) ∧
    (m.advance P f fs now).stub.debuggerBreakpointReason = m.stub.debuggerBreakpointReason := by
  have hrest : ∀ g ∈ fs, ∀ rest, g.point = .execute rest →
      Keeps Stub.debuggerBreakpointReason rest.program :=
    fun g hg => h g (hframes ▸ List.mem_cons_of_mem f hg)
  have hcons : ∀ g : Frame σ,
      (∀ rest, g.point = .execute rest → Keeps Stub.debuggerBreakpointReason rest.program) →
      ∀ g' ∈ g :: fs, ∀ rest, g'.point = .execute rest →
      Keeps Stub.debuggerBreakpointReason rest.program :=
    fun g hg => List.forall_mem_cons.mpr ⟨hg, hrest⟩
  obtain ⟨T, point⟩ := f
  -- The reason is set outside the stops, and no program in a stop touches it.
  cases point with
  | poll =>
    refine ⟨hcons _ fun rest hexecute => ?_, rfl⟩
    dsimp only at hexecute
    split at hexecute
    · cases hexecute
    · cases hexecute
  | readStart input => exact ⟨hcons _ fun rest hexecute => (nomatch hexecute), rfl⟩
  | execute rest =>
    have hkeeps := h _ (hframes ▸ List.mem_cons_self) rest rfl
    exact ⟨hcons _ fun rest hexecute => (nomatch hexecute), hkeeps m.stub⟩
  | readPoll input E =>
    cases hpending : m.pending with
    | nil =>
      rw [advance_readPoll_nil hpending]
      exact ⟨hcons _ fun rest hexecute => (nomatch hexecute), rfl⟩
    | cons b bs =>
      rw [advance_readPoll_cons hpending]
      exact ⟨hcons _ (afterRead_whole P input (.byte b) m.stub),
        keeps_afterRead P input (.byte b) m.stub⟩
  | readClock input E =>
    by_cases hnow : now < E
    · rw [advance_readClock_lt hnow]
      exact ⟨hcons _ fun rest hexecute => (nomatch hexecute), rfl⟩
    · rw [advance_readClock_ge hnow]
      exact ⟨hcons _ (afterRead_whole P input .timeout m.stub),
        keeps_afterRead P input .timeout m.stub⟩
  | clock =>
    by_cases hends : ((checkTimeout T now).run m.stub).2.gRunning = true
    · rw [advance_clock_ends hends]
      exact ⟨hrest, keeps_leaveStop_reason P _⟩
    · rw [advance_clock_goes_on hends]
      exact ⟨hcons _ fun rest hexecute => (nomatch hexecute), rfl⟩

theorem reason_tick {m : Machine σ} (h : Reasoned m) (now : Nat) (arrived : List UInt8) :
    Reasoned (m.tick P now arrived) ∧
      (m.tick P now arrived).stub.debuggerBreakpointReason = m.stub.debuggerBreakpointReason := by
  rcases tick_cases P m now arrived with ⟨-, htick⟩ | ⟨-, f, fs, hframes, htick⟩
  · rw [htick]
    exact ⟨h, rfl⟩
  · rw [htick]
    exact reason_advance (m := m.arrive arrived) hframes h now

theorem reason_enter {m : Machine σ} (h : Reasoned m) (i c : Nat) (info : ExceptionInfo)
    (context : Context) (now : Nat) : Reasoned (m.enter i c info context now) ∧
      (m.enter i c info context now).stub.debuggerBreakpointReason =
      m.stub.debuggerBreakpointReason :=
  ⟨List.forall_mem_cons.mpr ⟨fun _ hexecute => (nomatch hexecute), h⟩,
    keeps_reportException_reason i c info context now m.stub⟩

end Machine

namespace Firmware
variable {P : Platform σ}

/-- No stop is nested in another one. -/
def Unnested (_ : Firmware σ) : FirmwareEvent σ → Prop
  | .nested .. => False
  | _ => True

theorem Calm.unnested {F : Firmware σ} {e : FirmwareEvent σ} (h : Calm F e) : Unnested F e := by
  cases e with
  | nested => exact h
  | _ => trivial

/-- What `DebuggerBreakpointReason` says: the reason of the call of `DebuggerBreak` under way, which
tells apart who called it, or that there is none. -/
structure Truthful (F : Firmware σ) : Prop where
  reasoned : Reasoned F.machine
  caller : ∀ caller, F.point.breaker = some caller →
    F.breaks.getLast? = some F.machine.stub.debuggerBreakpointReason ∧
      (caller = .pollInput ↔ F.machine.stub.debuggerBreakpointReason = .debuggerBreak)
  quiet : F.point.breaker = none → F.machine.stub.debuggerBreakpointReason = .none

section Truthful
variable {F : Firmware σ}

/-- Neither the point nor the reason changes. -/
theorem Truthful.of_same {F' : Firmware σ} (h : Truthful F) (hreasoned : Reasoned F'.machine)
    (hbreaker : F'.point.breaker = F.point.breaker) (hbreaks : F'.breaks = F.breaks)
    (hreason : F'.machine.stub.debuggerBreakpointReason = F.machine.stub.debuggerBreakpointReason) :
    Truthful F' := by
  refine ⟨hreasoned, ?_, ?_⟩
  · rw [hbreaker, hbreaks, hreason]
    exact h.caller
  · rw [hbreaker, hreason]
    exact h.quiet

/-- `DebuggerBreak` is called. -/
theorem Truthful.debuggerBreak (hreasoned : Reasoned F.machine) (Reason : BreakpointReason)
    (caller : BreakCaller) (hcaller : caller = .pollInput ↔ Reason = .debuggerBreak) :
    Truthful (F.debuggerBreak Reason caller) := by
  refine ⟨hreasoned, fun caller' hbreaker => ?_, fun hbreaker => (nomatch hbreaker)⟩
  cases Option.some.inj hbreaker
  exact ⟨List.getLast?_concat, hcaller⟩

theorem Truthful.advance (h : Truthful F) (now : Nat) : Truthful (F.advance now) := by
  unfold Firmware.advance
  cases hpoint : F.point with
  | program => exact h
  | breaking caller => exact h
  | poll =>
    refine h.of_same h.reasoned ?_ rfl rfl
    rw [hpoint]
    exact (apply_ite RunPoint.breaker _ _ _).trans (ite_self none)
  | readStart => exact h.of_same h.reasoned (by rw [hpoint]; rfl) rfl rfl
  | readClock E =>
    refine h.of_same h.reasoned ?_ rfl rfl
    rw [hpoint]
    exact (apply_ite RunPoint.breaker _ _ _).trans (ite_self none)
  | broken caller =>
    refine ⟨h.reasoned, fun caller' hbreaker => ?_, fun _ => rfl⟩
    cases caller with
    | program => cases hbreaker
    | pollInput => cases hbreaker
  | readPoll E =>
    cases hpending : F.machine.pending with
    | nil => exact h.of_same h.reasoned (by rw [hpoint]; rfl) rfl rfl
    | cons b bs =>
      dsimp only [polled]
      split
      · refine Truthful.debuggerBreak ?_ .debuggerBreak .pollInput ⟨fun _ => rfl, fun _ => rfl⟩
        exact h.reasoned
      · exact h.of_same h.reasoned (by rw [hpoint]; rfl) rfl rfl

theorem Truthful.tick (h : Truthful F) (now : Nat) (arrived : List UInt8) :
    Truthful (F.tick P now arrived) := by
  unfold Firmware.tick
  by_cases hrunning : F.machine.frames = []
  · rw [if_pos hrunning]
    have harrive : Truthful (F.arrive arrived) := h.of_same h.reasoned rfl rfl rfl
    by_cases hhalted : F.machine.stub.halted = true
    · rw [if_pos hhalted]
      exact harrive
    · rw [if_neg hhalted]
      exact harrive.advance now
  · rw [if_neg hrunning]
    obtain ⟨hreasoned, hreason⟩ := Machine.reason_tick (P := P) h.reasoned now arrived
    exact h.of_same hreasoned rfl rfl hreason

end Truthful

/-- One step. -/
theorem Truthful.step {F F' : Firmware σ} {e : FirmwareEvent σ} (h : Truthful F)
    (hallowed : Unnested F e) (hstep : Step P F e F') : Truthful F' := by
  cases hstep with
  | tick now arrived => exact h.tick now arrived
  | nested stopped step => exact absurd hallowed id
  | program target runs => exact h.of_same h.reasoned rfl rfl rfl
  | exception i c info context now runs =>
    obtain ⟨hreasoned, hreason⟩ := Machine.reason_enter h.reasoned i c info context now
    exact h.of_same hreasoned rfl rfl hreason
  | pollInput runs => exact h.of_same h.reasoned (by rw [runs.program]; rfl) rfl rfl
  | initialBreakpoint Timeout runs =>
    refine Truthful.debuggerBreak ?_ .initial .program ⟨fun h => (nomatch h), fun h => (nomatch h)⟩
    exact h.reasoned
  | moduleLoad runs =>
    exact Truthful.debuggerBreak h.reasoned .moduleLoad .program
      ⟨fun h => (nomatch h), fun h => (nomatch h)⟩
  | cpuBreakpoint i c info context now breaking running alive =>
    obtain ⟨hreasoned, hreason⟩ := Machine.reason_enter h.reasoned i c info context now
    exact h.of_same hreasoned (by rw [breaking]; rfl) rfl hreason

/-- **A stop knows what it was made for.**  In every run from the start whose stops are not nested,
while a call of `DebuggerBreak` lasts, the stop at its breakpoint included,
`DebuggerBreakpointReason` is the reason of this call, and it is that of the debugger just when
`DebuggerPollInput` called it; at any other time, stops for other exceptions included, there is
none. -/
theorem break_reason_kept (P : Platform σ) {t : σ} {es : List (FirmwareEvent σ)} {F : Firmware σ}
    (hrun : Run P Unnested (initial (Stub.initial t)) es F) : Truthful F := by
  generalize hstart : initial (Stub.initial t) = F₀ at hrun
  induction hrun with
  | none =>
    subst hstart
    exact ⟨fun f hf => absurd hf List.not_mem_nil, fun caller hbreaker => (nomatch hbreaker),
      fun _ => rfl⟩
  | snoc run allowed step ih => exact ih.step allowed step

theorem break_reason_kept_break : Truthful brokenFirmware :=
  break_reason_kept flatPlatform (brokenFirmware_run.mono fun _ _ h => h.unnested)

end Firmware
end UefiDebugger
