import UefiDebugger.NestedStops

/-!
# What a stop does after its resume command

`gRunning` is read by the outer loop of `ReportEntryToDebugger` only.  When a command sets it,
`ProcessInputData` goes on reading for its 10 ms, and the poll loop enters it again for every byte
that came in the meantime.  So a stop leaves its input alone after the resume command exactly when
there is nothing to take before its last poll.

`AfterResume` is what holds until the stop ends or takes a byte; `Taken` is the other case, and is
forever.
-/
namespace UefiDebugger
open HexText ByteString StateEffect

variable {σ : Type}

namespace Machine

/-- The innermost stop has executed a command, and `gRunning` is set. -/
def resumed (m : Machine σ) : Bool :=
  match m.frames with
  | ⟨_, .readStart .first⟩ :: _ => m.stub.gRunning && !m.stub.halted
  | _ => false

theorem resumed_frames {m : Machine σ} (h : m.resumed = true) :
    (∃ EndTime, m.frames = ⟨EndTime, .readStart .first⟩ :: m.frames.tail) ∧
      m.stub.gRunning = true ∧ m.stub.halted = false := by
  unfold resumed at h
  split at h
  · rename_i EndTime fs hframes
    rw [hframes]
    simp only [Bool.and_eq_true, Bool.not_eq_true'] at h
    exact ⟨⟨EndTime, rfl⟩, h⟩
  · cases h

/-- The bytes that arrive in a run. -/
def arrivals (es : List (Event σ)) : List UInt8 := es.flatMap Event.arrived

theorem arrivals_snoc (es : List (Event σ)) (e : Event σ) :
    arrivals (es ++ [e]) = arrivals es ++ e.arrived := by
  rw [arrivals, arrivals, List.flatMap_append, List.flatMap_singleton]

theorem arrivals_eq_nil {es : List (Event σ)} : arrivals es = [] ↔ ∀ e ∈ es, e.arrived = [] :=
  List.flatMap_eq_nil_iff

/-- From `m` to `m'` no byte is consumed, no command executed and nothing sent: the bytes that were
waiting and those that arrived are all there. -/
def Untouched (m : Machine σ) (es : List (Event σ)) (m' : Machine σ) : Prop :=
  m'.pending = m.pending ++ arrivals es ∧ m'.stub.output = m.stub.output

/-- A byte was consumed. -/
def Taken (m : Machine σ) (es : List (Event σ)) (k : Machine σ) : Prop :=
  k.pending.length < (m.pending ++ arrivals es).length

/-- The points of a stop that looks for a first byte, or for the end of its loop. -/
inductive Waiting : StopPoint σ → Prop
  | poll : Waiting .poll
  | clock : Waiting .clock
  | readStart {input : InputPoint} (start : input = .first ∨ input = .returned) :
      Waiting (.readStart input)
  | readPoll {input : InputPoint} {EndTime : Nat} (start : input = .first ∨ input = .returned) :
      Waiting (.readPoll input EndTime)
  | readClock {input : InputPoint} {EndTime : Nat} (start : input = .first ∨ input = .returned) :
      Waiting (.readClock input EndTime)

/-- The stop of `m` is still under way in `k` and took nothing.  At its clock nothing had come
before. -/
structure AfterResume (m : Machine σ) (fs : List (Frame σ)) (es : List (Event σ)) (k : Machine σ)
    (f : Frame σ) : Prop where
  frames : k.frames = f :: fs
  waiting : Waiting f.point
  clock : f.point = .clock → m.pending ++ arrivals es = []
  untouched : Untouched m es k
  running : k.stub.gRunning = true
  alive : k.stub.halted = false

section Steps
variable {P : Platform σ} {m k k' : Machine σ} {fs : List (Frame σ)} {es : List (Event σ)}
  {e : Event σ}

/-- The first read of a packet that times out ends `ProcessInputData`, and does nothing else that
shows. -/
theorem afterRead_timeout {input : InputPoint} (h : input = .first ∨ input = .returned)
    (s : Stub σ) : ∃ b, (afterRead P input .timeout).run s = (.poll, { s with mRequest := b }) := by
  rcases h with rfl | rfl
  · exact ⟨s.mRequest, rfl⟩
  · exact ⟨s.mRequest.zero maxRequestSize, rfl⟩

/-- No advance puts bytes back. -/
theorem advance_pending_le (P : Platform σ) (m : Machine σ) (f : Frame σ) (fs : List (Frame σ))
    (now : Nat) : (m.advance P f fs now).pending.length ≤ m.pending.length := by
  obtain ⟨T, point⟩ := f
  cases point with
  | poll => exact Nat.le_refl _
  | readStart input => exact Nat.le_refl _
  | execute rest => exact Nat.le_refl _
  | readPoll input E =>
    cases hpending : m.pending with
    | nil =>
      rw [advance_readPoll_nil hpending]
      exact (congrArg List.length hpending).le
    | cons b bs =>
      rw [advance_readPoll_cons hpending]
      exact Nat.le_succ _
  | readClock input E =>
    by_cases hnow : now < E
    · rw [advance_readClock_lt hnow]
      exact Nat.le_refl _
    · rw [advance_readClock_ge hnow]
      exact Nat.le_refl _
  | clock =>
    by_cases hends : ((checkTimeout T now).run m.stub).2.gRunning = true
    · rw [advance_clock_ends hends]
    · rw [advance_clock_goes_on hends]

theorem Step.pending_le (h : Step P k e k') :
    k'.pending.length ≤ (k.pending ++ e.arrived).length := by
  cases h with
  | tick now arrived =>
    rcases tick_cases P k now arrived with ⟨-, htick⟩ | ⟨-, f, fs, -, htick⟩
    · rw [htick]
      exact Nat.le_refl _
    · rw [htick]
      exact advance_pending_le P (k.arrive arrived) f fs now
  | stop i c info context now hrunning halive =>
    exact (List.append_nil k.pending).symm ▸ Nat.le_refl _
  | nested i c info context now before after hstopped hexecuting hcut hkept halive =>
    exact (List.append_nil k.pending).symm ▸ Nat.le_refl _
  | arm T hrunning halive => exact (List.append_nil k.pending).symm ▸ Nat.le_refl _
  | running t reason polled hrunning halive =>
    show (k.pending.drop polled).length ≤ (k.pending ++ []).length
    rw [List.append_nil, List.length_drop]
    exact Nat.sub_le _ _

/-- What was consumed does not come back. -/
theorem Taken.step (h : Taken m es k) (hstep : Step P k e k') : Taken m (es ++ [e]) k' := by
  have hle := hstep.pending_le
  unfold Taken at h ⊢
  rw [arrivals_snoc]
  rw [List.length_append] at h hle ⊢
  rw [List.length_append]
  omega

/-- The stop of `m` ended without taking anything, and nothing came before its last event. -/
def EndedQuietly (m : Machine σ) (fs : List (Frame σ)) (es : List (Event σ)) (k : Machine σ) :
    Prop :=
  k.frames = fs ∧ Untouched m es k ∧ m.pending = [] ∧ ∀ e ∈ es.dropLast, e.arrived = []

theorem output_leaveStop (P : Platform σ) : Keeps Stub.output (leaveStop P) :=
  keeps_bind keeps_get fun _ => keeps_ite (keeps_bind (fun _ => rfl) fun _ => keeps_pure _)
  (keeps_pure _)

/-- **What a stop does next after its resume command**: it takes a byte and goes on, or it waits on,
or it ends. -/
theorem AfterResume.step {f : Frame σ} (h : AfterResume m fs es k f) (hstep : Step P k e k') :
    (Taken m (es ++ [e]) k' ∧ fs.length < k'.frames.length) ∨
      (∃ f', AfterResume m fs (es ++ [e]) k' f') ∨ EndedQuietly m fs (es ++ [e]) k' := by
  obtain ⟨hframes, hwaiting, hclock, ⟨hpending, houtput⟩, hrunning, halive⟩ := h
  -- The stop stands inside its loop: every step but a tick needs a running target or a command.
  cases hstep with
  | stop i c info context now hnone _ =>
    rw [hnone] at hframes
    cases hframes
  | arm T hnone _ =>
    rw [hnone] at hframes
    cases hframes
  | running t reason polled hnone _ =>
    rw [hnone] at hframes
    cases hframes
  | nested i c info context now before after hstopped hexecuting hcut hkept _ =>
    rw [hstopped] at hframes
    cases hframes
    rw [hexecuting] at hwaiting
    cases hwaiting
  | tick now arrived =>
    have hall : (k.arrive arrived).pending = m.pending ++ arrivals (es ++ [.tick now arrived]) := by
      rw [arrivals_snoc, arrive_pending, hpending, List.append_assoc]
      rfl
    have hsame : Untouched m (es ++ [.tick now arrived]) (k.arrive arrived) := ⟨hall, houtput⟩
    have htick : k.tick P now arrived = (k.arrive arrived).advance P f fs now := by
      rcases tick_cases P k now arrived with ⟨hidle, -⟩ | ⟨-, g, gs, hgs, htick⟩
      · rw [halive, hframes] at hidle
        rcases hidle with hidle | hidle <;> cases hidle
      · rw [hframes] at hgs
        cases hgs
        exact htick
    rw [htick]
    obtain ⟨T, point⟩ := f
    cases hwaiting with
    | poll =>
      right; left
      rw [advance_poll]
      by_cases hnone : (k.arrive arrived).pending = []
      · rw [if_pos hnone]
        exact ⟨_, rfl, .clock, fun _ => hall ▸ hnone, hsame, hrunning, halive⟩
      · rw [if_neg hnone]
        exact ⟨_, rfl, .readStart (Or.inr rfl), nofun, hsame, hrunning, halive⟩
    | readStart hinput =>
      right; left
      rw [advance_readStart]
      exact ⟨_, rfl, .readPoll hinput, nofun, hsame, hrunning, halive⟩
    | readPoll hinput =>
      cases hbytes : (k.arrive arrived).pending with
      | nil =>
        right; left
        rw [advance_readPoll_nil hbytes]
        exact ⟨_, rfl, .readClock hinput, nofun, hsame, hrunning, halive⟩
      | cons b bs =>
        -- A byte is taken, so that fewer are waiting than have come.
        left
        rw [advance_readPoll_cons hbytes]
        refine ⟨?_, Nat.lt_succ_self _⟩
        show bs.length < _
        rw [← hall, hbytes]
        exact Nat.lt_succ_self _
    | @readClock input E hinput =>
      right; left
      by_cases hnow : now < E
      · rw [advance_readClock_lt hnow]
        exact ⟨_, rfl, .readPoll hinput, nofun, hsame, hrunning, halive⟩
      · rw [advance_readClock_ge hnow, readDone]
        obtain ⟨b, hrun⟩ := afterRead_timeout (P := P) hinput (k.arrive arrived).stub
        rw [hrun]
        exact ⟨_, rfl, .poll, nofun, hsame, hrunning, halive⟩
    | clock =>
      right; right
      -- `gRunning` is set, so that the loop ends whatever the clock says.
      have hends : ((checkTimeout T now).run (k.arrive arrived).stub).2.gRunning = true := by
        show (k.stub.gRunning || _) = true
        rw [hrunning, Bool.true_or]
      rw [advance_clock_ends hends]
      obtain ⟨hfirst, hrest⟩ := List.append_eq_nil_iff.mp (hclock rfl)
      refine ⟨rfl, ⟨hall, (output_leaveStop P _).trans houtput⟩, hfirst, ?_⟩
      rw [List.dropLast_concat]
      exact arrivals_eq_nil.mp hrest

/-- A run from a resume command. -/
theorem after_resume (hm : m.resumed = true)
    (h : Run P (fun k _ => m.frames.tail.length < k.frames.length) m es k) : Taken m es k ∨
    (∃ f, AfterResume m m.frames.tail es k f) ∨ EndedQuietly m m.frames.tail es k := by
  generalize hfs : m.frames.tail = fs at h
  induction h with
  | none =>
    obtain ⟨⟨T, hframes⟩, hrunning, halive⟩ := resumed_frames hm
    rw [hfs] at hframes
    exact Or.inr (Or.inl ⟨_, hframes, .readStart (Or.inl rfl), nofun,
      ⟨(List.append_nil _).symm, rfl⟩, hrunning, halive⟩)
  | snoc run inside step ih =>
    rcases ih with htaken | ⟨f, hafter⟩ | hended
    · exact Or.inl (htaken.step step)
    · rcases hafter.step step with ⟨htaken, -⟩ | hgoes | hended
      · exact Or.inl htaken
      · exact Or.inr (Or.inl hgoes)
      · exact Or.inr (Or.inr hended)
    · rw [hended.1] at inside
      exact absurd inside (Nat.lt_irrefl _)

theorem Untouched.not_taken (h : Untouched m es k) : ¬ Taken m es k := fun htaken => by
  rw [Taken, h.1] at htaken
  exact Nat.lt_irrefl _ htaken

theorem AfterResume.not_over {f : Frame σ} (h : AfterResume m fs es k f) :
    k.frames.length ≠ fs.length := by
  rw [h.frames]
  exact Nat.succ_ne_self _

/-- **When a stop ends at its resume command.**  From the command on, as long as no byte waits and
none arrives the stop leaves its input and output alone; and a stop that ended has left them alone
exactly when no byte waited and none arrived before its last event. -/
theorem resumed_untouched_iff (P : Platform σ) {m m' : Machine σ} {es : List (Event σ)}
    (hm : m.resumed = true)
    (hrun : Run P (fun k _ => m.frames.tail.length < k.frames.length) m es m') :
    (m.pending = [] ∧ (∀ e ∈ es, e.arrived = []) → Untouched m es m') ∧
    (m'.frames.length = m.frames.tail.length →
    (Untouched m es m' ↔ m.pending = [] ∧ ∀ e ∈ es.dropLast, e.arrived = [])) := by
  have nothing : ∀ {es' : List (Event σ)} {k : Machine σ}, m.pending = [] →
      (∀ e ∈ es', e.arrived = []) → ¬ Taken m es' k := by
    intro es' k hpending harrived htaken
    rw [Taken, hpending, arrivals_eq_nil.mpr harrived] at htaken
    exact Nat.not_lt_zero _ htaken
  constructor
  · rintro ⟨hpending, harrived⟩
    rcases after_resume hm hrun with htaken | ⟨f, hafter⟩ | hended
    · exact absurd htaken (nothing hpending harrived)
    · exact hafter.untouched
    · exact hended.2.1
  · intro hover
    constructor
    · intro huntouched
      rcases after_resume hm hrun with htaken | ⟨f, hafter⟩ | hended
      · exact absurd htaken huntouched.not_taken
      · exact absurd hover hafter.not_over
      · exact hended.2.2
    · rintro ⟨hpending, harrived⟩
      cases hrun with
      | none =>
        obtain ⟨⟨T, hframes⟩, -⟩ := resumed_frames hm
        rw [hframes] at hover
        exact absurd hover (Nat.succ_ne_self _)
      | snoc run inside step =>
        rw [List.dropLast_concat] at harrived
        rcases after_resume hm run with htaken | ⟨f, hafter⟩ | hended
        · exact absurd htaken (nothing hpending harrived)
        · -- The last event ends the stop, so it took nothing.
          rcases hafter.step step with ⟨-, hopen⟩ | ⟨f', hafter'⟩ | hended
          · exact absurd hopen (by rw [hover]; exact Nat.lt_irrefl _)
          · exact absurd hover hafter'.not_over
          · exact hended.2.1
        · rw [hended.1] at inside
          exact absurd inside (Nat.lt_irrefl _)

end Steps

/-! ## A break request behind the resume command -/

/-- A stop that has executed `vCont;c`, with what came behind it. -/
def continued (behind : List UInt8) : Machine FlatMachine :=
  ((initial (Stub.initial ⟨fun _ => 0x90, []⟩)).enter 1 2 ⟨.breakpoint, 0, 3⟩ (fun _ => 0) 0).ticks
  flatPlatform ((0, text "$vCont;c#a8" ++ behind) :: List.replicate 23 (0, []))

theorem continued_reached (behind : List UInt8)
    (hinside :
      ((initial (Stub.initial ⟨fun _ => 0x90, []⟩)).enter 1 2 ⟨.breakpoint, 0, 3⟩ (fun _ => 0)
        0).ticksInside
      flatPlatform 0 ((0, text "$vCont;c#a8" ++ behind) :: List.replicate 23 (0, [])) = true) :
    ∃ es, Run flatPlatform (fun _ _ => True) (initial (Stub.initial ⟨fun _ => 0x90, []⟩)) es
      (continued behind) :=
  ⟨_, (run_one trivial (.stop _ 1 2 _ _ 0 rfl rfl)).trans
    ((run_ticks 0 _ _ hinside).mono fun _ _ _ => trivial)⟩

/-- A Ctrl-C right behind the packet is eaten by the stop that the packet ended. -/
theorem break_request_eaten :
    ¬ ∀ (s : Stub FlatMachine) (es₀ es : List (Event FlatMachine)) (m m' : Machine FlatMachine),
      Run flatPlatform (fun _ _ => True) (initial s) es₀ m → m.resumed = true →
      Run flatPlatform (fun k _ => m.frames.tail.length < k.frames.length) m es m' →
      m'.frames.length = m.frames.tail.length → Untouched m es m' := by
  intro h
  obtain ⟨es₀, hreached⟩ := continued_reached [3] (by decide +kernel)
  have hrun := run_ticks (P := flatPlatform) (continued [3]).frames.tail.length
    (List.replicate 4 (0, []) ++ List.replicate 3 (20, [])) (continued [3]) (by decide +kernel)
  obtain ⟨hpending, -⟩ := h _ es₀ _ _ _ hreached (by decide +kernel) hrun (by decide +kernel)
  have hall : ((continued [3]).ticks flatPlatform
      (List.replicate 4 (0, []) ++ List.replicate 3 (20, []))).pending = [] := by decide +kernel
  have hbehind : (continued [3]).pending = [3] := by decide +kernel
  rw [hall, hbehind] at hpending
  exact List.cons_ne_nil _ _ hpending.symm

/-- A Ctrl-C that arrives at the last step is left alone. -/
theorem resumed_untouched_iff_break :
    let ts : List (Nat × List UInt8) := [(0, []), (0, []), (20, []), (20, []), (20, [3])]
    Untouched (continued []) (tickEvents ts) ((continued []).ticks flatPlatform ts) := by
  intro ts
  have hrun := run_ticks (P := flatPlatform) (continued []).frames.tail.length ts (continued [])
    (by decide +kernel)
  refine ((resumed_untouched_iff flatPlatform (by decide +kernel) hrun).2 (by decide +kernel)).mpr
    ⟨by decide +kernel, ?_⟩
  intro e he
  have hquiet : ts.dropLast.all (fun t => t.2 = []) = true := by decide
  rw [tickEvents, ← List.map_dropLast] at he
  obtain ⟨t, ht, rfl⟩ := List.mem_map.mp he
  exact of_decide_eq_true (List.all_eq_true.mp hquiet t ht)

end Machine
end UefiDebugger
