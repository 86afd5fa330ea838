import Mathlib.Data.List.Chain
import UefiDebugger.BreakpointResume
import UefiDebugger.PacketReplies
import UefiDebugger.StopReasons

/-!
# Single steps

`vCont;s` arms a single step in front of the resume (`AddSingleStep`), and only the arm of the debug
exception in `DebuggerExceptionHandler` clears it.  A step that ends in another exception is still
armed when that stop is resumed, however it is resumed.

A `Stop` is an exception with the command that resumes it.  What a stop received is said of its
trace, and what is armed is said of the machine, so that a run of stops is a run of handled
exceptions.
-/
namespace UefiDebugger
open HexText ByteString StateEffect StoredWords

variable {σ : Type}

/-! ## Requests -/

/-- A packet that resumes the target for one step. -/
def Steps (payload : List UInt8) : Prop :=
  ContName (payload.tail.takeWhile plain) ∧ Requests (char 's') payload

theorem Steps.resumes {p : List UInt8} (h : Steps p) : Resumes p := ⟨h.1, Or.inr h.2⟩

/-- `vCont;c`, with anything behind it, requests no step. -/
theorem not_steps_continue {p : List UInt8} (h : text "vCont;c" <+: p) : ¬ Steps p := by
  obtain ⟨rest, rfl⟩ := h
  rintro ⟨-, w, rest', hw, hdrop⟩
  obtain rfl : text "Cont;c" ++ rest = w := (List.cons.inj hw).2
  have hbehind : (text "Cont;c" ++ rest).dropWhile plain = char ';' :: char 'c' :: rest := rfl
  rw [hbehind] at hdrop
  have haction := (List.cons.inj (List.cons.inj hdrop).2).1
  exact absurd haction (by decide)

section VCommand
variable {P : Platform σ} {s : Stub σ} {w : List UInt8}

/-- A `v` command of another name does nothing to the machine. -/
theorem processVCommand_unnamed (h : Holds s.mRequest.bytes 2 (w ++ [0]))
    (hname : ¬ ContName (w.takeWhile plain)) :
    ((processVCommand P 2 w.length).run s).2.vital = s.vital := by
  obtain ⟨t, hparsed, hdone⟩ := processVCommand_decided P h
  have hunknown : vRequest w = .unknown := if_neg hname
  rw [hdone, hunknown, finishVCommand, keeps_sendGdbResponse (π := Stub.vital), hparsed.vital]

end VCommand

/-! ## What is armed -/

/-- No call of the platform but `AddSingleStep` arms or clears a step. -/
def KeepsStep (P : Platform σ) (A : ExceptionArch σ) : Prop :=
  ∀ t t', Serves P t t' → ∀ c, A.armed c t' = A.armed c t

/-- On X64 the step is armed in the context alone. -/
theorem keepsStep_x64 (P : Platform σ) (O : X64.ContextOffsets) :
    KeepsStep P (X64.exceptionArch O σ) :=
  fun _ _ _ _ => rfl

/-- A step is armed for the context the stub works on. -/
def Vital.armed (A : ExceptionArch σ) (v : Vital σ) : Bool :=
  A.armed (v.contexts v.gSystemContext) v.target

/-- A step is armed in the stub's context. -/
def Stub.armed (A : ExceptionArch σ) (s : Stub σ) : Bool := s.vital.armed A

section Armed
variable {P : Platform σ} {A : ExceptionArch σ} {s : Stub σ} {p : List UInt8}

theorem aside_armed (hA : KeepsStep P A) : Aside P (Stub.armed A) where
  request _ _ := rfl
  buffers _ _ _ _ _ _ _ := rfl
  packet _ _ := rfl
  records _ _ _ _ _ := rfl
  target _ _ h := hA _ _ h _

instance : Unasked (Stub.armed A) := ⟨fun _ _ => rfl⟩

instance : Unmoved (Stub.vital (σ := σ)) where
  asked _ _ := rfl
  output _ _ := rfl
  connected _ _ := rfl

/-- **Only a request for a step arms one**, the register writes apart. -/
theorem executeGdbCommand_armed (hA : KeepsStep P A) (h : Payload s.mRequest p)
    (hwrites : s.mRequest.bytes 1 = char 'G' ∨ s.mRequest.bytes 1 = char 'P' →
      ((executeGdbCommand P 1 p.length).run s).2.armed A = true → s.armed A = true)
    (harmed : ((executeGdbCommand P 1 p.length).run s).2.armed A = true) : s.armed A = true ∨
    Steps p := by
  by_cases hwrite : s.mRequest.bytes 1 = char 'G' ∨ s.mRequest.bytes 1 = char 'P'
  · exact Or.inl (hwrites hwrite harmed)
  by_cases hv : s.mRequest.bytes 1 = char 'v'
  · obtain ⟨w, rfl⟩ := h.tail hv (by decide)
    obtain ⟨s', hrun, hparsing⟩ := executeGdbCommand_run P h
    have hvital : s'.vital = s.vital := by
      rw [hparsing.same]
      rfl
    have hdispatch : dispatchGdbCommand P (char 'v') 1 (w.length + 1) =
        processVCommand P 2 w.length := rfl
    rw [List.length_cons, hrun, hdispatch] at harmed
    have houtcome := processVCommand_outcome P hparsing.held
    rw [Stub.armed] at harmed ⊢
    rw [← hvital]
    generalize hresult : ((processVCommand P 2 w.length).run s').2.vital = v at harmed houtcome
    cases houtcome with
    | replied => exact Or.inl harmed
    | continued request => exact Or.inl harmed
    | stepped request =>
      by_cases hname : ContName (w.takeWhile plain)
      · exact Or.inr ⟨hname, request⟩
      · rw [← hresult, processVCommand_unnamed hparsing.held hname] at harmed
        exact Or.inl harmed
  · have := aside_armed hA
    obtain ⟨hG, hP⟩ := not_or.mp hwrite
    rw [aside_executeGdbCommand (π := Stub.armed A) P p.length hv hG hP] at harmed
    exact Or.inl harmed

end Armed

/-! ## Stops -/

/-- The command that resumes a stop. -/
inductive Resume where
  | go
  | step
  deriving DecidableEq

/-- How its payload starts. -/
def Resume.packet : Resume → List UInt8
  | .go => text "vCont;c"
  | .step => text "vCont;s"

/-- An exception and the command its stop is resumed with. -/
structure Stop (σ : Type) where
  raised : Raised σ
  resume : Resume

/-- The payload of a packet that was accepted. -/
def Verdict.payload? : Verdict → Option (List UInt8)
  | .executed payload => some payload
  | .refused => none

/-- The packets received since the last entry, in their order. -/
def received (tr : List Observation) : List (List UInt8) :=
  (decode none (stopReads tr)).2.filterMap Verdict.payload?

theorem mem_received {tr : List Observation} {p : List UInt8} :
    p ∈ received tr ↔ ReceivedIn tr p := by
  rw [received, List.mem_filterMap, ReceivedIn]
  constructor
  · rintro ⟨verdict, hmem, hpayload⟩
    cases verdict with
    | refused => cases hpayload
    | executed payload =>
      obtain rfl := Option.some.inj hpayload
      exact hmem
  · exact fun hmem => ⟨_, hmem, rfl⟩

/-- One command resumes the stop, and it is this one. -/
def ResumedBy (resume : Resume) (tr : List Observation) : Prop :=
  ∃ before p after, received tr = before ++ p :: after ∧ resume.packet <+: p ∧
  ∀ q ∈ before ++ after, ¬ Resumes q

/-- A stop that is continued was not asked for a step. -/
theorem ResumedBy.not_steps {tr : List Observation} (h : ResumedBy .go tr) {q : List UInt8}
    (hq : ReceivedIn tr q) : ¬ Steps q := by
  obtain ⟨before, p, after, hreceived, hpacket, hothers⟩ := h
  have hmem := mem_received.mpr hq
  rw [hreceived, List.mem_append, List.mem_cons] at hmem
  rcases hmem with hbefore | rfl | hafter
  · exact fun hsteps => hothers q (List.mem_append_left _ hbefore) hsteps.resumes
  · exact not_steps_continue hpacket
  · exact fun hsteps => hothers q (List.mem_append_right _ hafter) hsteps.resumes

namespace Machine
variable {P : Platform σ} {A : ExceptionArch σ} {e : Raised σ} {x : Stop σ} {m m₁ : Machine σ}

/-- A step is armed in the machine. -/
def armed (A : ExceptionArch σ) (m : Machine σ) : Bool := m.stub.armed A

/-- A register write that is about to be executed arms no step. -/
def WritesArmNothing (A : ExceptionArch σ) (m : Machine σ) : Prop :=
  ∀ f fs rest, m.frames = f :: fs → f.point = .execute rest →
    m.stub.mRequest.bytes 1 = char 'G' ∨ m.stub.mRequest.bytes 1 = char 'P' →
      (rest.program.run m.stub).2.armed A = true → m.stub.armed A = true

/-- What the code does in a stop that no exception interrupts. -/
def StopStep (A : ExceptionArch σ) (depth : Nat) (m : Machine σ) (event : Event σ) : Prop :=
  depth < m.frames.length ∧ WritesArmNothing A m ∧ ∃ now arrived, event = .tick now arrived

/-- The exception is raised with the step control as it was handed back; its stop is resumed by one
command and left, and the context is handed back. -/
def Handled (P : Platform σ) (A : ExceptionArch σ) (x : Stop σ) (m m₁ : Machine σ) : Prop :=
  A.armed x.raised.context x.raised.target = m.armed A ∧
    ∃ es m', Run P (StopStep A m.frames.length) (m.raise A x.raised) es m' ∧ m'.frames = m.frames ∧
      ResumedBy x.resume m'.trace ∧ m₁ = m'.handBack P A x.raised

/-! ## Inside a stop -/

/-- **The invariant** of the stop of an exception: it works on the context of the exception, and a
step is only armed if it was at the entry or if a packet asked for it. -/
structure Stepping (P : Platform σ) (A : ExceptionArch σ) (e : Raised σ) (atEntry : Bool)
    (k : Machine σ) : Prop where
  context : k.stub.gSystemContext = e.ContextAddress
  armed : k.armed A = true → atEntry = true ∨ ∃ p, ReceivedIn k.trace p ∧ Steps p
  frames : k.frames = [] ∨ ∃ f, k.frames = [f] ∧ At P k.stub.mRequest k.trace f.point

section Steps
variable {atEntry : Bool} {k k' : Machine σ}

/-- The activation moves on. -/
theorem Stepping.goto (h : Stepping P A e atEntry k) {f : Frame σ} {point : StopPoint σ}
    (hat : At P k.stub.mRequest k.trace point) : Stepping P A e atEntry (k.goto f [] point) :=
  ⟨h.context, h.armed, Or.inr ⟨_, rfl, hat⟩⟩

/-- What was received stays received. -/
theorem armed_mono {tr tr' : List Observation} (hmono : ∀ p, ReceivedIn tr p → ReceivedIn tr' p)
    (h : atEntry = true ∨ ∃ p, ReceivedIn tr p ∧ Steps p) : atEntry = true ∨ ∃ p, ReceivedIn tr' p ∧
    Steps p := by
  rcases h with hentry | ⟨p, hreceived, hsteps⟩
  · exact Or.inl hentry
  · exact Or.inr ⟨p, hmono p hreceived, hsteps⟩

/-- A read arms nothing. -/
theorem Stepping.readDone (h : Stepping P A e atEntry k) {f : Frame σ} {input : InputPoint}
    (hstanding : Standing k.stub.mRequest input (decoded k.trace)) (outcome : Receive) :
    Stepping P A e atEntry (k.readDone P f [] input outcome) := by
  have hvital : ((afterRead P input outcome).run k.stub).2.vital = k.stub.vital :=
    keeps_afterRead P input outcome k.stub
  refine ⟨(congrArg Vital.gSystemContext hvital).trans h.context, fun harmed => ?_,
    Or.inr ⟨_, rfl, ?_⟩⟩
  · have hbefore : k.armed A = true := (congrArg (Vital.armed A) hvital).symm.trans harmed
    exact armed_mono (fun p hp => receivedIn_read.mpr (Or.inl hp)) (h.armed hbefore)
  · exact at_afterRead P hstanding outcome

/-- A command arms a step only on request. -/
theorem Stepping.execute (hA : KeepsStep P A) (h : Stepping P A e atEntry k) {T : Nat}
    {rest : Remainder σ} (hframes : k.frames = [⟨T, .execute rest⟩])
    (hat : At P k.stub.mRequest k.trace (.execute rest)) (hwrites : WritesArmNothing A k) :
    Stepping P A e atEntry
    ({ k with stub := (rest.program.run k.stub).2 }.goto ⟨T, .execute rest⟩ []
      (.readStart .first)) := by
  have hcontext := congrArg Prod.snd (entry_of_links rest.keeps k.stub)
  cases hat with
  | @execute _ p idle payload received program =>
    refine ⟨hcontext.trans h.context, fun harmed => ?_, Or.inr ⟨_, rfl, .readStart idle⟩⟩
    have hwrite := hwrites _ _ rest hframes rfl
    have hafter : (rest.program.run k.stub).2.armed A = true := harmed
    rw [program] at hwrite hafter
    rcases executeGdbCommand_armed hA payload hwrite hafter with hbefore | hsteps
    · exact h.armed hbefore
    · exact Or.inr ⟨p, received, hsteps⟩

/-- Leaving the loop arms nothing. -/
theorem armed_leaveStop (hA : KeepsStep P A) (s : Stub σ) :
    ((leaveStop P).run s).2.armed A = s.armed A := by
  have := aside_armed hA
  have hkeeps : Keeps (Stub.armed A) (leaveStop P) :=
    keeps_bind keeps_get fun _ => keeps_ite (keeps_bind (keeps_debugReboot P) fun _ => keeps_pure _)
    (keeps_pure _)
  exact hkeeps s

/-- **One advance of the activation.** -/
theorem Stepping.advance (hA : KeepsStep P A) (h : Stepping P A e atEntry k) {f : Frame σ}
    (hframes : k.frames = [f]) (hwrites : WritesArmNothing A k) (now : Nat) :
    Stepping P A e atEntry (k.advance P f [] now) := by
  obtain ⟨g, hg, hat⟩ : ∃ g, k.frames = [g] ∧ At P k.stub.mRequest k.trace g.point := by
    rcases h.frames with hnone | hone
    · rw [hnone] at hframes
      cases hframes
    · exact hone
  obtain rfl : g = f := List.cons.inj (hg.symm.trans hframes) |>.1
  obtain ⟨T, point⟩ := g
  -- Commands apart, a tick touches neither the context nor what is armed.
  cases hat with
  | poll idle =>
    rw [advance_poll]
    by_cases hnone : k.pending = []
    · rw [if_pos hnone]
      exact h.goto (.clock idle)
    · rw [if_neg hnone]
      exact h.goto (.readStart idle)
  | readStart standing => exact h.goto (.readPoll standing)
  | readPoll standing =>
    cases hpending : k.pending with
    | nil =>
      rw [advance_readPoll_nil hpending]
      exact h.goto (.readClock standing)
    | cons b bs =>
      rw [advance_readPoll_cons hpending]
      have hrest : Stepping P A e atEntry { k with pending := bs } := ⟨h.context, h.armed, h.frames⟩
      exact hrest.readDone standing (.byte b)
  | @readClock input E standing =>
    by_cases hnow : now < E
    · rw [advance_readClock_lt hnow]
      exact h.goto (.readPoll standing)
    · rw [advance_readClock_ge hnow]
      exact h.readDone standing .timeout
  | execute idle payload received program =>
    exact h.execute hA hframes (.execute idle payload received program) hwrites
  | clock idle =>
    by_cases hends : ((checkTimeout T now).run k.stub).2.gRunning = true
    · rw [advance_clock_ends hends]
      refine ⟨?_, fun harmed => ?_, Or.inl rfl⟩
      · have hcontext := keeps_leaveStop P ((checkTimeout T now).run k.stub).2
        exact (congrArg (fun r => r.1.gSystemContext) hcontext).trans h.context
      · have hbefore : k.armed A = true :=
          (armed_leaveStop (P := P) hA ((checkTimeout T now).run k.stub).2).symm.trans harmed
        refine armed_mono (fun p hp => ?_) (h.armed hbefore)
        rw [ReceivedIn, stopReads_other rfl rfl]
        exact hp
    · rw [advance_clock_goes_on hends]
      exact ⟨h.context, h.armed, Or.inr ⟨_, rfl, .poll idle⟩⟩

/-- **One tick.** -/
theorem Stepping.tick (hA : KeepsStep P A) (h : Stepping P A e atEntry k)
    (hwrites : WritesArmNothing A k) (now : Nat) (arrived : List UInt8) :
    Stepping P A e atEntry (k.tick P now arrived) := by
  have harrived : Stepping P A e atEntry (k.arrive arrived) := ⟨h.context, h.armed, h.frames⟩
  rcases tick_cases P k now arrived with ⟨-, htick⟩ | ⟨-, f, fs, hframes, htick⟩
  · rw [htick]
    exact harrived
  · rw [htick]
    rcases h.frames with hnone | ⟨g, hone, -⟩
    · rw [hnone] at hframes
      cases hframes
    · rw [hone] at hframes
      obtain ⟨rfl, rfl⟩ := List.cons.inj hframes
      exact harrived.advance hA hone hwrites now

/-- **The whole stop.** -/
theorem Stepping.run {depth : Nat} {es : List (Event σ)} (hA : KeepsStep P A)
    (h : Stepping P A e atEntry k) (hrun : Run P (StopStep A depth) k es k') :
    Stepping P A e atEntry k' := by
  induction hrun with
  | none => exact h
  | snoc run allowed step ih =>
    obtain ⟨-, hwrites, now, arrived, rfl⟩ := allowed
    cases step with
    | tick now arrived => exact ih.tick hA hwrites now arrived

end Steps

/-! ## From stop to stop -/

/-- The entry: the handler clears a step only for the step exception. -/
theorem stepping_raise (hrunning : m.frames = [])
    (hsaved : A.armed e.context e.target = m.armed A) :
    Stepping P A e (m.armed A && !A.stepCause (e.cause A)) (m.raise A e) := by
  have hreply := keeps_sendStopReply (σ := σ) (π := Stub.vital)
  set r := A.entry (e.cause A) e.context e.target with hr
  have hentry : (m.raise A e).stub.vital =
      ⟨false, e.ContextAddress, Function.update m.stub.contexts e.ContextAddress r.2.1, r.2.2⟩ :=
      hreply _
  have hframes : ∃ T, (m.raise A e).frames = ⟨T, .poll⟩ :: m.frames := ⟨_, rfl⟩
  obtain ⟨T, hframes⟩ := hframes
  rw [hrunning] at hframes
  refine ⟨congrArg Vital.gSystemContext hentry, fun harmed => Or.inl ?_,
    Or.inr ⟨_, hframes, .poll ?_⟩⟩
  · have hvital : (m.raise A e).stub.vital.armed A = true := harmed
    rw [hentry] at hvital
    have hvalue : A.armed (Function.update m.stub.contexts e.ContextAddress r.2.1 e.ContextAddress)
        r.2.2 = true := hvital
    rwa [Function.update_self, hr, A.entry_armed, hsaved] at hvalue
  · show decoded (m.trace ++ [_]) = none
    rw [decoded, stopReads_entered]
    rfl

/-- What is handed back is armed as it was left. -/
theorem armed_handBack (hcontext : m.stub.gSystemContext = e.ContextAddress) :
    (m.handBack P A e).armed A = m.armed A := by
  show A.armed
    (Function.update m.stub.contexts e.ContextAddress (m.handed P A e) m.stub.gSystemContext)
    m.stub.target = A.armed (m.stub.contexts m.stub.gSystemContext) m.stub.target
  rw [hcontext, Function.update_self, handed, A.exit_armed, left]

/-- A stop leaves a step armed only if the exception did not clear it, or if it is asked for one. -/
theorem Handled.armed (hA : KeepsStep P A) (hrunning : m.frames = []) (h : Handled P A x m m₁)
    (harmed : m₁.armed A = true) :
    m.armed A = true ∧ A.stepCause (x.raised.cause A) = false ∨ x.resume = .step := by
  obtain ⟨hsaved, es, m', hrun, -, hresumed, rfl⟩ := h
  have hend := (stepping_raise hrunning hsaved).run hA hrun
  rw [armed_handBack hend.context] at harmed
  rcases hend.armed harmed with hentry | ⟨p, hreceived, hsteps⟩
  · rw [Bool.and_eq_true, Bool.not_eq_true'] at hentry
    exact Or.inl hentry
  · refine Or.inr ?_
    cases hresume : x.resume with
    | step => rfl
    | go =>
      rw [hresume] at hresumed
      exact absurd hsteps (hresumed.not_steps hreceived)

theorem Handled.frames (h : Handled P A x m m₁) : m₁.frames = m.frames := by
  obtain ⟨-, es, m', -, hframes, -, rfl⟩ := h
  exact hframes

/-- The stop, if it is continued, hands back a state with no step armed. -/
def ClearsStep (P : Platform σ) (A : ExceptionArch σ) (x : Stop σ) (m : Machine σ) : Prop :=
  x.resume = .go → ∀ m₁, Handled P A x m m₁ → m₁.armed A = false

/-- A stop that is continued right behind one that was resumed for a step is that of the step
exception. -/
def TrapsStep (A : ExceptionArch σ) (x y : Stop σ) : Prop :=
  x.resume = .step → y.resume = .go → A.stepCause (y.raised.cause A) = true

/-- **A run of stops.**  A step is armed between two of them only behind one that was resumed for a
step. -/
theorem every_clearsStep (hA : KeepsStep P A) : ∀ (xs : List (Stop σ)) (m : Machine σ),
    m.frames = [] →
    (m.armed A = true → ∀ x ∈ xs.head?, x.resume = .go → A.stepCause (x.raised.cause A) = true) →
    xs.IsChain (TrapsStep A) → Every (Handled P A) (ClearsStep P A) m xs := by
  intro xs
  induction xs with
  | nil => exact fun _ _ _ _ => trivial
  | cons x xs ih =>
    intro m hrunning hfirst hchain
    have hclears : ClearsStep P A x m := fun hresume m₁ hhandled => by
      refine Bool.eq_false_of_not_eq_true fun harmed => ?_
      rcases hhandled.armed hA hrunning harmed with ⟨hbefore, hcause⟩ | hstep
      · rw [hfirst hbefore x rfl hresume] at hcause
        cases hcause
      · rw [hresume] at hstep
        cases hstep
    refine ⟨hclears, fun m₁ hhandled =>
      ih m₁ (hhandled.frames.trans hrunning) (fun harmed y hy => ?_) hchain.tail⟩
    -- What is armed here was armed by `x`, and the chain speaks of `x` and `y`.
    have hstep : x.resume = .step := by
      cases hresume : x.resume with
      | step => rfl
      | go =>
        rw [hclears hresume m₁ hhandled] at harmed
        cases harmed
    cases xs with
    | nil => cases hy
    | cons z zs =>
      obtain rfl : z = y := Option.some.inj hy
      exact (List.isChain_cons_cons.mp hchain).1 hstep

/-- **A single step is one-shot** in every run of stops in which what is continued right behind a
stop resumed for a step is the step exception: every stop that is continued hands back a state with
no step armed, on X64 and on AArch64. -/
theorem continued_stops_clear_step (P : Platform σ) (O : X64.ContextOffsets)
    (O' : AArch64.ContextOffsets) (M : AArch64.MdscrAccess σ) {m : Machine σ}
    (hrunning : m.frames = []) (xs : List (Stop σ)) :
    (m.armed (X64.exceptionArch O σ) = false → xs.IsChain (TrapsStep (X64.exceptionArch O σ)) →
    Every (Handled P (X64.exceptionArch O σ)) (ClearsStep P (X64.exceptionArch O σ)) m xs) ∧
    (KeepsStep P (AArch64.exceptionArch O' M) → m.armed (AArch64.exceptionArch O' M) = false →
      xs.IsChain (TrapsStep (AArch64.exceptionArch O' M)) →
        Every (Handled P (AArch64.exceptionArch O' M)) (ClearsStep P (AArch64.exceptionArch O' M))
        m xs) := by
  have hstart : ∀ A : ExceptionArch σ, m.armed A = false → m.armed A = true → ∀ x ∈ xs.head?,
      x.resume = .go → A.stepCause (x.raised.cause A) = true := fun A hclear harmed => by
    rw [hclear] at harmed
    cases harmed
  exact ⟨fun hclear => every_clearsStep (keepsStep_x64 P O) xs m hrunning (hstart _ hclear),
    fun hA hclear => every_clearsStep hA xs m hrunning (hstart _ hclear)⟩

/-! ## A step that faults -/

/-- A flat memory, and `MDSCR_EL1`. -/
abbrev SteppingMachine : Type := FlatMachine × UInt64

/-- The register of the machine. -/
def mdscrAccess : AArch64.MdscrAccess SteppingMachine :=
  ⟨Prod.snd, fun v t => (t.1, v), fun _ _ => rfl⟩

/-- The accesses of the flat memory. -/
def steppingAccess : MemoryAccess SteppingMachine where
  view t := flatAccess.view t.1
  dbgReadMemory Address Length t :=
    let r := flatAccess.dbgReadMemory Address Length t.1
    (r.1, r.2.1, r.2.2, t.2)
  dbgWriteMemory Address Data t :=
    let r := flatAccess.dbgWriteMemory Address Data t.1
    (r.1, r.2, t.2)
  read_true a n t := flatAccess.read_true a n t.1
  read_false a n t := flatAccess.read_false a n t.1
  read_view a n t := flatAccess.read_view a n t.1
  write_true a bs t := flatAccess.write_true a bs t.1
  write_false a bs t := flatAccess.write_false a bs t.1

/-- The flat platform with the single step of an architecture. -/
def steppingPlatform (A : ExceptionArch SteppingMachine) : Platform SteppingMachine where
  toMemoryAccess := steppingAccess
  baseLib := documentedBaseLib
  mArchBreakpointInstruction := flatPlatform.mArchBreakpointInstruction
  instruction_size := flatPlatform.instruction_size
  gDebuggerInfo := flatPlatform.gDebuggerInfo
  gRegisterOffsets := []
  gdbTargetInfo := flatPlatform.gdbTargetInfo
  pcdEnableWindbgWorkarounds := false
  addSingleStep := A.addSingleStep
  addWatchpoint _ _ _ _ t := (false, t)
  removeWatchpoint _ _ _ _ t := (false, t)
  debugReboot t := (true, t)
  dbgSetBreakOnModuleLoad _ t := (false, t)
  gdbReadMsr _ t := ([], t)
  gdbDumpSystemRegisters _ t := ([], t)

/-- The offsets of the fields the AArch64 handler uses. -/
def lowOffsetsAArch64 : AArch64.ContextOffsets := ⟨0, 8, 16, lowOffsets.apart⟩

/-- The two handlers. -/
def steppingX64 : ExceptionArch SteppingMachine := X64.exceptionArch lowOffsets SteppingMachine
def steppingAArch64 : ExceptionArch SteppingMachine :=
  AArch64.exceptionArch lowOffsetsAArch64 mdscrAccess

theorem keepsStep_stepping (A : ExceptionArch SteppingMachine) :
    KeepsStep (steppingPlatform A) steppingAArch64 := by
  intro t t' hserves c
  cases hserves <;> rfl

/-- The machine before its first exception. -/
def quiet : Machine SteppingMachine := initial (Stub.initial (⟨fun _ => 0, []⟩, 0))

/-- The innermost activation is not about to execute a register write. -/
def notWriting (m : Machine σ) : Bool :=
  match m.frames with
  | [] => false
  | ⟨_, .execute _⟩ :: _ =>
    decide (m.stub.mRequest.bytes 1 ≠ char 'G' ∧ m.stub.mRequest.bytes 1 ≠ char 'P')
  | _ => true

theorem stopStep_of_notWriting {k : Machine σ} (h : k.notWriting = true) (now : Nat)
    (arrived : List UInt8) :
    StopStep A 0 k (.tick now arrived) := by
  refine ⟨?_, fun f fs rest hframes hpoint hwrite => ?_, now, arrived, rfl⟩
  · cases hframes : k.frames with
    | nil =>
      rw [notWriting, hframes] at h
      cases h
    | cons f fs => exact Nat.succ_pos _
  · obtain ⟨T, point⟩ := f
    obtain rfl : point = .execute rest := hpoint
    rw [notWriting, hframes] at h
    obtain ⟨hG, hP⟩ := of_decide_eq_true h
    rcases hwrite with hwrite | hwrite
    · exact absurd hwrite hG
    · exact absurd hwrite hP

/-- The stop in which one packet is received. -/
def packetTicks (resume : Resume) : List (Nat × List UInt8) :=
  (0, gdbFrame resume.packet) :: (List.replicate 25 (0, []) ++ List.replicate 3 (20, []))

/-- The machine at the end of the stop. -/
def resumedEnd (P : Platform σ) (A : ExceptionArch σ) (x : Stop σ) (m : Machine σ) : Machine σ :=
  (m.raise A x.raised).ticks P (packetTicks x.resume)

/-- The stop is the only one, ends, and receives its packet alone. -/
def resumesAlone (P : Platform σ) (A : ExceptionArch σ) (x : Stop σ) (m : Machine σ) : Bool :=
  m.frames.isEmpty && (A.armed x.raised.context x.raised.target == m.armed A) &&
    (m.raise A x.raised).ticksPass P notWriting (packetTicks x.resume) &&
    (resumedEnd P A x m).frames.isEmpty &&
    decide (received (resumedEnd P A x m).trace = [x.resume.packet])

theorem handled_of_resumesAlone (h : resumesAlone P A x m = true) :
    Handled P A x m ((resumedEnd P A x m).handBack P A x.raised) := by
  simp only [resumesAlone, Bool.and_eq_true, beq_iff_eq, decide_eq_true_eq, List.isEmpty_iff] at h
  obtain ⟨⟨⟨⟨hrunning, hsaved⟩, hinside⟩, hreturned⟩, hreceived⟩ := h
  have hrun : Run P (StopStep A 0) (m.raise A x.raised) (tickEvents (packetTicks x.resume))
      (resumedEnd P A x m) :=
    run_ticksPass (fun k now arrived hk => stopStep_of_notWriting hk now arrived) _ _ hinside
  have hresumed : ResumedBy x.resume (resumedEnd P A x m).trace :=
    ⟨[], _, [], hreceived, List.prefix_refl _, fun q hq => absurd hq List.not_mem_nil⟩
  refine ⟨hsaved, tickEvents (packetTicks x.resume), resumedEnd P A x m, ?_,
    hreturned.trans hrunning.symm, hresumed, rfl⟩
  rw [hrunning]
  exact hrun

/-- The machine behind the stop. -/
def behind (A : ExceptionArch SteppingMachine) (x : Stop SteppingMachine)
    (m : Machine SteppingMachine) :
    Machine SteppingMachine :=
  (resumedEnd (steppingPlatform A) A x m).handBack (steppingPlatform A) A x.raised

/-- What a property of runs says of the second of two stops. -/
theorem cleared_of_every {A : ExceptionArch SteppingMachine} {x y : Stop SteppingMachine}
    (h : Every (Handled (steppingPlatform A) A) (ClearsStep (steppingPlatform A) A) quiet [x, y])
    (hx : resumesAlone (steppingPlatform A) A x quiet = true)
    (hy : resumesAlone (steppingPlatform A) A y (behind A x quiet) = true) (hgo : y.resume = .go) :
    (behind A y (behind A x quiet)).armed A = false :=
  (h.2 _ (handled_of_resumesAlone hx)).1 hgo _ (handled_of_resumesAlone hy)

/-- An exception of X64, with the flags of its context. -/
def stopX64 (InterruptType : Nat) (Rflags : UInt64) (resume : Resume) : Stop SteppingMachine :=
  ⟨⟨InterruptType, 1, 2, setWord (fun _ => 0) 8 Rflags, (⟨fun _ => 0, []⟩, 0), 0⟩, resume⟩

/-- An exception of AArch64, with its syndrome and `MDSCR_EL1`. -/
def stopAArch64 (ESR mdscr : UInt64) (resume : Resume) : Stop SteppingMachine :=
  ⟨⟨0, 1, 2, setWord (fun _ => 0) 16 ESR, (⟨fun _ => 0, []⟩, mdscr), 0⟩, resume⟩

/-- **A step that faults is still armed** when the target is continued. -/
theorem faulting_step_stays_armed :
    ¬ ∀ (m : Machine SteppingMachine) (xs : List (Stop SteppingMachine)), m.frames = [] →
    m.armed steppingX64 = false →
      Every (Handled (steppingPlatform steppingX64) steppingX64)
        (ClearsStep (steppingPlatform steppingX64) steppingX64) m xs := by
  intro h
  have hcleared :=
    cleared_of_every
    (h quiet [stopX64 13 0 .step, stopX64 14 X64.tfBit .go] rfl (by decide +kernel))
    (by decide +kernel) (by decide +kernel) rfl
  revert hcleared
  decide +kernel

/-- The theorem where the stepped instruction traps: on X64 with the debug exception, on AArch64
with class `0x33`. -/
theorem continued_stops_clear_step_trapped :
    (behind steppingX64 (stopX64 1 X64.tfBit .go)
        (behind steppingX64 (stopX64 13 0 .step) quiet)).armed steppingX64 = false ∧
    (behind steppingAArch64 (stopAArch64 0xCC000000 0xA001 .go)
        (behind steppingAArch64 (stopAArch64 0x94000000 0 .step) quiet)).armed steppingAArch64 =
        false := by
  have hrunning : (quiet : Machine SteppingMachine).frames = [] := rfl
  have htrap : ∀ (A : ExceptionArch SteppingMachine) (x y : Stop SteppingMachine),
      A.stepCause (y.raised.cause A) = true → [x, y].IsChain (TrapsStep A) := fun A x y hcause =>
    List.isChain_pair.mpr fun _ _ => hcause
  refine ⟨?_, ?_⟩
  · have hrun :=
      (continued_stops_clear_step (steppingPlatform steppingX64) lowOffsets lowOffsetsAArch64
        mdscrAccess hrunning [stopX64 13 0 .step, stopX64 1 X64.tfBit .go]).1 (by decide +kernel)
      (htrap _ _ _ rfl)
    exact cleared_of_every (A := steppingX64) hrun (by decide +kernel) (by decide +kernel) rfl
  · have hrun :=
      (continued_stops_clear_step (steppingPlatform steppingAArch64) lowOffsets lowOffsetsAArch64
        mdscrAccess hrunning [stopAArch64 0x94000000 0 .step, stopAArch64 0xCC000000 0xA001 .go]).2
      (keepsStep_stepping _) (by decide +kernel) (htrap _ _ _ (by decide +kernel))
    exact cleared_of_every (A := steppingAArch64) hrun (by decide +kernel) (by decide +kernel) rfl

end Machine
end UefiDebugger
