import UefiDebugger.CommandRuns
import Mathlib.Tactic.SplitIfs

/-!
# Which commands resume the target

`ProcessVCommand` cuts its text at the first `;` or `?` and resumes on a `c` or an `s` right behind
a `;`.  No other command sets `gRunning`.
-/
namespace UefiDebugger
open HexText ByteString StateEffect

variable {σ : Type}

/-- A character that is no delimiter of a `v` command. -/
def plain (Char : UInt8) : Bool := decide (Char ≠ char ';' ∧ Char ≠ char '?')

/-- A payload that starts with `v` and whose first `;` or `?` is a `;` directly followed by
`Action`. -/
def Requests (Action : UInt8) (payload : List UInt8) : Prop :=
  ∃ w rest, payload = char 'v' :: w ∧ w.dropWhile plain = char ';' :: Action :: rest

/-- A request to resume the target, at full speed or for one step. -/
def RequestsResume (payload : List UInt8) : Prop :=
  Requests (char 'c') payload ∨ Requests (char 's') payload

/-- The delimiter search finds the first delimiter, or the end of what it was told to look at. -/
theorem findDelimiter_run (Command : Nat) : ∀ (w : List UInt8) (i : Nat) (s : Stub σ),
    Holds s.mRequest.bytes (Command + i) w →
    ∃ top, (findDelimiter Command w.length i).run s =
      (i + (w.takeWhile plain).length, { s with mRequest := s.mRequest.mark top })
  | [], i, s, _ => ⟨0, by simp [findDelimiter, ByteBuffer.mark]⟩
  | b :: w, i, s, h => by
      obtain ⟨hb, hw⟩ := h
      by_cases hc : b = char ';' ∨ b = char '?'
      · refine ⟨Command + i + 1, ?_⟩
        have hplain : plain b = false := by
          rw [plain, decide_eq_false_iff_not]
          exact fun hne => hc.elim hne.1 hne.2
        simp [findDelimiter, readRequest, hb, hc, hplain]
      · obtain ⟨top, ih⟩ := findDelimiter_run Command w (i + 1)
          { s with mRequest := s.mRequest.mark (Command + i + 1) } hw
        have hplain : plain b = true := by
          rw [plain, decide_eq_true_iff]
          exact not_or.mp hc
        refine ⟨max (Command + i + 1) top, ?_⟩
        simp only [findDelimiter, List.length_cons, readRequest, run_bind, run_modifyGet, hb, hc,
          if_false, ih, ByteBuffer.mark_mark, List.takeWhile_cons, hplain, if_true]
        rw [Nat.add_assoc, Nat.add_comm 1]

/-- What is behind the first delimiter, terminator included. -/
theorem holds_behind {f : Nat → UInt8} {c : Nat} {w : List UInt8} (h : Holds f c (w ++ [0])) :
    Holds f (c + (w.takeWhile plain).length) (w.dropWhile plain ++ [0]) := by
  conv at h => rw [← List.takeWhile_append_dropWhile (p := plain) (l := w), List.append_assoc]
  exact (holds_append.mp h).2

/-- `strncmp` over all of a text compares up to the end of the literal. -/
theorem strNEq_whole {f : Nat → UInt8} : ∀ {str q : List UInt8} {i : Nat}, (0 : UInt8) ∉ str →
    Holds f i q → ((strNEq f i str q.length).1 = true ↔ q <+: str ++ [0] ∨ str ++ [0] <+: q)
  | _, [], _, _, _ => by simp [strNEq]
  | [], b :: q, i, _, h => by
      rw [List.length_cons, strNEq, h.1]
      by_cases hb : b = 0
      · simp [hb]
      · have h0b : 0 ≠ b := Ne.symm hb
        simp [hb, h0b]
  | c :: str, b :: q, i, hstr, h => by
      obtain ⟨hb, hq⟩ := h
      have hrest := strNEq_whole (fun h0 => hstr (List.mem_cons_of_mem c h0)) hq
      rw [List.length_cons, strNEq, List.headD_cons, List.tail_cons, List.cons_append,
        List.cons_prefix_cons, List.cons_prefix_cons, hb]
      by_cases hbc : b = c
      · have hb0 : b ≠ 0 := fun he => hstr (by rw [← hbc, he]; exact List.mem_cons_self)
        simp [hbc, hbc ▸ hb0, hrest]
      · have hcb : c ≠ b := Ne.symm hbc
        simp [hbc, hcb]

/-- What `ProcessVCommand` takes for `Cont`: it compares over the length of the text, not of the
literal. -/
def ContName (name : List UInt8) : Prop := name <+: text "Cont" ++ [0] ∨ text "Cont" ++ [0] <+: name

instance : DecidablePred ContName := fun name =>
  inferInstanceAs (Decidable (name <+: text "Cont" ++ [0] ∨ text "Cont" ++ [0] <+: name))

/-! ## `v` commands by their text -/

/-- What a `v` command comes to: the target is continued or stepped, or a reply is sent. -/
inductive VRequest where
  | goOn
  | step
  | list
  | unknown
  deriving DecidableEq

/-- What the text behind the `v` comes to. -/
def vRequest (w : List UInt8) : VRequest :=
  if ContName (w.takeWhile plain) then
    if text ";c" <+: w.dropWhile plain then .goOn
    else if text ";s" <+: w.dropWhile plain then .step
    else if text "?" <+: w.dropWhile plain then .list
    else .unknown
  else .unknown

/-- What is done then. -/
def finishVCommand (P : Platform σ) : VRequest → StubM σ Unit
  | .goOn => setRunning
  | .step => do
      addSingleStep P
      setRunning
  | .list => sendGdbResponse (.text (text "vCont;c;C;s;S"))
  | .unknown => sendGdbResponse (.text [])

/-- `t` is `s` but for the request buffer and the assertions. -/
structure Parsed (s t : Stub σ) : Prop where
  same : t = { s with mRequest := t.mRequest, failedAsserts := t.failedAsserts }

/-- The characters at the first delimiter. -/
theorem prefix_of_held {f : Nat → UInt8} {k : Nat} : ∀ {tail str : List UInt8}, (0 : UInt8) ∉ str →
    Holds f k (tail ++ [0]) → (str <+: tail ↔ Holds f k str)
  | _, [], _, _ => by simp [Holds]
  | [], c :: str, hstr, h => by
      have hc : f k ≠ c := by
        rw [h.1]
        exact fun he => hstr (he ▸ List.mem_cons_self)
      simp [Holds, hc]
  | b :: tail, c :: str, hstr, h => by
      have hrest := prefix_of_held (fun h0 => hstr (List.mem_cons_of_mem c h0)) h.2
      rw [List.cons_prefix_cons, hrest, Holds, h.1]
      exact and_congr_left fun _ => eq_comm

section Parsing
variable {P : Platform σ} {s : Stub σ} {w : List UInt8} {k : Nat} {Action : UInt8}

/-- The command comes to `r`, done in a state in which only the request was read. -/
def Decided (P : Platform σ) (s : Stub σ) (r : VRequest) (u : Stub σ) : Prop :=
  ∃ t, Parsed s t ∧ u = ((finishVCommand P r).run t).2

/-- On the way through a `v` command: nothing happened yet, and the request has `Action` at offset
`k`. -/
def Undecided (s : Stub σ) (k : Nat) (Action : UInt8) (t : Stub σ) : Prop :=
  Parsed s t ∧ t.mRequest.bytes k = Action

/-- From here, what is left of the command is `finishVCommand`. -/
theorem undecided_finish {r : VRequest} (h : vRequest w = r) :
    Ensures (Undecided s k Action) (finishVCommand P r) fun _ => Decided P s (vRequest w) := by
  rintro t ⟨hparsed, -⟩
  rw [h]
  exact ⟨t, hparsed, rfl⟩

/-- Behind a `;`, the action decides. -/
theorem undecided_action (hc : Action = char 'c' → vRequest w = .goOn)
    (hs : Action = char 's' → vRequest w = .step)
    (hother : Action ≠ char 'c' → Action ≠ char 's' → vRequest w = .unknown) :
    Ensures (Undecided s k Action) (do
      let Action ← readRequest k
      if Action = char 'c' then setRunning
      else if Action = char 's' then do
        addSingleStep P
        setRunning
      else sendGdbResponse (.text []) : StubM σ Unit) fun _ => Decided P s (vRequest w) := by
  have hread : Ensures (Undecided s k Action) (readRequest k : StubM σ UInt8) fun b t =>
      Undecided s k Action t ∧ b = Action := by
    rintro t ⟨⟨hsame⟩, hbyte⟩
    exact ⟨⟨⟨by rw [hsame]; rfl⟩, hbyte⟩, hbyte⟩
  refine ensures_bind hread fun b => ensures_fact fun hb => ?_
  subst hb
  refine ensures_ite (fun hbc => undecided_finish (hc hbc)) fun hbc => ?_
  exact ensures_ite (fun hbs => undecided_finish (hs hbs)) fun hbs =>
    undecided_finish (hother hbc hbs)

/-- The text before the delimiter is still in the request. -/
def Named (s : Stub σ) (i : Nat) (Action : UInt8) (name : List UInt8) (t : Stub σ) : Prop :=
  Undecided s (2 + i + 1) Action t ∧ Holds t.mRequest.bytes 2 name

/-- The delimiter is terminated, and what is in front of it is compared. -/
theorem named_compare {i : Nat} {name : List UInt8} (hi : name.length = i) :
    Ensures (Named s i Action name) (do
      writeRequest (2 + i) 0
      asciiStrnCmpEq 2 (text "Cont") i : StubM σ Bool)
      fun same t => Undecided s (2 + i + 1) Action t ∧ (same = true ↔ ContName name) := by
  rintro t ⟨⟨⟨hsame⟩, haction⟩, hname⟩
  have hkept : Function.update t.mRequest.bytes (2 + i) 0 (2 + i + 1) = Action := by
    rw [Function.update_of_ne (Nat.succ_ne_self _), haction]
  have hheld : Holds (Function.update t.mRequest.bytes (2 + i) 0) 2 name :=
    (holds_congr fun j _ hj => Function.update_of_ne (by omega) ..).mpr hname
  have hcompare :
      (strNEq (Function.update t.mRequest.bytes (2 + i) 0) 2 (text "Cont") name.length).1 = true ↔
      ContName name := strNEq_whole (by decide) hheld
  rw [hi] at hcompare
  exact ⟨⟨⟨by rw [hsame]; rfl⟩, hkept⟩, hcompare⟩

/-- **What `ProcessVCommand` does is decided by its text.** -/
theorem processVCommand_decided (P : Platform σ) (h : Holds s.mRequest.bytes 2 (w ++ [0])) :
    Decided P s (vRequest w) ((processVCommand P 2 w.length).run s).2 := by
  obtain ⟨top, hfind⟩ := findDelimiter_run 2 w 0 s (holds_append.mp h).1
  have hbehind := holds_behind h
  have hname : Holds s.mRequest.bytes 2 (w.takeWhile plain) := by
    have hall := (holds_append.mp h).1
    rw [← List.takeWhile_append_dropWhile (p := plain) (l := w)] at hall
    exact (holds_append.mp hall).1
  rw [Nat.zero_add] at hfind
  rw [processVCommand, run_bind, hfind]
  generalize hi : (w.takeWhile plain).length = i at hbehind
  set Action := s.mRequest.bytes (2 + i + 1) with hAction
  set Delimiter := s.mRequest.bytes (2 + i) with hDelimiter
  have htext : ∀ c d, (0 : UInt8) ∉ [c, d] →
      ([c, d] <+: w.dropWhile plain ↔ Delimiter = c ∧ Action = d) := by
    intro c d hzero
    rw [prefix_of_held hzero hbehind]
    exact ⟨fun hheld => ⟨hheld.1, hheld.2.1⟩, fun hheld => ⟨hheld.1, hheld.2, trivial⟩⟩
  have hquestion : text "?" <+: w.dropWhile plain ↔ Delimiter = char '?' := by
    rw [prefix_of_held (by decide) hbehind]
    exact ⟨fun hheld => hheld.1, fun hheld => ⟨hheld, trivial⟩⟩
  have hgoOn : text ";c" <+: w.dropWhile plain ↔ Delimiter = char ';' ∧ Action = char 'c' :=
    htext _ _ (by decide)
  have hstep : text ";s" <+: w.dropWhile plain ↔ Delimiter = char ';' ∧ Action = char 's' :=
    htext _ _ (by decide)
  -- Up to the comparison the buffer holds the name, and `Action` the byte behind what ends it.
  have hstart : Named s i Action (w.takeWhile plain) { s with mRequest := s.mRequest.mark top } :=
    ⟨⟨⟨rfl⟩, rfl⟩, hname⟩
  have hdelimiter : Ensures (fun t => Named s i Action (w.takeWhile plain) t ∧
      t.mRequest.bytes (2 + i) = Delimiter) (readRequest (2 + i) : StubM σ UInt8)
        fun b t => Named s i Action (w.takeWhile plain) t ∧ b = Delimiter := by
    rintro t ⟨⟨⟨⟨hsame⟩, hbyte⟩, hheld⟩, hb⟩
    exact ⟨⟨⟨⟨by rw [hsame]; rfl⟩, hbyte⟩, hheld⟩, hb⟩
  have hassert : ∀ c, Ensures (Named s i Action (w.takeWhile plain))
      (assert .vDelimiter c : StubM σ Unit) fun _ => Named s i Action (w.takeWhile plain) := by
    rintro c t ⟨⟨⟨hsame⟩, hbyte⟩, hheld⟩
    rw [assert_run]
    exact ⟨⟨⟨by rw [hsame]⟩, hbyte⟩, hheld⟩
  dsimp only
  refine (?_ : Ensures (fun t => Named s i Action (w.takeWhile plain) t ∧
      t.mRequest.bytes (2 + i) = Delimiter) _
      fun _ => Decided P s (vRequest w)) _ ⟨hstart, rfl⟩
  refine ensures_bind hdelimiter fun b => ensures_fact fun hb => ?_
  subst hb
  refine ensures_bind (hassert _) fun _ => ?_
  rw [← bind_assoc]
  -- The name decides first, then what ends it, then the action.
  refine ensures_bind (named_compare hi) fun same => ensures_fact fun hsame => ?_
  refine ensures_ite (fun htrue => ?_) fun hfalse => ?_
  swap
  · exact undecided_finish (if_neg (mt hsame.mpr hfalse))
  have hcont : ContName (w.takeWhile plain) := hsame.mp htrue
  refine ensures_ite (fun hsemi => ?_) fun hother => ?_
  · refine undecided_action (fun hc => ?_) (fun hs => ?_) fun hc hs => ?_
    · rw [vRequest, if_pos hcont, if_pos (hgoOn.mpr ⟨hsemi, hc⟩)]
    · have hno : ¬ text ";c" <+: w.dropWhile plain := fun hpre =>
        absurd ((hgoOn.mp hpre).2.symm.trans hs) (by decide)
      rw [vRequest, if_pos hcont, if_neg hno, if_pos (hstep.mpr ⟨hsemi, hs⟩)]
    · have hno : ¬ text "?" <+: w.dropWhile plain := fun hpre =>
        absurd ((hquestion.mp hpre).symm.trans hsemi) (by decide)
      rw [vRequest, if_pos hcont, if_neg fun hpre => hc (hgoOn.mp hpre).2, if_neg fun hpre =>
        hs (hstep.mp hpre).2, if_neg hno]
  · have hrequest : vRequest w = if text "?" <+: w.dropWhile plain then .list else .unknown := by
      rw [vRequest, if_pos hcont, if_neg fun hpre => hother (hgoOn.mp hpre).1,
        if_neg fun hpre => hother (hstep.mp hpre).1]
    refine ensures_ite (fun hq => ?_) fun hq => ?_
    · exact undecided_finish (hrequest.trans (if_pos (hquestion.mpr hq)))
    · exact undecided_finish (hrequest.trans (if_neg (mt hquestion.mp hq)))

end Parsing

/-! ## What a resumed target goes on with -/

/-- What a resumed target goes on with, and whether it goes on. -/
structure Vital (σ : Type) where
  gRunning : Bool
  gSystemContext : Nat
  contexts : Nat → Context
  target : σ

def Stub.vital (s : Stub σ) : Vital σ := ⟨s.gRunning, s.gSystemContext, s.contexts, s.target⟩

/-- `AddSingleStep` on the context the stub works on. -/
def Vital.addSingleStep (P : Platform σ) (v : Vital σ) : Vital σ :=
  let r := P.addSingleStep (v.contexts v.gSystemContext) v.target
  { v with contexts := Function.update v.contexts v.gSystemContext r.1, target := r.2 }

instance : Silent (Stub.vital (σ := σ)) :=
  ⟨fun _ _ => rfl, fun _ _ _ _ _ _ _ => rfl, fun _ _ => rfl⟩

/-- What a `v` command can do: reply, resume, or resume for one step. -/
inductive VOutcome (P : Platform σ) (payload : List UInt8) (v : Vital σ) : Vital σ → Prop
  | replied : VOutcome P payload v v
  | continued (request : Requests (char 'c') payload) : VOutcome P payload v
      { v with gRunning := true }
  | stepped (request : Requests (char 's') payload) :
      VOutcome P payload v { v.addSingleStep P with gRunning := true }

theorem VOutcome.resumes {P : Platform σ} {payload : List UInt8} {v v' : Vital σ}
    (h : VOutcome P payload v v') (hrunning : v'.gRunning = true) :
    v.gRunning = true ∨ RequestsResume payload := by
  cases h with
  | replied => exact Or.inl hrunning
  | continued request => exact Or.inr (Or.inl request)
  | stepped request => exact Or.inr (Or.inr request)

theorem Parsed.vital {s t : Stub σ} (h : Parsed s t) : t.vital = s.vital := by
  rw [h.same]
  rfl

/-- A text that has an action right behind its first delimiter. -/
theorem requests_iff {w : List UInt8} {Action : UInt8} :
    Requests Action (char 'v' :: w) ↔ [char ';', Action] <+: w.dropWhile plain := by
  constructor
  · rintro ⟨w', rest, hw, hrest⟩
    rw [(List.cons.inj hw).2, hrest]
    exact ⟨rest, rfl⟩
  · rintro ⟨rest, hrest⟩
    exact ⟨w, rest, rfl, hrest.symm⟩

/-- Only a command named `Cont` comes to anything. -/
theorem vRequest_named {w : List UInt8} (h : vRequest w ≠ .unknown) :
    ContName (w.takeWhile plain) := by
  by_contra hname
  exact h (if_neg hname)

/-- What the text comes to says what it requests. -/
theorem vRequest_goOn {w : List UInt8} (h : vRequest w = .goOn) :
    Requests (char 'c') (char 'v' :: w) := by
  unfold vRequest at h
  split_ifs at h with hname hc
  exact requests_iff.mpr hc

theorem vRequest_step {w : List UInt8} (h : vRequest w = .step) :
    Requests (char 's') (char 'v' :: w) := by
  unfold vRequest at h
  split_ifs at h with hname hc hs
  exact requests_iff.mpr hs

/-- **What `ProcessVCommand` does.** -/
theorem processVCommand_outcome (P : Platform σ) {s : Stub σ} {w : List UInt8}
    (h : Holds s.mRequest.bytes 2 (w ++ [0])) :
    VOutcome P (char 'v' :: w) s.vital ((processVCommand P 2 w.length).run s).2.vital := by
  obtain ⟨t, hparsed, hdone⟩ := processVCommand_decided P h
  rw [hdone, ← hparsed.vital]
  cases hrequest : vRequest w with
  | goOn => exact .continued (vRequest_goOn hrequest)
  | step => exact .stepped (vRequest_step hrequest)
  | list =>
    rw [finishVCommand, keeps_sendGdbResponse (π := Stub.vital)]
    exact .replied
  | unknown =>
    rw [finishVCommand, keeps_sendGdbResponse (π := Stub.vital)]
    exact .replied

/-- **What a command does to a resumed target**: only a `v` command resumes it, and only on
request. -/
theorem executeGdbCommand_resumes (P : Platform σ) {s : Stub σ} {p : List UInt8}
    (h : Payload s.mRequest p)
    (hresumes : ((executeGdbCommand P 1 p.length).run s).2.gRunning = true) : s.gRunning = true ∨
    RequestsResume p := by
  have hother : s.mRequest.bytes 1 ≠ char 'v' → s.gRunning = true ∨ RequestsResume p := fun hb => by
    have hflags := congrArg Prod.snd (flags_executeGdbCommand P p.length hb)
    exact Or.inl (hflags.symm.trans hresumes)
  cases p with
  | nil => exact hother (by rw [h.held.1]; decide)
  | cons b w =>
    by_cases hb : b = char 'v'
    · subst hb
      obtain ⟨s', hrun, hparsing⟩ := executeGdbCommand_run P h
      rw [List.length_cons, hrun] at hresumes
      have hvital : s'.vital = s.vital := by
        rw [hparsing.same]
        rfl
      have houtcome : VOutcome P (char 'v' :: w) s.vital
          ((dispatchGdbCommand P (char 'v') 1 (w.length + 1)).run s').2.vital := by
        rw [← hvital]
        exact processVCommand_outcome P hparsing.held
      exact houtcome.resumes hresumes
    · exact hother (by rw [h.held.1]; exact hb)

end UefiDebugger
