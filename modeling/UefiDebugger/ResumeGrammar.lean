import UefiDebugger.CommandSession
import UefiDebugger.PacketReplies

/-!
# The `vCont` grammar

The reply to `vCont?` announces the actions `c`, `C`, `s` and `S`; `ProcessVCommand` looks for `c`
and `s` only.  It compares the name over the length the name has in the packet, so that a name
shorter than `Cont` is taken for it.

`vGrammar` says what a text means by the grammar announced, and `vRequest` what the code makes of
it.  They differ on the texts that are `Misread`, and there the replies differ too.
-/
namespace UefiDebugger
open HexText ByteString StateEffect

variable {σ : Type}

/-! ## The grammar -/

/-- The actions announced. -/
def vContActions : List UInt8 := text "cCsS"

/-- The reply to `vCont?`. -/
def vContList : List UInt8 := text "vCont" ++ vContActions.flatMap fun Action => [char ';', Action]

/-- What the text behind the `v` means. -/
def vGrammar (w : List UInt8) : VRequest :=
  if text "Cont;c" <+: w ∨ text "Cont;C" <+: w then .goOn
  else if text "Cont;s" <+: w ∨ text "Cont;S" <+: w then .step
  else if text "Cont?" <+: w then .list
  else .unknown

/-- The command begun in `s` left `t`, and did what `r` says. -/
def VRequest.Done (P : Platform σ) (s t : Stub σ) : VRequest → Prop
  | .goOn => t.vital = { s.vital with gRunning := true } ∧ t.output = s.output
  | .step => t.vital = { s.vital.addSingleStep P with gRunning := true } ∧ t.output = s.output
  | .list => t.vital = s.vital ∧ RepliedWith vContList s t
  | .unknown => t.vital = s.vital ∧ RepliedWith [] s t

/-- The command did what the grammar says. -/
def FollowsGrammar (P : Platform σ) (w : List UInt8) (s t : Stub σ) : Prop :=
  (vGrammar w).Done P s t

/-- An action that is announced and not looked for, or a request behind a name that is taken for
`Cont` and is not. -/
def Misread (w : List UInt8) : Prop :=
  text "Cont;C" <+: w ∨ text "Cont;S" <+: w ∨
    (w.takeWhile plain ≠ text "Cont" ∧ ContName (w.takeWhile plain) ∧
      (text ";c" <+: w.dropWhile plain ∨ text ";s" <+: w.dropWhile plain ∨
        text "?" <+: w.dropWhile plain))

/-! ## Texts by their name -/

section Texts
variable {w : List UInt8}

/-- A text that starts with a name and a delimiter has that name. -/
theorem named_prefix_iff {name rest : List UInt8} {d : UInt8} (hname : ∀ b ∈ name, plain b = true)
    (hd : plain d = false) :
    name ++ d :: rest <+: w ↔ w.takeWhile plain = name ∧ d :: rest <+: w.dropWhile plain := by
  constructor
  · rintro ⟨more, rfl⟩
    rw [List.append_assoc, List.takeWhile_append_of_pos hname, List.dropWhile_append_of_pos hname,
      List.cons_append, List.takeWhile_cons, List.dropWhile_cons, hd]
    exact ⟨List.append_nil name, more, rfl⟩
  · rintro ⟨hfront, more, hmore⟩
    refine ⟨more, ?_⟩
    rw [List.append_assoc, hmore, ← hfront]
    exact List.takeWhile_append_dropWhile

/-- `Cont` with a delimiter behind it. -/
theorem cont_prefix_iff {rest : List UInt8} {d : UInt8} (hd : plain d = false) :
    text "Cont" ++ d :: rest <+: w ↔ w.takeWhile plain = text "Cont" ∧
    d :: rest <+: w.dropWhile plain := by
  have hplain : (text "Cont").all plain = true := rfl
  exact named_prefix_iff (List.all_eq_true.mp hplain) hd

/-- What the text means depends on what is behind the name. -/
theorem vGrammar_of_cont (hname : w.takeWhile plain = text "Cont") :
    vGrammar w =
      if text ";c" <+: w.dropWhile plain ∨ text ";C" <+: w.dropWhile plain then .goOn
      else if text ";s" <+: w.dropWhile plain ∨ text ";S" <+: w.dropWhile plain then .step
      else if text "?" <+: w.dropWhile plain then .list
      else .unknown := by
  have hbehind : ∀ {d rest}, plain d = false →
      (text "Cont" ++ d :: rest <+: w ↔ d :: rest <+: w.dropWhile plain) := fun hd => by
    rw [cont_prefix_iff hd, and_iff_right hname]
  have hc : text "Cont;c" <+: w ↔ text ";c" <+: w.dropWhile plain := hbehind (by decide)
  have hC : text "Cont;C" <+: w ↔ text ";C" <+: w.dropWhile plain := hbehind (by decide)
  have hs : text "Cont;s" <+: w ↔ text ";s" <+: w.dropWhile plain := hbehind (by decide)
  have hS : text "Cont;S" <+: w ↔ text ";S" <+: w.dropWhile plain := hbehind (by decide)
  have hq : text "Cont?" <+: w ↔ text "?" <+: w.dropWhile plain := hbehind (by decide)
  rw [vGrammar, if_congr (or_congr hc hC) rfl (if_congr (or_congr hs hS) rfl (if_congr hq rfl rfl))]

theorem vGrammar_of_other (hname : w.takeWhile plain ≠ text "Cont") : vGrammar w = .unknown := by
  have hno : ∀ {d rest}, plain d = false → ¬ text "Cont" ++ d :: rest <+: w :=
    fun hd hprefix => hname ((cont_prefix_iff hd).mp hprefix).1
  have hgo : ¬ (text "Cont;c" <+: w ∨ text "Cont;C" <+: w) :=
    not_or.mpr ⟨hno (by decide), hno (by decide)⟩
  have hstep : ¬ (text "Cont;s" <+: w ∨ text "Cont;S" <+: w) :=
    not_or.mpr ⟨hno (by decide), hno (by decide)⟩
  have hlist : ¬ text "Cont?" <+: w := hno (by decide)
  rw [vGrammar, if_neg hgo, if_neg hstep, if_neg hlist]

theorem contName_cont : ContName (text "Cont") := Or.inl ⟨[0], rfl⟩

/-- What the code makes of a text named `Cont`. -/
theorem vRequest_of_cont (hname : w.takeWhile plain = text "Cont") :
    vRequest w =
      if text ";c" <+: w.dropWhile plain then .goOn
      else if text ";s" <+: w.dropWhile plain then .step
      else if text "?" <+: w.dropWhile plain then .list
      else .unknown := by
  rw [vRequest, hname, if_pos contName_cont]

/-- Another action is neither `c` nor `s`. -/
theorem vRequest_of_action {Action : UInt8} (hAction : [char ';', Action] <+: w.dropWhile plain)
    (hc : Action ≠ char 'c') (hs : Action ≠ char 's') : vRequest w = .unknown := by
  obtain ⟨rest, hrest⟩ := hAction
  have hbehind : w.dropWhile plain = char ';' :: Action :: rest := hrest.symm
  have hnc : ¬ text ";c" <+: char ';' :: Action :: rest := fun hprefix =>
    hc (List.cons_prefix_cons.mp (List.cons_prefix_cons.mp hprefix).2).1.symm
  have hns : ¬ text ";s" <+: char ';' :: Action :: rest := fun hprefix =>
    hs (List.cons_prefix_cons.mp (List.cons_prefix_cons.mp hprefix).2).1.symm
  have hnq : ¬ text "?" <+: char ';' :: Action :: rest := fun hprefix =>
    absurd (List.cons_prefix_cons.mp hprefix).1 (by decide)
  rw [vRequest, hbehind, if_neg hnc, if_neg hns, if_neg hnq, ite_self]

/-- **What is not misread means what the code makes of it.** -/
theorem vRequest_eq_vGrammar (h : ¬ Misread w) : vRequest w = vGrammar w := by
  obtain ⟨hC, hS, hother⟩ : ¬ text "Cont;C" <+: w ∧ ¬ text "Cont;S" <+: w ∧ _ := by
    rwa [Misread, not_or, not_or] at h
  by_cases hname : w.takeWhile plain = text "Cont"
  · have hC' : ¬ text ";C" <+: w.dropWhile plain := fun hprefix =>
      hC ((cont_prefix_iff (by decide)).mpr ⟨hname, hprefix⟩)
    have hS' : ¬ text ";S" <+: w.dropWhile plain := fun hprefix =>
      hS ((cont_prefix_iff (by decide)).mpr ⟨hname, hprefix⟩)
    rw [vRequest_of_cont hname, vGrammar_of_cont hname,
      if_congr (or_iff_left hC') rfl (if_congr (or_iff_left hS') rfl rfl)]
  · rw [vGrammar_of_other hname, vRequest]
    by_cases hcont : ContName (w.takeWhile plain)
    · obtain ⟨hc, hs, hq⟩ : ¬ text ";c" <+: w.dropWhile plain ∧ ¬ text ";s" <+: w.dropWhile plain ∧
          ¬ text "?" <+: w.dropWhile plain := by
        refine ⟨fun hc => ?_, fun hs => ?_, fun hq => ?_⟩
        · exact hother ⟨hname, hcont, Or.inl hc⟩
        · exact hother ⟨hname, hcont, Or.inr (Or.inl hs)⟩
        · exact hother ⟨hname, hcont, Or.inr (Or.inr hq)⟩
      rw [if_pos hcont, if_neg hc, if_neg hs, if_neg hq]
    · rw [if_neg hcont]

/-- **Of what is misread, the code or the grammar makes nothing, and not both.** -/
theorem misread_unknown (h : Misread w) : ¬ (vRequest w = .unknown ↔ vGrammar w = .unknown) := by
  rcases h with hC | hS | ⟨hname, hcont, hrequest⟩
  · have hbehind : [char ';', char 'C'] <+: w.dropWhile plain :=
      ((cont_prefix_iff (by decide)).mp hC).2
    have hunknown := vRequest_of_action hbehind (by decide) (by decide)
    have hgoOn : vGrammar w = .goOn := if_pos (Or.inr hC)
    rw [hgoOn]
    exact fun hsame => nomatch hsame.mp hunknown
  · have hbehind : [char ';', char 'S'] <+: w.dropWhile plain :=
      ((cont_prefix_iff (by decide)).mp hS).2
    have hunknown := vRequest_of_action hbehind (by decide) (by decide)
    intro hsame
    have hgrammar := hsame.mp hunknown
    rw [vGrammar] at hgrammar
    split_ifs at hgrammar with hgo hstep
    exact hstep (Or.inr hS)
  · intro hsame
    have hunknown := hsame.mpr (vGrammar_of_other hname)
    rw [vRequest, if_pos hcont] at hunknown
    split_ifs at hunknown with hc hs hq
    rcases hrequest with hc' | hs' | hq'
    · exact hc hc'
    · exact hs hs'
    · exact hq hq'

end Texts

/-! ## What the code does -/

section Effects
variable {P : Platform σ} {w : List UInt8} {s s₁ s₂ t u : Stub σ} {r : VRequest}

/-- What was done from a state in which only the request was read. -/
theorem done_finishVCommand (h : Parsed s u) : r.Done P s ((finishVCommand P r).run u).2 := by
  have houtput : u.output = s.output := congrArg Voice.output h.voice
  have hreply : ∀ str, ((sendGdbResponse (.text str)).run u).2.vital = s.vital ∧
      RepliedWith str s ((sendGdbResponse (.text str)).run u).2 := fun str => by
    rw [keeps_sendGdbResponse (π := Stub.vital), RepliedWith, output_sendGdbResponse_text, houtput]
    exact ⟨h.vital, rfl⟩
  cases r with
  | goOn =>
    refine ⟨?_, houtput⟩
    rw [← h.vital]
    rfl
  | step =>
    refine ⟨?_, houtput⟩
    rw [← h.vital]
    rfl
  | list => exact hreply vContList
  | unknown => exact hreply []

/-- A `v` command does what the code makes of its text. -/
theorem Executes.vCommand (h : Executes P s (char 'v' :: w) s₁ t) : (vRequest w).Done P s₁ t := by
  obtain ⟨s', hrun, hparsing⟩ := executeGdbCommand_run P h.delivered.payload
  have hdispatch : dispatchGdbCommand P (char 'v') 1 (w.length + 1) =
      processVCommand P 2 w.length := rfl
  obtain ⟨u, hparsed, hdone⟩ := processVCommand_decided P hparsing.held
  have hread : Parsed s₁ u := ⟨by rw [hparsed.same, hparsing.same]⟩
  rw [h.executed, List.length_cons, hrun, hdispatch, hdone]
  exact done_finishVCommand hread

/-- Only an unknown command is answered by nothing but the empty reply. -/
theorem VRequest.Done.empty_iff (h : r.Done P s t) : RepliedWith [] s t ↔ r = .unknown := by
  have hsent : ∀ str, RepliedWith str s t → t.output ≠ s.output := fun str hreply hsame =>
    List.cons_ne_nil _ _ (List.append_right_eq_self.mp (hreply.symm.trans hsame))
  constructor
  · intro hempty
    cases r with
    | goOn => exact absurd h.2 (hsent _ hempty)
    | step => exact absurd h.2 (hsent _ hempty)
    | list => exact absurd (reply_injective (h.2.symm.trans hempty)) (by decide)
    | unknown => rfl
  · rintro rfl
    exact h.2

end Effects

/-! ## On a flat memory -/

/-- A stopped stub that is about to execute the payload `p`. -/
def stoppedWith (p : List UInt8) : Stub FlatMachine :=
  { Stub.initial ⟨fun _ => 0, []⟩ with gRunning := false, mRequest := requestOf p }

/-- The stub behind that. -/
def doneWith (p : List UInt8) : Stub FlatMachine :=
  ((executeGdbCommand flatPlatform 1 p.length).run (stoppedWith p)).2

theorem doneWith_executes {p : List UInt8} (h : p.length + 4 ≤ maxRequestSize) :
    Executes flatPlatform (stoppedWith p) p (stoppedWith p) (doneWith p) :=
  ⟨⟨payload_requestOf h, rfl⟩, rfl⟩

/-! ## When the grammar is followed -/

/-- **When `v` commands follow the grammar the stub announces**: always but when they are
misread. -/
theorem v_command_follows_grammar_iff (P : Platform σ) {w : List UInt8} {s s₁ t : Stub σ}
    (h : Executes P s (char 'v' :: w) s₁ t) : FollowsGrammar P w s₁ t ↔ ¬ Misread w := by
  have hdone := h.vCommand
  constructor
  · intro hfollows hmisread
    have hsame := hdone.empty_iff.symm.trans (VRequest.Done.empty_iff hfollows)
    exact misread_unknown hmisread hsame
  · intro hread
    rw [FollowsGrammar, ← vRequest_eq_vGrammar hread]
    exact hdone

theorem v_command_follows_grammar_iff_continue :
    FollowsGrammar flatPlatform (text "Cont;c") (stoppedWith (text "vCont;c"))
    (doneWith (text "vCont;c")) := by
  have hread : ¬ Misread (text "Cont;c") := by
    unfold Misread
    decide
  exact (v_command_follows_grammar_iff flatPlatform (doneWith_executes (by decide))).mpr hread

/-- A continue with a signal is announced and means a continue; it is answered as unknown, and the
target stays stopped. -/
theorem continue_with_signal_unknown :
    Executes flatPlatform (stoppedWith (text "vCont;C05")) (text "vCont;C05")
    (stoppedWith (text "vCont;C05")) (doneWith (text "vCont;C05")) ∧
      vGrammar (text "Cont;C05") = .goOn ∧
      RepliedWith [] (stoppedWith (text "vCont;C05")) (doneWith (text "vCont;C05")) ∧
      (doneWith (text "vCont;C05")).gRunning = false ∧
      ¬ FollowsGrammar flatPlatform (text "Cont;C05") (stoppedWith (text "vCont;C05"))
        (doneWith (text "vCont;C05")) := by
  have hexecutes :=
    doneWith_executes (show (text "vCont;C05").length + 4 ≤ maxRequestSize by decide)
  have hgoOn : vGrammar (text "Cont;C05") = .goOn := by decide
  have hunknown : vRequest (text "Cont;C05") = .unknown := by decide
  have hdone := hexecutes.vCommand (w := text "Cont;C05")
  rw [hunknown] at hdone
  have hreply := hdone.empty_iff.mpr rfl
  refine ⟨hexecutes, hgoOn, hreply, congrArg Vital.gRunning hdone.1, fun hfollows => ?_⟩
  rw [FollowsGrammar, hgoOn] at hfollows
  cases hfollows.empty_iff.mp hreply

end UefiDebugger
