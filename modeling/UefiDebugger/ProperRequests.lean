import UefiDebugger.Assertions
import UefiDebugger.PacketReplies
import UefiDebugger.RegisterTables

/-!
# Requests that fire no assertion

`ProperRequest` is the condition on a request, in the state it finds, under which the command it
asks for passes every `ASSERT` on its way.  The checks it lists are those that the handlers leave to
their assertions.
-/
namespace UefiDebugger
open HexText ByteString StateEffect

variable {σ : Type}

/-! ## The condition -/

/-- The text of a `P` command once its `=` is terminated. -/
def cutRegisterWrite (w : List UInt8) : List UInt8 := w.set ((textAt w 0).idxOf (char '=')) 0

/-- What a `P` command decodes for its register are digits. -/
def ValueDecodes (P : Platform σ) (w : List UInt8) : Prop :=
  char '=' ∈ textAt w 0 →
    ∀ Register, P.gRegisterOffsets[P.baseLib.asciiStrHexToUintn (textAt (cutRegisterWrite w) 0)]? =
    some Register →
    RegisterDecodes Register (textAt (cutRegisterWrite w) ((textAt w 0).idxOf (char '=') + 1))

/-- A `Z0` command finds a slot for its address, or a breakpoint there. -/
def BreakpointFits (P : Platform σ) (w : List UInt8) (t : BreakpointTable) : Prop :=
  ∀ a l, parseBreakpoint P w = some (0, a, l) → RoomFor t a

/-- The digits of an `M` command are as many as its length says, and are digits. -/
def WriteDecodes (P : Platform σ) (w : List UInt8) (t : σ) : Prop :=
  parseMemoryWrite P w ≠ .badLength ∧ ∀ a l v, parseMemoryWrite P w = .transfer a l v →
    DecodesDigits P l a l (textAt (cutMemoryWrite w) v) t

/-- A request that fires no assertion in the state it finds. -/
structure ProperRequest (P : Platform σ) (s : Stub σ) (payload : List UInt8) : Prop where
  registers : ∀ w, payload = char 'G' :: w → RegistersDecode P.gRegisterOffsets (textAt w 0)
  register : ∀ w, payload = char 'P' :: w → ValueDecodes P w
  read : ∀ w, payload = char 'm' :: w → ∀ a l, parseMemoryRead P w = some (a, l) →
    ReadsFit P l a l 0 s.target
  write : ∀ w, payload = char 'M' :: w → WriteDecodes P w s.target
  monitor : ∀ w, payload = char 'q' :: (text "Rcmd," ++ w) → MonitorDecodes (textAt w 0)
  breakpoint : ∀ w, payload = char 'Z' :: w → BreakpointFits P w s.mBreakpoints

/-! ## The handlers -/

section Handlers
variable {P : Platform σ} {c : Nat} {w : List UInt8} {s₀ s : Stub σ}

theorem Parsing.failed (h : Parsing c w s₀ s) : s.failedAsserts = s₀.failedAsserts := by rw [h.same]

/-- From the middle of a parse on, the assertions hold. -/
theorem Parsing.passes {m : StubM σ Unit} {pre : Stub σ → Prop} (h : Parsing c w s₀ s)
    (hm : AssertsHold pre m) (hs : pre s) : (m.run s).2.failedAsserts = s₀.failedAsserts :=
    (hm s hs).trans h.failed

theorem Parsing.passes_error (h : Parsing c w s₀ s) (e : UInt8) :
    ((sendGdbError e).run s).2.failedAsserts = s₀.failedAsserts := by
  have herror : AssertsHold anyState (sendGdbError e : StubM σ Unit) := asserts_error e
  exact h.passes herror trivial

/-- The first string of the text. -/
theorem Parsing.first (h : Parsing c w s₀ s) : StringAt s.mRequest.bytes c (textAt w 0) :=
  h.string (Nat.zero_le w.length)

theorem writeRegister_passes (h : Parsing c w s₀ s) (hsizes : ∀ r ∈ P.gRegisterOffsets, r.size ≤ 10)
    (hvalue : ValueDecodes P w) :
    ((writeRegister P c).run s).2.failedAsserts = s₀.failedAsserts := by
  obtain ⟨s1, hrun1, h1⟩ := h.asciiStrLen (Nat.zero_le w.length)
  obtain ⟨s2, hrun2, h2⟩ := h1.scanText (Nat.zero_le w.length) (char '=')
  rw [Nat.add_zero] at hrun1 hrun2
  rw [writeRegister, run_bind, hrun1, run_bind, hrun2]
  by_cases hequals : char '=' ∈ textAt w 0
  swap
  · rw [if_neg hequals]
    exact h2.passes_error _
  have hk : (textAt w 0).idxOf (char '=') < w.length :=
    Nat.lt_of_lt_of_le (List.idxOf_lt_length_of_mem hequals) (textAt_length_le w 0)
  obtain ⟨s3, hrun3, h3⟩ := h2.writeRequest hk
  have hcut : Parsing c (cutRegisterWrite w) s₀ s3 := h3
  have hlen : (cutRegisterWrite w).length = w.length := List.length_set
  obtain ⟨s4, hrun4, h4⟩ := hcut.asciiStrHexToUintn P (Nat.zero_le _)
  rw [Nat.add_zero] at hrun4
  rw [if_pos hequals]
  dsimp only
  rw [run_bind, hrun3, run_bind, hrun4]
  dsimp only
  cases hfound :
    P.gRegisterOffsets[P.baseLib.asciiStrHexToUintn (textAt (cutRegisterWrite w) 0)]? with
  | none => exact h4.passes_error _
  | some Register =>
    have hsize := hsizes Register (List.mem_of_getElem? hfound)
    have hstring := h4.string (k := (textAt w 0).idxOf (char '=') + 1) (hlen ▸ hk)
    refine h4.passes
      (assertsHold_then (asserts_writeRegisterToContext hsize (hvalue hequals Register hfound) _)
      fun ptr => ?_) hstring
    cases ptr with
    | none => exact asserts_error _
    | some _ => exact asserts_text (by decide)

theorem processMemoryRead_passes (h : Parsing c w s₀ s)
    (hread : ∀ a l, parseMemoryRead P w = some (a, l) → ReadsFit P l a l 0 s₀.target) :
    ((processMemoryCommand P false c w.length).run s).2.failedAsserts = s₀.failedAsserts := by
  obtain ⟨z, s1, hrun, h1⟩ := h.processMemoryRead P
  have htarget : s1.target = s₀.target := by rw [h1.same]
  rw [hrun]
  cases hparse : parseMemoryRead P w with
  | none => exact h1.passes_error _
  | some request =>
    obtain ⟨a, l⟩ := request
    refine h1.passes (asserts_memoryReadTransfer a l) ?_
    rw [htarget]
    exact hread a l hparse

theorem parseMemoryWrite_value {a l v : Nat} (h : parseMemoryWrite P w = .transfer a l v) :
    v ≤ w.length := by
  rw [parseMemoryWrite] at h
  by_cases hdelim : char ',' ∈ w ∧ char ':' ∈ w
  swap
  · rw [if_neg hdelim] at h
    cases h
  rw [if_pos hdelim] at h
  cases hnumbers : parseNumbers P (cutMemoryWrite w) (w.idxOf (char ',') + 1) with
  | none =>
    rw [hnumbers] at h
    cases h
  | some numbers =>
    rw [hnumbers] at h
    dsimp only at h
    split at h
    · cases h
    · obtain ⟨-, -, rfl⟩ := MemoryRequest.transfer.inj h
      exact List.idxOf_lt_length_of_mem hdelim.2

theorem processMemoryWrite_passes (h : Parsing c w s₀ s) (hwrite : WriteDecodes P w s₀.target) :
    ((processMemoryCommand P true c w.length).run s).2.failedAsserts = s₀.failedAsserts := by
  obtain ⟨z, s1, hrun, h1, hlen, hcut⟩ := h.processMemoryWrite P
  have htarget : s1.target = s₀.target := by rw [h1.same]
  rw [hrun]
  cases hparse : parseMemoryWrite P w with
  | badRequest => exact h1.passes_error _
  | badLength => exact absurd hparse hwrite.1
  | transfer a l v =>
    have hv : v ≤ z.length := hlen ▸ parseMemoryWrite_value hparse
    obtain rfl := hcut a l v hparse
    refine h1.passes (asserts_memoryWriteTransfer a l (c + v) (textAt (cutMemoryWrite w) v))
      ⟨?_, ?_⟩
    · exact (holds_append.mp (h1.string hv).held).1
    · rw [htarget]
      exact hwrite.2 a l v hparse

theorem asserts_breakpointAction {r : Bool} {t a l : Nat} : AssertsHold
    (fun s => r = false → t = 0 → RoomFor s.mBreakpoints a) (breakpointAction P r t a l) := by
  refine assertsHold_ite (fun hsoftware => ?_) fun _ => assertsHold_ite (fun _ => ?_) fun _ =>
    asserts_error _
  · cases r with
    | true =>
      exact assertsHold_then (assertsHold_keeps (failed_removeSoftwareBreakpoint a))
        asserts_sendBreakpointResult
    | false =>
      have hadd : AssertsHold (fun s => RoomFor s.mBreakpoints a) (do
          let Result ← changeSoftwareBreakpoint P false a
          sendBreakpointResult Result) :=
        assertsHold_then (asserts_addSoftwareBreakpoint a) asserts_sendBreakpointResult
      exact hadd.mono fun s hs => hs rfl hsoftware
  · exact assertsHold_then (assertsHold_keeps (keeps_modifyGet fun _ => rfl))
      asserts_sendBreakpointResult

theorem processBreakpoint_passes (h : Parsing c w s₀ s) (r : Bool)
    (hroom : r = false → BreakpointFits P w s₀.mBreakpoints) :
    ((processBreakpoint P r c).run s).2.failedAsserts = s₀.failedAsserts := by
  obtain ⟨z, s1, hrun, h1⟩ := h.processBreakpoint P r
  have htable : s1.mBreakpoints = s₀.mBreakpoints := by rw [h1.same]
  rw [hrun]
  cases hparse : parseBreakpoint P w with
  | none => exact h1.passes_error _
  | some request =>
    obtain ⟨t, a, l⟩ := request
    refine h1.passes (asserts_breakpointAction (t := t) (a := a) (l := l)) fun hr ht => ?_
    rw [htable]
    exact hroom hr a l (ht ▸ hparse)

/-- The delimiter search ends at a delimiter or at the terminator. -/
theorem delimiter_cases {f : Nat → UInt8} {i : Nat} (h : Holds f i (w.dropWhile plain ++ [0])) :
    f i = char ';' ∨ f i = char '?' ∨ f i = 0 := by
  cases hrest : w.dropWhile plain with
  | nil =>
    rw [hrest] at h
    exact Or.inr (Or.inr h.1)
  | cons b bs =>
    have hhead := List.head?_dropWhile_not plain w
    rw [hrest] at h hhead
    have hdelimiter : plain b = false := by simpa using hhead
    rw [h.1]
    by_contra hother
    obtain ⟨hsemicolon, hother⟩ := not_or.mp hother
    obtain ⟨hquestion, -⟩ := not_or.mp hother
    rw [plain, decide_eq_true (⟨hsemicolon, hquestion⟩ : b ≠ char ';' ∧ b ≠ char '?')] at hdelimiter
    cases hdelimiter

/-- What a `v` command does once its delimiter is known. -/
def vAction (P : Platform σ) (Command DelimiterIndex : Nat) (OriginalDelimiter : UInt8) :
    StubM σ Unit := do
  if ← asciiStrnCmpEq Command (text "Cont") DelimiterIndex then
    if OriginalDelimiter = char ';' then do
      let Action ← readRequest (Command + DelimiterIndex + 1)
      if Action = char 'c' then setRunning
      else if Action = char 's' then do
        addSingleStep P
        setRunning
      else sendGdbResponse (.text [])
    else if OriginalDelimiter = char '?' then sendGdbResponse (.text (text "vCont;c;C;s;S"))
    else sendGdbResponse (.text [])
  else sendGdbResponse (.text [])

theorem asserts_vAction (Command DelimiterIndex : Nat) (OriginalDelimiter : UInt8) :
    AssertsHold anyState (vAction P Command DelimiterIndex OriginalDelimiter) := by
  have hsilent : AssertsHold anyState (sendGdbResponse (.text []) : StubM σ Unit) :=
    asserts_text (Nat.zero_le _)
  have hactions : AssertsHold anyState
      (sendGdbResponse (.text (text "vCont;c;C;s;S")) : StubM σ Unit) :=
    asserts_text (by decide)
  have hrun : AssertsHold anyState (setRunning : StubM σ Unit) := assertsHold_keeps fun _ => rfl
  have hstep : AssertsHold anyState (addSingleStep P) := assertsHold_keeps fun _ => rfl
  refine assertsHold_then (assertsHold_keeps fun _ => rfl) fun same => ?_
  refine assertsHold_ite (fun _ => assertsHold_ite (fun _ => ?_) fun _ => ?_) fun _ => hsilent
  · refine assertsHold_then (assertsHold_keeps fun _ => rfl) fun Action => ?_
    exact assertsHold_ite (fun _ => hrun) fun _ =>
      assertsHold_ite (fun _ => assertsHold_then hstep fun _ => hrun) fun _ => hsilent
  · exact assertsHold_ite (fun _ => hactions) fun _ => hsilent

theorem processVCommand_passes (h : Parsing c w s₀ s) :
    ((processVCommand P c w.length).run s).2.failedAsserts = s₀.failedAsserts := by
  have hheld : Holds s.mRequest.bytes (c + 0) w := (holds_append.mp h.held).1
  obtain ⟨top, hrun⟩ := findDelimiter_run c w 0 s hheld
  rw [Nat.zero_add] at hrun
  set i := (w.takeWhile plain).length
  have hdelimiter : decide (s.mRequest.bytes (c + i) = char ';' ∨
      s.mRequest.bytes (c + i) = char '?' ∨ s.mRequest.bytes (c + i) = 0) = true :=
      decide_eq_true (delimiter_cases (holds_behind h.held))
  rw [processVCommand, run_bind, hrun, run_bind]
  simp only [readRequest, run_modifyGet, run_bind, ByteBuffer.mark_bytes, assert_run]
  exact (asserts_vAction (P := P) c i (s.mRequest.bytes (c + i)) _ trivial).trans
    ((if_pos hdelimiter).trans h.failed)

/-! ## Queries -/

/-- The text of the command is in the request. -/
def Reads (w : List UInt8) (s : Stub σ) : Prop := Holds s.mRequest.bytes 2 (w ++ [0])

/-- One comparison of `ProcessQuery`. -/
theorem asserts_compare {str : List UInt8} {k : Nat} {m n : StubM σ Unit}
    (hliteral : (0 : UInt8) ∉ str ∧ k ≤ str.length)
    (hm : str.take k <+: w → AssertsHold (Reads w) m) (hn : AssertsHold (Reads w) n) :
    AssertsHold (Reads w) (do
      if ← asciiStrnCmpEq 2 str k then m else n) := by
  have hcompare : Ensures (Reads w) (asciiStrnCmpEq 2 str k : StubM σ Bool) fun same s =>
      (same = true → str.take k <+: w) ∧ Reads w s := fun s hs =>
    ⟨(strNEq_literal hliteral.1 hliteral.2 hs).mp, hs⟩
  refine assertsHold_bind (assertsHold_keeps fun _ => rfl) hcompare fun same => ?_
  rintro s ⟨hsame, hs⟩
  rw [run_ite]
  split
  · exact hm (hsame ‹_›) s hs
  · exact hn s hs

theorem asserts_processQuery (hmonitor : ∀ v, w = text "Rcmd," ++ v → MonitorDecodes (textAt v 0))
    (hfits : w.length < pcdMaximumAsciiStringLength) :
    AssertsHold (Reads w) (processQuery P 2) := by
  have hreply : ∀ {str : List UInt8}, str.length ≤ maxResponseSize →
      AssertsHold (Reads w) (sendGdbResponse (.text str) : StubM σ Unit) := asserts_text
  refine asserts_compare (by decide) (fun _ => hreply (by decide)) ?_
  refine asserts_compare (by decide) (fun _ => hreply (by decide)) ?_
  refine asserts_compare (by decide) (fun _ => hreply (by decide)) ?_
  refine asserts_compare (by decide) (fun _ => asserts_readTargetDescription.mono fun _ _ =>
    trivial) ?_
  refine asserts_compare (by decide) (fun _ => asserts_readTargetRegisters.mono fun _ _ => trivial)
    ?_
  refine asserts_compare (by decide) (fun hprefix => ?_) ?_
  · -- The digits of a monitor command stand behind `Rcmd,`.
    obtain ⟨v, rfl⟩ := hprefix
    refine (asserts_processMonitorCmd (hmonitor v rfl) 7).mono fun s hs => ?_
    rw [Reads, List.append_assoc] at hs
    refine stringAt_of_holds (holds_append.mp hs).2 ?_
    rw [List.length_append] at hfits
    exact Nat.lt_of_le_of_lt (Nat.le_add_left ..) hfits
  · exact asserts_compare (by decide) (fun _ => hreply (by decide)) (hreply (Nat.zero_le _))

end Handlers

/-! ## The dispatcher -/

section Dispatch
variable {P : Platform σ} {s₀ s : Stub σ} {w : List UInt8}

/-- From the middle of a command on, the assertions hold. -/
def Passes (s₀ s : Stub σ) (m : StubM σ Unit) : Prop := (m.run s).2.failedAsserts = s₀.failedAsserts

theorem passes_ite {c : Prop} [Decidable c] {m n : StubM σ Unit} (hm : c → Passes s₀ s m)
    (hn : ¬ c → Passes s₀ s n) : Passes s₀ s (if c then m else n) := by
  split
  · exact hm ‹_›
  · exact hn ‹_›

theorem asserts_rebootCommand : AssertsHold anyState (rebootCommand P) :=
  assertsHold_then (assertsHold_keeps fun _ => rfl) fun _ =>
    assertsHold_ite (fun _ => asserts_error _) fun _ => assertsHold_pure _

/-- **A proper request passes every assertion on its way.** -/
theorem dispatchGdbCommand_passes {b : UInt8} (hfits : TableFits P.gRegisterOffsets)
    (hproper : ProperRequest P s₀ (b :: w)) (h : Parsing 2 w s₀ s) :
    Passes s₀ s (dispatchGdbCommand P b 1 (w.length + 1)) := by
  have hsizes := hfits.register
  have hplain : ∀ {m : StubM σ Unit}, AssertsHold anyState m → Passes s₀ s m :=
    fun hm => h.passes hm trivial
  have hstring : StringAt s.mRequest.bytes 2 (textAt w 0) := h.first
  refine passes_ite (fun _ => hplain (asserts_readGeneralRegisters hfits.response)) fun _ => ?_
  refine passes_ite (fun hb => ?_) fun _ => ?_
  · exact h.passes (asserts_writeGeneralRegisters hsizes (hproper.registers w (hb ▸ rfl)) 2) hstring
  refine passes_ite (fun _ => hplain (asserts_readRegister hsizes 2)) fun _ => ?_
  refine passes_ite (fun hb => writeRegister_passes h hsizes (hproper.register w (hb ▸ rfl)))
    fun _ => ?_
  refine passes_ite (fun hb => processMemoryRead_passes h (hproper.read w (hb ▸ rfl))) fun _ => ?_
  refine passes_ite (fun hb => processMemoryWrite_passes h (hproper.write w (hb ▸ rfl))) fun _ => ?_
  refine passes_ite (fun _ => processVCommand_passes h) fun _ => ?_
  refine passes_ite (fun hb => ?_) fun _ => ?_
  · refine h.passes (asserts_processQuery (fun v hv => hproper.monitor v ?_) h.fits) h.held
    rw [hb, hv]
  refine passes_ite (fun _ => hplain (asserts_text (by decide))) fun _ => ?_
  refine passes_ite (fun _ => hplain (asserts_text (by decide))) fun _ => ?_
  refine passes_ite (fun _ => hplain (asserts_text (by decide))) fun _ => ?_
  refine passes_ite (fun hb => ?_) fun _ => ?_
  · exact processBreakpoint_passes h false fun _ => hproper.breakpoint w (hb ▸ rfl)
  refine passes_ite (fun _ => processBreakpoint_passes h true (nomatch ·)) fun _ => ?_
  exact passes_ite (fun _ => hplain asserts_rebootCommand) fun _ => hplain (asserts_error _)

theorem executeGdbCommand_passes {p : List UInt8} (hfits : TableFits P.gRegisterOffsets)
    (h : Payload s.mRequest p) (hproper : ProperRequest P s p) :
    ((executeGdbCommand P 1 p.length).run s).2.failedAsserts = s.failedAsserts := by
  cases p with
  | nil =>
    -- The terminator is no command.
    have hunknown : AssertsHold anyState (sendGdbError gdbErrorUnkownCmd : StubM σ Unit) :=
      asserts_error _
    have hzero : s.mRequest.bytes 1 = 0 := h.held.1
    rw [executeGdbCommand, run_bind]
    show ((dispatchGdbCommand P (s.mRequest.bytes 1) 1 0).run _).2.failedAsserts = _
    rw [hzero]
    exact hunknown _ trivial
  | cons b w =>
    obtain ⟨s', hrun, hparsing⟩ := executeGdbCommand_run P h
    rw [List.length_cons, hrun]
    exact dispatchGdbCommand_passes hfits hproper hparsing

end Dispatch
end UefiDebugger
