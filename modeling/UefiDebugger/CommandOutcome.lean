import UefiDebugger.Replies

/-!
# What a command comes to

The replies that are printed or converted, and the dispatcher.  From any state a command sends one
reply, or a console packet and its `OK`, or nothing: then the target was resumed, or the machine was
reset.
-/
namespace UefiDebugger
open HexText ByteString StateEffect

variable {σ : Type}

/-! ## The target description -/

section Description
variable {P : Platform σ} {short : Prop}

/-- Only printed characters so far. -/
abbrev printedOnly (P : Platform σ) (_ : Nat) (c : UInt8) : Prop := Printed P c

theorem printResponse_terminated {ok : UInt8 → Prop} : ∀ (cs : List UInt8) (End : Nat),
    (∀ c ∈ cs, ok c) →
    Ensures (Written (fun _ => ok) End) (printResponse End (cs ++ [0]) : StubM σ Unit)
      fun _ => Terminated (fun _ => ok) (End + cs.length)
  | [], End, _ => fun s hs => terminated_writeResponse s hs
  | c :: cs, End, h => by
      refine ensures_bind (written_writeResponse (h c List.mem_cons_self)) fun _ => ?_
      rw [List.length_cons, Nat.add_comm cs.length, ← Nat.add_assoc]
      exact printResponse_terminated cs (End + 1) fun c' hc' => h c' (List.mem_cons_of_mem c hc')

theorem voice_printResponse : ∀ (cs : List UInt8) (End : Nat),
    Keeps Stub.voice (printResponse End cs : StubM σ Unit)
  | [], _ => keeps_pure _
  | _ :: cs, _ => keeps_bind (voice_writeResponse _ _) fun _ => voice_printResponse cs _

theorem voice_asciiSPrintResponse (P : Platform σ) (End Remaining : Nat) (Format : String)
    (args : List PrintArg) : Keeps Stub.voice (asciiSPrintResponse P End Remaining Format args) :=
  keeps_ite (keeps_pure _) (keeps_bind (voice_printResponse _ _) fun _ => keeps_pure _)

/-- What is printed is terminated, and cut to the room there is. -/
theorem asciiSPrintResponse_terminated {End Remaining : Nat} {Format : String}
    {args : List PrintArg} (hprint : DescriptionPrint P Format args) (hroom : 0 < Remaining) :
    Ensures (Written (printedOnly P) End) (asciiSPrintResponse P End Remaining Format args)
      fun w s => Terminated (printedOnly P) (End + w) s ∧ w < Remaining := by
  refine ensures_ite (fun h => absurd h (Nat.ne_of_gt hroom)) fun _ => ?_
  have hok : ∀ c ∈ (P.baseLib.asciiSPrint (text Format) args).take (Remaining - 1), Printed P c :=
    fun c hc => ⟨Format, args, hprint, List.mem_of_mem_take hc⟩
  refine ensures_bind (printResponse_terminated _ End hok) fun _ =>
    ensures_pure fun s hs => ⟨hs, ?_⟩
  rw [List.length_take]
  omega

/-- The end of a description: it is sent. -/
theorem description_answers {r : Nat} (hr : r < maxResponseSize) :
    Answers (Terminated (printedOnly P) r) (ReplyText P short)
      (sendGdbResponse .mResponse : StubM σ Unit) := by
  intro s hs
  obtain ⟨hlen, hchars⟩ := hs.text
  refine sent_mResponse (.description (fun c hc => ?_) (Nat.lt_of_le_of_lt hlen hr))
  obtain ⟨j, hj⟩ := List.mem_iff_getElem?.mp hc
  exact hchars j c hj

theorem readTargetDescription_answers :
    Answers anyState (ReplyText P short) (readTargetDescription P) := by
  have hprint : Ensures anyState (asciiSPrintResponse P 0 maxResponseSize
      "l<?xml version=\"1.0\"?><!DOCTYPE target SYSTEM \"gdb-target.dtd\"><target><architecture>%a</architecture><xi:include href=\"registers.xml\"/></target>"
      [.text P.gdbTargetInfo.targetArch]) fun w s =>
        Terminated (printedOnly P) (0 + w) s ∧ w < maxResponseSize := fun s _ =>
    asciiSPrintResponse_terminated .target (by decide) s written_zero
  refine answers_bind (voice_asciiSPrintResponse P _ _ _ _) hprint fun w => ?_
  rintro s ⟨hterminated, hfits⟩
  exact description_answers (by omega) s hterminated

/-- How far the printing of the register list is: the rest of the buffer is `Remaining` bytes
long. -/
def Printing (P : Platform σ) (End Remaining : Nat) (s : Stub σ) : Prop :=
  Terminated (printedOnly P) End s ∧ End + Remaining = maxResponseSize ∧ 0 < Remaining

theorem asciiSPrintResponse_printing {End Remaining : Nat} {Format : String} {args : List PrintArg}
    (hprint : DescriptionPrint P Format args) :
    Ensures (Printing P End Remaining) (asciiSPrintResponse P End Remaining Format args)
      fun w => Printing P (End + w) (Remaining - w) := by
  rintro s ⟨hterminated, hsize, hroom⟩
  obtain ⟨hprinted, hw⟩ := asciiSPrintResponse_terminated hprint hroom s hterminated.1
  exact ⟨hprinted, by omega, by omega⟩

theorem printRegisters_printing : ∀ rs n End Remaining, (∀ r ∈ rs, r ∈ P.gRegisterOffsets) →
    Ensures (Printing P End Remaining) (printRegisters P rs n End Remaining)
      fun r => Printing P r.1 r.2
  | [], _, _, _, _ => ensures_pure fun _ hs => hs
  | r :: rs, n, End, Remaining, h => by
      have hrest : ∀ r' ∈ rs, r' ∈ P.gRegisterOffsets :=
        fun r' hr' => h r' (List.mem_cons_of_mem r hr')
      rw [printRegisters]
      cases hname : r.name with
      | none => exact printRegisters_printing rs (n + 1) End Remaining hrest
      | some Name =>
        have hprint := DescriptionPrint.register n (h r List.mem_cons_self) hname
        exact ensures_bind (asciiSPrintResponse_printing hprint) fun w =>
          printRegisters_printing rs (n + 1) (End + w) (Remaining - w) hrest

theorem voice_printRegisters (P : Platform σ) : ∀ rs n End Remaining,
    Keeps Stub.voice (printRegisters P rs n End Remaining)
  | [], _, _, _ => keeps_pure _
  | r :: rs, n, End, Remaining => by
      rw [printRegisters]
      cases r.name with
      | none => exact voice_printRegisters P rs _ _ _
      | some Name => exact keeps_bind (voice_asciiSPrintResponse P _ _ _ _) fun _ =>
          voice_printRegisters P rs _ _ _

theorem printing_start : Ensures anyState (asciiSPrintResponse P 0 maxResponseSize
    "l<?xml version=\"1.0\"?><!DOCTYPE target SYSTEM \"gdb-target.dtd\"><feature name=\"%a\">"
    [.text P.gdbTargetInfo.registersFeature]) fun w => Printing P w (maxResponseSize - w) := by
  intro s _
  have hroom : 0 < maxResponseSize := by decide
  have hstart : Written (printedOnly P) 0 s := written_zero
  obtain ⟨hprinted, hw⟩ := asciiSPrintResponse_terminated .feature hroom s hstart
  rw [Nat.zero_add] at hprinted
  exact ⟨hprinted, by omega, by omega⟩

/-- The register list always has room for its terminator, so that it is always sent. -/
theorem readTargetRegisters_answers :
    Answers anyState (ReplyText P short) (readTargetRegisters P) := by
  refine answers_bind (voice_asciiSPrintResponse P _ _ _ _) printing_start fun w => ?_
  refine answers_bind (voice_printRegisters P _ _ _ _)
    (printRegisters_printing _ _ _ _ fun _ h => h)
    fun r => ?_
  obtain ⟨End, Remaining⟩ := r
  refine answers_bind (voice_asciiSPrintResponse P _ _ _ _) (asciiSPrintResponse_printing .close)
    fun w' => ?_
  refine answers_ite (fun hfull => ?_) fun _ => ?_
  · rintro s ⟨-, -, hroom⟩
    exact absurd hfull (Nat.ne_of_gt hroom)
  · rintro s ⟨hterminated, hsize, hroom⟩
    exact description_answers (by omega) s hterminated

end Description

/-! ## The console -/

section Console
variable {P : Platform σ} {short : Prop}

/-- An `O`, and digits behind it. -/
def consoleOnly (j : Nat) (c : UInt8) : Prop := if j = 0 then c = char 'O' else c ∈ hexChars

theorem consoleOnly_succ {j : Nat} {c : UInt8} (hc : c ∈ hexChars) : consoleOnly (j + 1) c := by
  rw [consoleOnly, if_neg (Nat.succ_ne_zero j)]
  exact hc

/-- The conversion stays inside its buffer. -/
theorem convertLoop_written : ∀ fuel i, i * 2 < maxResponseSize - 1 →
    Ensures (Written consoleOnly (1 + i * 2))
    (convertLoop 1 (maxResponseSize - 1) fuel i : StubM σ Nat)
      fun i' s => Written consoleOnly (1 + i' * 2) s ∧ i' * 2 < maxResponseSize - 1
  | 0, i, hi => ensures_pure fun _ hs => ⟨hs, hi⟩
  | fuel + 1, i, hi => by
      have hread : Ensures (Written consoleOnly (1 + i * 2)) (readScratch i : StubM σ UInt8)
          fun _ => Written consoleOnly (1 + i * 2) :=
          written_of_spoken (keeps_modifyGet fun _ => rfl)
      refine ensures_bind hread fun b => ensures_ite (fun hgoes => ?_) fun _ =>
        ensures_pure fun s hs => ⟨hs, hi⟩
      have hhigh : consoleOnly (1 + i * 2) (hexChar ((b &&& 0xF0) >>> 4)) := by
        rw [Nat.add_comm]
        exact consoleOnly_succ (hexChar_mem_high b)
      refine ensures_bind (written_writeResponse hhigh) fun _ => ?_
      refine ensures_bind (written_writeResponse (consoleOnly_succ (hexChar_mem_low b))) fun _ => ?_
      have hnext := convertLoop_written fuel (i + 1) (by omega)
      rwa [show 1 + (i + 1) * 2 = 1 + i * 2 + 1 + 1 by omega] at hnext

theorem voice_convertLoop :
    ∀ fuel i, Keeps Stub.voice (convertLoop 1 (maxResponseSize - 1) fuel i : StubM σ Nat)
  | 0, _ => keeps_pure _
  | fuel + 1, _ => keeps_bind (keeps_modifyGet fun _ => rfl) fun _ =>
      keeps_ite (keeps_bind (voice_writeResponse _ _) fun _ =>
        keeps_bind (voice_writeResponse _ _) fun _ => voice_convertLoop fuel _) (keeps_pure _)

/-- The string found is an `O` with the digits behind it. -/
theorem Terminated.console {r : Nat} {s : Stub σ} (h : Terminated consoleOnly (1 + r) s)
    (hr : r < maxResponseSize - 1) :
    ConsoleText (cString s.mResponseFull.bytes pcdMaximumAsciiStringLength 1) := by
  obtain ⟨hlen, hchars⟩ := h.text
  have hfirst : s.mResponseFull.bytes 1 = char 'O' := h.1 0 (by omega)
  have hsplit : cString s.mResponseFull.bytes pcdMaximumAsciiStringLength 1 =
      char 'O' :: slice s.mResponseFull.bytes 2 (strLen s.mResponseFull.bytes 999999 2) := by
    have hnonzero : s.mResponseFull.bytes 1 ≠ 0 := by
      rw [hfirst]
      decide
    rw [cString, pcdMaximumAsciiStringLength, strLen, if_neg hnonzero, slice, hfirst]
  rw [hsplit] at hlen hchars ⊢
  refine ⟨_, rfl, fun c hc => ?_, by omega⟩
  obtain ⟨j, hj⟩ := List.mem_iff_getElem?.mp hc
  have hdigit := hchars (j + 1) c hj
  rwa [consoleOnly, if_neg (Nat.succ_ne_zero j)] at hdigit

/-- The end of `ProcessMonitorCmd`: what the command printed is sent to the console. -/
def sendConsole : StubM σ Unit := do
  writeResponse 0 (char 'O')
  convertResponseToHex 1 (maxResponseSize - 1)
  sendGdbResponse .mResponse

/-- The digits behind the `O` are terminated in time. -/
theorem convertResponseToHex_terminated : Ensures (Written consoleOnly (1 + 0 * 2))
    (convertResponseToHex 1 (maxResponseSize - 1) : StubM σ Unit) fun _ s =>
      ∃ r < maxResponseSize - 1, Terminated consoleOnly (1 + r) s := by
  refine ensures_bind (convertLoop_written _ 0 (by decide)) fun i => ?_
  rintro s ⟨hwritten, hi⟩
  exact ⟨i * 2, hi, terminated_writeResponse s hwritten⟩

theorem written_console : Ensures anyState (writeResponse 0 (char 'O') : StubM σ Unit)
    fun _ => Written consoleOnly (1 + 0 * 2) := fun s _ =>
  written_writeResponse rfl s written_zero

theorem sendConsole_answers : Answers anyState ConsoleText (sendConsole : StubM σ Unit) := by
  refine answers_bind (voice_writeResponse _ _) written_console fun _ => ?_
  have hquiet : Keeps Stub.voice (convertResponseToHex 1 (maxResponseSize - 1) : StubM σ Unit) :=
    keeps_bind (voice_convertLoop _ _) fun _ => voice_writeResponse _ _
  refine answers_bind hquiet convertResponseToHex_terminated fun _ => ?_
  rintro s ⟨r, hr, hterminated⟩
  exact sent_mResponse (hterminated.console hr)

end Console

/-! ## What a command does to the transport -/

/-- What the run of a command, or of what is left of one, from `s` to `u` comes to. -/
inductive CommandResult (P : Platform σ) (short : Prop) (s u : Stub σ) : Prop
  | replied (sent : Sent (ReplyText P short) s u)
  | console {v : Stub σ} (printed : Sent ConsoleText s v) (accepted : Sent (· = text "OK") v u)
  | silent (same : u.spoken = s.spoken) (gone : u.gRunning = true ∨ u.halted = true)

theorem CommandResult.after_quiet {P : Platform σ} {short : Prop} {s s' u : Stub σ}
    (h : CommandResult P short s' u) (hquiet : s'.spoken = s.spoken) :
    CommandResult P short s u := by
  have hvoice : s'.voice = s.voice := congrArg Prod.fst hquiet
  cases h with
  | replied sent => exact .replied (sent.after_quiet hvoice)
  | console printed accepted => exact .console (printed.after_quiet hvoice) accepted
  | silent same gone => exact .silent (same.trans hquiet) gone

/-- From a state in `pre`, `m` comes to one of these. -/
def Comes (P : Platform σ) (short : Prop) (pre : Stub σ → Prop) (m : StubM σ Unit) : Prop :=
  ∀ s, pre s → CommandResult P short s (m.run s).2

section Comes
variable {P : Platform σ} {short : Prop} {pre : Stub σ → Prop}

theorem Answers.comes {m : StubM σ Unit} (h : Answers pre (ReplyText P short) m) :
    Comes P short pre m :=
  fun s hs => .replied (h s hs)

theorem comes_then {α : Type} {m : StubM σ α} {f : α → StubM σ Unit} (hquiet : Keeps Stub.spoken m)
    (hf : ∀ a, Comes P short anyState (f a)) : Comes P short pre (m >>= f) := fun s _ =>
  (hf _ _ trivial).after_quiet (hquiet s)

theorem comes_ite {c : Prop} [Decidable c] {m n : StubM σ Unit} (hm : c → Comes P short pre m)
    (hn : ¬ c → Comes P short pre n) : Comes P short pre (if c then m else n) := by
  split
  · exact hm ‹_›
  · exact hn ‹_›

theorem comes_fixed {str : List UInt8} (h : str ∈ fixedReplies) :
    Comes P short pre (sendGdbResponse (.text str) : StubM σ Unit) := (answers_fixed h).comes

theorem comes_error {e : UInt8} (h : e ∈ errorCodes) :
    Comes P short pre (sendGdbError e : StubM σ Unit) :=
  (answers_error h).comes

/-- What a monitor command printed, and its `OK`. -/
def finishMonitor : StubM σ Unit := do
  sendConsole
  sendGdbResponse (.text (text "OK"))

/-- From any state, `m` sends a console packet and an `OK`. -/
def Consoles (m : StubM σ Unit) : Prop :=
  ∀ s, ∃ v, Sent ConsoleText s v ∧ Sent (· = text "OK") v (m.run s).2

theorem consoles_then {α : Type} {m : StubM σ α} {f : α → StubM σ Unit}
    (hquiet : Keeps Stub.voice m) (hf : ∀ a, Consoles (f a)) : Consoles (m >>= f) := by
  intro s
  obtain ⟨v, hprinted, haccepted⟩ := hf (m.run s).1 (m.run s).2
  exact ⟨v, hprinted.after_quiet (hquiet s), haccepted⟩

theorem finishMonitor_consoles : Consoles (finishMonitor : StubM σ Unit) := by
  intro s
  rw [finishMonitor, run_bind]
  exact ⟨_, sendConsole_answers s trivial, sent_text (Q := (· = text "OK")) rfl _⟩

theorem Consoles.comes {m : StubM σ Unit} (h : Consoles m) : Comes P short pre m := fun s _ =>
  let ⟨_, hprinted, haccepted⟩ := h s
  .console hprinted haccepted

/-- `ProcessMonitorCmd` on `n` digit pairs. -/
def acceptedMonitor (P : Platform σ) (n CommandHex : Nat) : StubM σ Unit := do
  let Command ← decodeMonitorCommand n CommandHex
  writeScratch 0 0
  monitorSwitch P (Command.takeWhile (· ≠ 0))
  finishMonitor

theorem acceptedMonitor_consoles (n c : Nat) : Consoles (acceptedMonitor P n c) :=
  consoles_then (voice_of_spoken (spoken_decodeMonitorCommand n c)) fun _ =>
    consoles_then (keeps_modify fun _ => rfl) fun _ =>
      consoles_then (voice_of_spoken (spoken_monitorSwitch P _)) fun _ => finishMonitor_consoles

/-- A monitor command is refused, or accepted. -/
theorem processMonitorCmd_eq (P : Platform σ) (c : Nat) : processMonitorCmd P c = (do
    let CommandLen ← asciiStrLen c
    if CommandLen % 2 ≠ 0 ∨ monitorCommandSize ≤ CommandLen / 2 then sendGdbError gdbErrorBadRequest
    else acceptedMonitor P (CommandLen / 2) c) := by
  simp only [processMonitorCmd, acceptedMonitor, finishMonitor, sendConsole, bind_assoc]

theorem processMonitorCmd_comes (c : Nat) : Comes P short pre (processMonitorCmd P c) := by
  rw [processMonitorCmd_eq]
  exact comes_then (spoken_asciiStrLen _) fun n =>
    comes_ite (fun _ => comes_error (by decide)) fun _ =>
    (acceptedMonitor_consoles _ c).comes

theorem processQuery_comes (c : Nat) : Comes P short anyState (processQuery P c) := by
  have hcompare : ∀ str n, Keeps Stub.spoken (asciiStrnCmpEq c str n : StubM σ Bool) := fun str n =>
    spoken_asciiStrnCmpEq c str n
  have hdescription : Comes P short anyState (readTargetDescription P) :=
    readTargetDescription_answers.comes
  have hregisters : Comes P short anyState (readTargetRegisters P) :=
    readTargetRegisters_answers.comes
  refine comes_then (hcompare _ _) fun _ => comes_ite (fun _ => comes_fixed (by decide)) fun _ => ?_
  refine comes_then (hcompare _ _) fun _ => comes_ite (fun _ => comes_fixed (by decide)) fun _ => ?_
  refine comes_then (hcompare _ _) fun _ => comes_ite (fun _ => comes_fixed (by decide)) fun _ => ?_
  refine comes_then (hcompare _ _) fun _ => comes_ite (fun _ => hdescription) fun _ => ?_
  refine comes_then (hcompare _ _) fun _ => comes_ite (fun _ => hregisters) fun _ => ?_
  refine comes_then (hcompare _ _) fun _ => comes_ite (fun _ => processMonitorCmd_comes _)
    fun _ => ?_
  refine comes_then (hcompare _ _) fun _ => comes_ite (fun _ => comes_fixed (by decide)) fun _ => ?_
  exact comes_fixed (by decide)

theorem setRunning_comes : Comes P short pre (setRunning : StubM σ Unit) :=
  fun _ _ => .silent rfl (Or.inl rfl)

theorem addSingleStep_comes : Comes P short pre (do
    addSingleStep P
    setRunning) := comes_then (keeps_modify fun _ => rfl) fun _ => setRunning_comes

theorem processVCommand_comes (c n : Nat) : Comes P short anyState (processVCommand P c n) := by
  refine comes_then (spoken_findDelimiter _ _ _) fun i => comes_then (spoken_readRequest _)
    fun d => ?_
  refine comes_then (spoken_assert _ _) fun _ => comes_then (spoken_writeRequest _ _) fun _ => ?_
  refine comes_then (spoken_asciiStrnCmpEq _ _ _) fun _ => comes_ite (fun _ => ?_) fun _ =>
    comes_fixed (by decide)
  refine comes_ite (fun _ => ?_) fun _ =>
    comes_ite (fun _ => comes_fixed (by decide)) fun _ => comes_fixed (by decide)
  refine comes_then (spoken_readRequest _) fun Action => comes_ite (fun _ => setRunning_comes)
    fun _ => ?_
  exact comes_ite (fun _ => addSingleStep_comes) fun _ => comes_fixed (by decide)

theorem rebootCommand_comes : Comes P short anyState (rebootCommand P) := by
  intro s _
  rw [rebootCommand, run_bind]
  by_cases hreturned : (P.debugReboot s.target).1 = true
  · rw [if_pos (by exact hreturned)]
    exact .replied ((sent_error (by decide) _).after_quiet rfl)
  · rw [if_neg (by exact hreturned)]
    refine .silent rfl (Or.inr ?_)
    show (!(P.debugReboot s.target).1) = true
    rw [Bool.eq_false_of_not_eq_true hreturned]
    rfl

/-- The request at `i` is no read, or one that the scratch buffer can hold. -/
def ShortRequest (P : Platform σ) (i n : Nat) (s : Stub σ) : Prop :=
  s.mRequest.bytes i = char 'm' →
    ShortParse ((parseRead P (i + 1) (n - 1)).run ((readRequest i).run s).2).1

/-- A command that is neither `v` nor `q` nor a reboot sends one reply. -/
theorem dispatchGdbCommand_answers {b : UInt8} (hv : b ≠ char 'v') (hq : b ≠ char 'q')
    (hr : ¬ (b = char 'r' ∨ b = char 'R')) (i n : Nat) :
    Answers (fun s => b = char 'm' → short → ShortParse ((parseRead P (i + 1) (n - 1)).run s).1)
      (ReplyText P short) (dispatchGdbCommand P b i n) := by
  have hany : ∀ {m : StubM σ Unit}, Answers anyState (ReplyText P short) m →
      Answers (fun s => b = char 'm' → short → ShortParse ((parseRead P (i + 1) (n - 1)).run s).1)
        (ReplyText P short) m := fun h => h.mono (fun _ _ => trivial) fun _ h => h
  refine answers_ite (fun _ => hany readGeneralRegisters_answers) fun _ => ?_
  refine answers_ite (fun _ => hany (writeGeneralRegisters_answers _)) fun _ => ?_
  refine answers_ite (fun _ => hany (readRegister_answers _)) fun _ => ?_
  refine answers_ite (fun _ => hany (writeRegister_answers _)) fun _ => ?_
  refine answers_ite (fun hm s hs => processMemoryCommand_read_answers _ _ s (hs hm)) fun _ => ?_
  refine answers_ite (fun _ => hany (processMemoryCommand_write_answers _ _)) fun _ => ?_
  refine answers_ite (fun h => absurd h hv) fun _ => answers_ite (fun h => absurd h hq) fun _ => ?_
  refine answers_ite (fun _ => answers_fixed (by decide)) fun _ => ?_
  refine answers_ite (fun _ => answers_fixed (by decide)) fun _ => ?_
  refine answers_ite (fun _ => answers_fixed (by decide)) fun _ => ?_
  refine answers_ite (fun _ => hany (processBreakpoint_answers _ _)) fun _ => ?_
  refine answers_ite (fun _ => hany (processBreakpoint_answers _ _)) fun _ => ?_
  exact answers_ite (fun h => absurd h hr) fun _ => answers_error (by decide)

/-- **Every command comes to one of these**, from any state. -/
theorem executeGdbCommand_comes (i n : Nat) :
    Comes P short (fun s => short → ShortRequest P i n s) (executeGdbCommand P i n) := by
  intro s hs
  rw [executeGdbCommand, run_bind]
  refine CommandResult.after_quiet ?_ (spoken_readRequest i s)
  show CommandResult P short _ ((dispatchGdbCommand P (s.mRequest.bytes i) i n).run _).2
  by_cases hv : s.mRequest.bytes i = char 'v'
  · rw [hv]
    exact processVCommand_comes (i + 1) (n - 1) _ trivial
  by_cases hq : s.mRequest.bytes i = char 'q'
  · rw [hq]
    exact processQuery_comes (i + 1) _ trivial
  by_cases hr : s.mRequest.bytes i = char 'r' ∨ s.mRequest.bytes i = char 'R'
  · rcases hr with hr | hr
    · rw [hr]
      exact rebootCommand_comes _ trivial
    · rw [hr]
      exact rebootCommand_comes _ trivial
  exact .replied (dispatchGdbCommand_answers hv hq hr i n _ fun hm hshort => hs hshort hm)

end Comes

end UefiDebugger
