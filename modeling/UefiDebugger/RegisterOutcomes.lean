import UefiDebugger.RegisterFields

/-!
# What the register commands answer

Each of `g`, `G`, `p` and `P` is a function of its text and of the saved context: a reply, and the
context it leaves.  The conditions under which the commands undo each other are stated of these
functions.
-/
namespace UefiDebugger
open HexText ByteString PackedFields StateEffect

variable {σ : Type}

/-! ## The outcomes -/

/-- A reply, and the saved context behind the command. -/
structure RegisterOutcome where
  reply : List UInt8
  context : Context

/-- `g`. -/
def readBlockOutcome (P : Platform σ) (c : Context) : RegisterOutcome :=
  ⟨spell (pack P.registers c), c⟩

/-- `G` with the text `w`. -/
def writeBlockOutcome (P : Platform σ) (w : List UInt8) (c : Context) : RegisterOutcome :=
  let r := load consumed P.registers (decodeHex (textAt w 0)) c
  ⟨if r.1 = true then text "OK" else errorString gdbErrorInternal, r.2⟩

/-- What a read of the register an index stands for answers. -/
def readOutcome (Register : Option RegisterOffsetData) (c : Context) : RegisterOutcome :=
  match Register with
  | none => ⟨errorString gdbErrorBadRegIndex, c⟩
  | some r => ⟨spell (r.field.get c), c⟩

/-- What a write of `v` to the register an index stands for answers. -/
def writeOutcome (Register : Option RegisterOffsetData) (v : List UInt8) (c : Context) :
    RegisterOutcome :=
  match Register with
  | none => ⟨errorString gdbErrorBadRegIndex, c⟩
  | some r =>
      if (decodeHex v).length < r.size then ⟨errorString gdbErrorInternal, c⟩
      else ⟨text "OK", r.field.set ((decodeHex v).take r.size) c⟩

/-- `p` with the text `w`. -/
def readRegisterOutcome (P : Platform σ) (w : List UInt8) (c : Context) : RegisterOutcome :=
  readOutcome P.gRegisterOffsets[P.baseLib.asciiStrHexToUintn (textAt w 0)]? c

/-- `P` with the text `w`. -/
def writeRegisterOutcome (P : Platform σ) (w : List UInt8) (c : Context) : RegisterOutcome :=
  if char '=' ∈ textAt w 0 then
    let ValueStr := (textAt w 0).idxOf (char '=')
    let z := w.set ValueStr 0
    writeOutcome P.gRegisterOffsets[P.baseLib.asciiStrHexToUintn (textAt z 0)]?
    (textAt z (ValueStr + 1)) c
  else ⟨errorString gdbErrorBadRequest, c⟩

/-- The command that started in `s₁` and left `t` had the outcome `o`. -/
structure Yields (o : RegisterOutcome) (s₁ t : Stub σ) : Prop where
  reply : RepliedWith o.reply s₁ t
  context : t.context = o.context

/-! ## The commands have them -/

section Commands
variable {P : Platform σ} {s s₁ s₂ t : Stub σ} {c : Context} {w : List UInt8}

theorem yields_text (str : List UInt8) (hout : s₂.output = s₁.output) (hcontext : s₂.context = c) :
    Yields ⟨str, c⟩ s₁ ((sendGdbResponse (.text str)).run s₂).2 where
  reply := by
    rw [RepliedWith, output_sendGdbResponse_text, hout]
  context := (context_of_core (keeps_sendGdbResponse _ s₂)).trans hcontext

/-- What was spelled in `mResponse` is the reply. -/
theorem yields_spelled {Data : List UInt8} (hfilled : Filled 0 (spell Data) s₂ t)
    (hshort : 2 * Data.length < pcdMaximumAsciiStringLength) (hout : s₂.output = s₁.output)
    (hcontext : s₂.context = c) :
    Yields ⟨spell Data, c⟩ s₁
    ((sendGdbResponse .mResponse).run ((writeResponse (2 * Data.length) 0).run t).2).2 where
  reply := by
    rw [RepliedWith, ← hout]
    exact hfilled.reply hshort
  context := (context_of_core (keeps_sendGdbResponse _ _)).trans (hfilled.context.trans hcontext)

theorem readGeneralRegisters_yields (hfits : 2 * width P.registers < pcdMaximumAsciiStringLength)
    (hout : s₂.output = s₁.output) (hcontext : s₂.context = c) :
    Yields (readBlockOutcome P c) s₁ ((readGeneralRegisters P).run s₂).2 := by
  obtain ⟨hend, hfilled⟩ := readRegisters_filled P.gRegisterOffsets 0 s₂
  have hyields := yields_spelled hfilled (by rwa [pack_length]) hout hcontext
  rw [pack_length, hcontext] at hyields
  rw [readGeneralRegisters, run_bind, hend, Nat.zero_add, run_bind]
  exact hyields

/-- A read of the register that the text at an offset stands for. -/
theorem readRegister_yields (hsizes : ∀ r ∈ P.gRegisterOffsets, r.size ≤ 10) {i : Nat}
    (hindex : ((asciiStrHexToUintn P 2).run s₂).1 = i) (hout : s₂.output = s₁.output)
    (hcontext : s₂.context = c) :
    Yields (readOutcome P.gRegisterOffsets[i]? c) s₁ ((readRegister P 2).run s₂).2 := by
  rw [readRegister, run_bind, hindex]
  set s₃ := ((asciiStrHexToUintn P 2).run s₂).2 with hs₃
  have hout₃ : s₃.output = s₁.output := hout
  have hcontext₃ : s₃.context = c := hcontext
  cases hregister : P.gRegisterOffsets[i]? with
  | none => exact yields_text _ hout₃ hcontext₃
  | some r =>
    obtain ⟨hend, hfilled⟩ := readRegisterFromContext_filled r 0 s₃
    have hshort : 2 * (r.field.get s₃.context).length < pcdMaximumAsciiStringLength := by
      have hr : r.field.size ≤ 10 := hsizes r (List.mem_of_getElem? hregister)
      rw [RecordField.get_length]
      unfold pcdMaximumAsciiStringLength
      omega
    have hyields := yields_spelled hfilled hshort hout₃ hcontext₃
    rw [RecordField.get_length, hcontext₃] at hyields
    dsimp only
    rw [run_bind, hend, Nat.zero_add, run_bind]
    exact hyields

theorem writeGeneralRegisters_yields (h : StringAt s₂.mRequest.bytes 2 (textAt w 0))
    (hout : s₂.output = s₁.output) (hcontext : s₂.context = c) :
    Yields (writeBlockOutcome P w c) s₁ ((writeGeneralRegisters P 2).run s₂).2 := by
  obtain ⟨hcomplete, hleft⟩ := writeRegisters_load P.gRegisterOffsets 2 (textAt w 0) s₂ h
  rw [← Platform.registers] at hcomplete hleft
  have hvoice := voice_of_spoken (spoken_writeRegisters P.gRegisterOffsets 2) s₂
  have hout' : ((writeRegisters P.gRegisterOffsets 2).run s₂).2.output = s₁.output :=
    (congrArg Voice.output hvoice).trans hout
  rw [hcontext] at hcomplete hleft
  rw [writeGeneralRegisters, run_bind, hcomplete, writeBlockOutcome]
  by_cases hall : (load consumed P.registers (decodeHex (textAt w 0)) c).1 = true
  · rw [if_pos hall, if_pos hall]
    exact yields_text _ hout' hleft
  · rw [if_neg hall, if_neg hall]
    exact yields_text _ hout' hleft

theorem Parsing.output (h : Parsing 2 w s₁ s₂) : s₂.output = s₁.output := by rw [h.same]

theorem Parsing.context (h : Parsing 2 w s₁ s₂) : s₂.context = s₁.context := by
  rw [h.same]
  rfl

theorem writeRegister_yields (h : Parsing 2 w s₁ s₂) :
    Yields (writeRegisterOutcome P w s₁.context) s₁ ((writeRegister P 2).run s₂).2 := by
  obtain ⟨s₃, hrun₃, h₃⟩ := h.asciiStrLen (Nat.zero_le w.length)
  obtain ⟨s₄, hrun₄, h₄⟩ := h₃.scanText (Nat.zero_le w.length) (char '=')
  rw [Nat.add_zero] at hrun₃ hrun₄
  rw [writeRegister, run_bind, hrun₃, run_bind, hrun₄, writeRegisterOutcome]
  by_cases hvalue : char '=' ∈ textAt w 0
  swap
  · rw [if_neg hvalue, if_neg hvalue]
    exact yields_text _ h₄.output h₄.context
  rw [if_pos hvalue, if_pos hvalue]
  set k := (textAt w 0).idxOf (char '=') with hk
  have hlt : k < w.length :=
    Nat.lt_of_lt_of_le (List.idxOf_lt_length_of_mem hvalue) (textAt_length_le w 0)
  obtain ⟨s₅, hrun₅, h₅⟩ := h₄.writeRequest hlt
  obtain ⟨s₆, hrun₆, h₆⟩ := h₅.asciiStrHexToUintn P (Nat.zero_le _)
  rw [Nat.add_zero] at hrun₆
  dsimp only
  rw [Nat.add_zero, run_bind, hrun₅, run_bind, hrun₆]
  cases hregister : P.gRegisterOffsets[P.baseLib.asciiStrHexToUintn (textAt (w.set k 0) 0)]? with
  | none => exact yields_text _ h₆.output h₆.context
  | some r =>
    have hstring : StringAt s₆.mRequest.bytes (2 + k + 1) (textAt (w.set k 0) (k + 1)) :=
      h₆.string (k := k + 1) (by rw [List.length_set]; exact hlt)
    have hvoice := voice_of_spoken (spoken_writeRegisterToContext r (2 + k + 1)) s₆
    have hout : ((writeRegisterToContext r (2 + k + 1)).run s₆).2.output = s₁.output :=
      (congrArg Voice.output hvoice).trans h₆.output
    dsimp only [writeOutcome]
    rw [run_bind]
    rcases Nat.lt_or_ge (decodeHex (textAt (w.set k 0) (k + 1))).length r.size with hshort | hlong
    · obtain ⟨hnone, hleft⟩ := writeRegisterToContext_short r hstring hshort
      rw [if_pos hshort, hnone]
      exact yields_text _ hout (hleft.trans h₆.context)
    · obtain ⟨j, hj, hleft, -⟩ := writeRegisterToContext_long r hstring hlong
      rw [if_neg (Nat.not_lt.mpr hlong), hj]
      rw [h₆.context] at hleft
      exact yields_text _ hout hleft

end Commands

/-! ## The packets -/

section Packets
variable {P : Platform σ} {s s₁ t : Stub σ} {w : List UInt8}

theorem Delivered.context {p : List UInt8} (h : Delivered s p s₁) : s₁.context = s.context := by
  rw [h.same]
  rfl

/-- `g`, whatever is behind it. -/
theorem Executes.blockRead (h : Executes P s (char 'g' :: w) s₁ t)
    (hfits : 2 * width P.registers < pcdMaximumAsciiStringLength) :
    Yields (readBlockOutcome P s.context) s₁ t := by
  obtain ⟨s₂, hrun, hparsing⟩ := executeGdbCommand_run P h.delivered.payload
  have hdispatch : dispatchGdbCommand P (char 'g') 1 (w.length + 1) = readGeneralRegisters P := rfl
  rw [h.executed, List.length_cons, hrun, hdispatch]
  exact readGeneralRegisters_yields hfits hparsing.output
    (hparsing.context.trans h.delivered.context)

/-- Its digits are more than `SendGdbResponse` asserts of a response when they are more than
`MAX_RESPONSE_SIZE`. -/
theorem Executes.blockRead_asserts (h : Executes P s (char 'g' :: w) s₁ t)
    (hfits : 2 * width P.registers < pcdMaximumAsciiStringLength) :
    t.failedAsserts =
      if 2 * width P.registers ≤ maxResponseSize then s₁.failedAsserts
      else s₁.failedAsserts ++ [.responseLength] := by
  obtain ⟨s₂, hrun, hparsing⟩ := executeGdbCommand_run P h.delivered.payload
  have hdispatch : dispatchGdbCommand P (char 'g') 1 (w.length + 1) = readGeneralRegisters P := rfl
  obtain ⟨hend, hfilled⟩ := readRegisters_filled P.gRegisterOffsets 0 s₂
  have hasserts := hfilled.asserts (by rwa [pack_length])
  rw [pack_length, show s₂.failedAsserts = s₁.failedAsserts by rw [hparsing.same]] at hasserts
  rw [h.executed, List.length_cons, hrun, hdispatch, readGeneralRegisters, run_bind, hend,
    Nat.zero_add, run_bind]
  exact hasserts

theorem Executes.blockWrite (h : Executes P s (char 'G' :: w) s₁ t) :
    Yields (writeBlockOutcome P w s.context) s₁ t := by
  obtain ⟨s₂, hrun, hparsing⟩ := executeGdbCommand_run P h.delivered.payload
  have hdispatch : dispatchGdbCommand P (char 'G') 1 (w.length + 1) = writeGeneralRegisters P 2 :=
    rfl
  rw [h.executed, List.length_cons, hrun, hdispatch]
  exact writeGeneralRegisters_yields (hparsing.string (Nat.zero_le _)) hparsing.output
    (hparsing.context.trans h.delivered.context)

theorem Executes.registerRead (h : Executes P s (char 'p' :: w) s₁ t)
    (hsizes : ∀ r ∈ P.gRegisterOffsets, r.size ≤ 10) :
    Yields (readRegisterOutcome P w s.context) s₁ t := by
  obtain ⟨s₂, hrun, hparsing⟩ := executeGdbCommand_run P h.delivered.payload
  obtain ⟨s₃, hindex, -⟩ := hparsing.asciiStrHexToUintn P (Nat.zero_le _)
  have hdispatch : dispatchGdbCommand P (char 'p') 1 (w.length + 1) = readRegister P 2 := rfl
  rw [h.executed, List.length_cons, hrun, hdispatch]
  exact readRegister_yields hsizes (congrArg Prod.fst hindex) hparsing.output
    (hparsing.context.trans h.delivered.context)

theorem Executes.registerWrite (h : Executes P s (char 'P' :: w) s₁ t) :
    Yields (writeRegisterOutcome P w s.context) s₁ t := by
  obtain ⟨s₂, hrun, hparsing⟩ := executeGdbCommand_run P h.delivered.payload
  have hdispatch : dispatchGdbCommand P (char 'P') 1 (w.length + 1) = writeRegister P 2 := rfl
  rw [h.executed, List.length_cons, hrun, hdispatch, ← h.delivered.context]
  exact writeRegister_yields hparsing

end Packets

end UefiDebugger
