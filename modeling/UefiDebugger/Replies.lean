import UefiDebugger.CommandRuns
import Mathlib.Algebra.Order.BigOperators.Group.List
import Mathlib.Algebra.Order.Ring.Nat

/-!
# One reply for every command

Handlers build their reply in `mResponse` and send it last.  `Stub.voice` is what only a send
changes, and `Sent` is what one send does to it: one packet more, kept for a resend.  `Answers`
composes along a handler, from quiet work to the one send it ends with, and
`executeGdbCommand_outcome` collects what a command can do in any state.

What a reply can look like is kept with it (`ReplyText`): `Written` follows the characters that are
put into `mResponse` up to the terminator.
-/
namespace UefiDebugger
open HexText ByteString StateEffect

variable {σ : Type}

/-! ## What a send changes -/

/-- What the transport was given, and what is known of the last packet. -/
structure Voice where
  output : List Output
  responseLength : Nat
  mResponseAcknowledged : Bool

def Stub.voice (s : Stub σ) : Voice := ⟨s.output, s.responseLength, s.mResponseAcknowledged⟩

/-- The voice with the buffer of the last packet. -/
def Stub.spoken (s : Stub σ) : Voice × (Nat → UInt8) := (s.voice, s.mResponseFull.bytes)

theorem voice_of_spoken {α : Type} {m : StubM σ α} (h : Keeps Stub.spoken m) : Keeps Stub.voice m :=
  h.map Prod.fst

/-- The last packet is in the buffer, framed. -/
def Stored (s : Stub σ) (str : List UInt8) : Prop :=
  s.responseLength = str.length + 4 ∧ slice s.mResponseFull.bytes 0 s.responseLength = gdbFrame str

/-- From `s` to `u` one packet was sent, with a payload in `Q`; a resend would repeat it. -/
def Sent (Q : List UInt8 → Prop) (s u : Stub σ) : Prop :=
  ∃ str, Q str ∧ u.output = s.output ++ [.packet (gdbFrame str)] ∧ u.mResponseAcknowledged = false ∧
    Stored u str

section Sends
variable {Q Q' : List UInt8 → Prop} {s s' u : Stub σ}

theorem Sent.mono (h : Sent Q s u) (hq : ∀ str, Q str → Q' str) : Sent Q' s u := by
  obtain ⟨str, hstr, hrest⟩ := h
  exact ⟨str, hq str hstr, hrest⟩

/-- What was done quietly before does not matter. -/
theorem Sent.after_quiet (h : Sent Q s' u) (hquiet : s'.voice = s.voice) : Sent Q s u := by
  obtain ⟨str, hstr, hout, hrest⟩ := h
  have houtput : s'.output = s.output := congrArg Voice.output hquiet
  exact ⟨str, hstr, houtput ▸ hout, hrest⟩

/-- Nor what is done quietly behind it. -/
theorem Sent.then_quiet (h : Sent Q s s') (hquiet : u.spoken = s'.spoken) : Sent Q s u := by
  obtain ⟨str, hstr, hout, hack, hlen, hslice⟩ := h
  have houtput : u.output = s'.output := congrArg (Voice.output ∘ Prod.fst) hquiet
  have hlength : u.responseLength = s'.responseLength :=
    congrArg (Voice.responseLength ∘ Prod.fst) hquiet
  have hacked : u.mResponseAcknowledged = s'.mResponseAcknowledged :=
    congrArg (Voice.mResponseAcknowledged ∘ Prod.fst) hquiet
  have hbytes : u.mResponseFull.bytes = s'.mResponseFull.bytes := congrArg Prod.snd hquiet
  refine ⟨str, hstr, houtput.trans hout, hacked.trans hack, hlength.trans hlen, ?_⟩
  rw [hbytes, hlength]
  exact hslice

/-- A string of its own is framed, kept and written out. -/
theorem sent_text {str : List UInt8} (hstr : Q str) (s : Stub σ) :
    Sent Q s ((sendGdbResponse (.text str)).run s).2 := by
  refine ⟨str, hstr, output_sendGdbResponse_text str s, rfl, rfl, ?_⟩
  have hout := output_sendGdbResponse_text str s
  rw [sendGdbResponse, run_bind, assert_run] at hout ⊢
  exact Output.packet.inj (List.cons.inj (List.append_cancel_left hout)).1

/-- So is the string found in `mResponse`. -/
theorem sent_mResponse (hstr : Q (cString s.mResponseFull.bytes pcdMaximumAsciiStringLength 1)) :
    Sent Q s ((sendGdbResponse .mResponse).run s).2 := by
  refine ⟨_, hstr, output_sendGdbResponse_mResponse s, ?_, ?_, ?_⟩
  · rw [sendGdbResponse, run_bind, run_get, run_bind, assert_run]
    rfl
  · rw [sendGdbResponse, run_bind, run_get, run_bind, assert_run]
    rfl
  · have hout := output_sendGdbResponse_mResponse s
    rw [sendGdbResponse, run_bind, run_get, run_bind, assert_run] at hout ⊢
    exact Output.packet.inj (List.cons.inj (List.append_cancel_left hout)).1

end Sends

/-! ## Handlers that answer -/

/-- From a state in `pre`, `m` sends one packet with a payload in `Q`. -/
def Answers {α : Type} (pre : Stub σ → Prop) (Q : List UInt8 → Prop) (m : StubM σ α) : Prop :=
  ∀ s, pre s → Sent Q s (m.run s).2

/-- Any state will do. -/
def anyState (_ : Stub σ) : Prop := True

section Composition
variable {α β : Type} {pre : Stub σ → Prop} {Q : List UInt8 → Prop}

theorem answers_text {str : List UInt8} (h : Q str) :
    Answers pre Q (sendGdbResponse (.text str) : StubM σ Unit) := fun s _ => sent_text h s

theorem answers_bind {m : StubM σ α} {f : α → StubM σ β} {mid : α → Stub σ → Prop}
    (hquiet : Keeps Stub.voice m) (hm : Ensures pre m mid) (hf : ∀ a, Answers (mid a) Q (f a)) :
    Answers pre Q (m >>= f) := fun s hs => (hf _ _ (hm s hs)).after_quiet (hquiet s)

/-- Quiet work whose effect does not matter for the reply. -/
theorem answers_then {m : StubM σ α} {f : α → StubM σ β} (hquiet : Keeps Stub.voice m)
    (hf : ∀ a, Answers anyState Q (f a)) : Answers pre Q (m >>= f) :=
  answers_bind hquiet (fun _ _ => trivial) hf

theorem answers_ite {c : Prop} [Decidable c] {m n : StubM σ α} (hm : c → Answers pre Q m)
    (hn : ¬ c → Answers pre Q n) : Answers pre Q (if c then m else n) := by
  split
  · exact hm ‹_›
  · exact hn ‹_›

theorem Answers.mono {Q' : List UInt8 → Prop} {pre' : Stub σ → Prop} {m : StubM σ α}
    (h : Answers pre Q m) (hpre : ∀ s, pre' s → pre s) (hq : ∀ str, Q str → Q' str) :
    Answers pre' Q' m :=
  fun s hs => (h s (hpre s hs)).mono hq

end Composition

/-! ## Characters put into the response -/

/-- The first `r` characters of `mResponse` are as `ok` wants them. -/
def Written (ok : Nat → UInt8 → Prop) (r : Nat) (s : Stub σ) : Prop :=
  ∀ j < r, ok j (s.mResponseFull.bytes (1 + j))

section Content
variable {ok : Nat → UInt8 → Prop} {r : Nat} {s : Stub σ}

theorem written_zero : Written ok 0 s := fun _ h => absurd h (Nat.not_lt_zero _)

theorem written_of_spoken {α : Type} {m : StubM σ α} (h : Keeps Stub.spoken m) :
    Ensures (Written ok r) m fun _ => Written ok r :=
  (h.map Prod.snd).ensures fun f => ∀ j < r, ok j (f (1 + j))

/-- One character more. -/
theorem written_writeResponse {v : UInt8} (hv : ok r v) :
    Ensures (Written ok r) (writeResponse r v : StubM σ Unit) fun _ => Written ok (r + 1) := by
  intro s hs j hj
  show ok j (Function.update s.mResponseFull.bytes (1 + r) v (1 + j))
  by_cases h : j = r
  · rw [h, Function.update_self]
    exact hv
  · rw [Function.update_of_ne (by omega)]
    exact hs j (by omega)

/-- Terminated. -/
def Terminated (ok : Nat → UInt8 → Prop) (r : Nat) (s : Stub σ) : Prop :=
  Written ok r s ∧ s.mResponseFull.bytes (1 + r) = 0

theorem terminated_writeResponse :
    Ensures (Written ok r) (writeResponse r 0 : StubM σ Unit) fun _ => Terminated ok r := by
  refine fun s hs => ⟨fun j hj => ?_, Function.update_self ..⟩
  show ok j (Function.update s.mResponseFull.bytes (1 + r) 0 (1 + j))
  rw [Function.update_of_ne (by omega)]
  exact hs j hj

theorem strLen_le_of_zero {f : Nat → UInt8} : ∀ {limit i n : Nat}, f (i + n) = 0 →
    strLen f limit i ≤ n
  | 0, _, _, _ => Nat.zero_le _
  | limit + 1, i, n, h => by
      rw [strLen]
      by_cases hi : f i = 0
      · rw [if_pos hi]
        exact Nat.zero_le _
      · rw [if_neg hi]
        cases n with
        | zero => exact absurd h hi
        | succ n =>
          have hnext : f (i + 1 + n) = 0 := by rwa [Nat.add_assoc, Nat.add_comm 1]
          exact Nat.succ_le_succ (strLen_le_of_zero hnext)

/-- The string found in a terminated response has the characters that were put there. -/
theorem Terminated.text (h : Terminated ok r s) :
    (cString s.mResponseFull.bytes pcdMaximumAsciiStringLength 1).length ≤ r ∧
    ∀ j c, (cString s.mResponseFull.bytes pcdMaximumAsciiStringLength 1)[j]? = some c → ok j c := by
  have hlen : (cString s.mResponseFull.bytes pcdMaximumAsciiStringLength 1).length ≤ r := by
    rw [cString, slice_length]
    exact strLen_le_of_zero h.2
  refine ⟨hlen, fun j c hc => ?_⟩
  have hj : j < (cString s.mResponseFull.bytes pcdMaximumAsciiStringLength 1).length :=
    (List.getElem?_eq_some_iff.mp hc).1
  rw [cString, slice_length] at hj
  rw [cString, getElem?_slice hj] at hc
  rw [← Option.some.inj hc]
  rw [cString, slice_length] at hlen
  exact h.1 j (by omega)

end Content

/-! ## Quiet work -/

theorem spoken_assert (site : AssertSite) (c : Bool) :
    Keeps Stub.spoken (assert site c : StubM σ Unit) := fun s => by
  rw [assert_run]
  rfl

theorem spoken_readRequest (i : Nat) : Keeps Stub.spoken (readRequest i : StubM σ UInt8) :=
  fun _ => rfl

theorem spoken_writeRequest (i : Nat) (v : UInt8) :
    Keeps Stub.spoken (writeRequest i v : StubM σ Unit) := fun _ => rfl

theorem spoken_asciiStrLen (i : Nat) : Keeps Stub.spoken (asciiStrLen i : StubM σ Nat) :=
  fun _ => rfl

theorem spoken_scanMem8 (i n : Nat) (v : UInt8) :
    Keeps Stub.spoken (scanMem8 i n v : StubM σ (Option Nat)) := by
  intro s
  rw [scanMem8, run_modifyGet]
  split <;> rfl

theorem spoken_asciiStrnCmpEq (i : Nat) (str : List UInt8) (n : Nat) :
    Keeps Stub.spoken (asciiStrnCmpEq i str n : StubM σ Bool) := fun _ => rfl

theorem spoken_asciiStrHexToUintn (P : Platform σ) (i : Nat) :
    Keeps Stub.spoken (asciiStrHexToUintn P i) := fun _ => rfl

theorem spoken_hexToByte (i : Nat) : Keeps Stub.spoken (hexToByte i : StubM σ UInt8) :=
  keeps_bind (spoken_readRequest _) fun _ => keeps_bind (spoken_assert _ _) fun _ =>
    keeps_bind (spoken_readRequest _) fun _ => keeps_bind (spoken_assert _ _) fun _ => keeps_pure _

theorem spoken_decodeRange : ∀ n i v, Keeps Stub.spoken (decodeRange n i v : StubM σ Nat)
  | 0, _, _ => keeps_pure _
  | n + 1, _, _ => keeps_bind (spoken_hexToByte _) fun _ =>
      keeps_bind (keeps_modify fun _ => rfl) fun _ => spoken_decodeRange n _ _

theorem spoken_decodeRegister : ∀ n i, Keeps Stub.spoken (decodeRegister n i : StubM σ (List UInt8))
  | 0, _ => keeps_pure _
  | n + 1, _ => keeps_bind (spoken_hexToByte _) fun _ =>
      keeps_bind (spoken_decodeRegister n _) fun _ => keeps_pure _

theorem spoken_decodeMonitorCommand :
    ∀ n i, Keeps Stub.spoken (decodeMonitorCommand n i : StubM σ (List UInt8))
  | 0, _ => keeps_pure _
  | n + 1, _ => keeps_bind (spoken_hexToByte _) fun _ =>
      keeps_bind (spoken_decodeMonitorCommand n _) fun _ => keeps_pure _

theorem spoken_readRange (P : Platform σ) (a n : Nat) : Keeps Stub.spoken (readRange P a n) :=
  keeps_ite (keeps_bind (keeps_modify fun _ => rfl) fun _ => keeps_pure _)
    (keeps_bind (keeps_modifyGet fun _ => rfl) fun _ =>
      keeps_bind (keeps_modify fun _ => rfl) fun _ => keeps_pure _)

theorem spoken_memoryNumbers (P : Platform σ) (a l : Nat) :
    Keeps Stub.spoken (memoryNumbers P a l) := by
  have hparse : ∀ i, Keeps Stub.spoken (asciiStrHexToUint64S P i) := fun _ _ => rfl
  refine keeps_bind (hparse a) fun address => ?_
  cases address with
  | none => exact keeps_pure _
  | some _ =>
    refine keeps_bind (hparse l) fun length => ?_
    cases length with
    | none => exact keeps_pure _
    | some _ => exact keeps_pure _

theorem spoken_changeSoftwareBreakpoint (P : Platform σ) (r : Bool) (a : Nat) :
    Keeps Stub.spoken (changeSoftwareBreakpoint P r a) := by
  have hset : ∀ i e, Keeps Stub.spoken (setBreakpoint i e : StubM σ Unit) := fun _ _ _ => rfl
  have hread : ∀ site n, Keeps Stub.spoken (dbgReadMemory P site a n) := fun _ _ _ => rfl
  have hwrite : ∀ site bs, Keeps Stub.spoken (dbgWriteMemory P site a bs) := fun _ _ _ => rfl
  refine keeps_ite (keeps_bind keeps_get fun s => ?_)
    (keeps_bind (spoken_assert _ _) fun _ => keeps_bind keeps_get fun s => ?_)
  · dsimp only
    split
    · exact keeps_bind (hwrite _ _) fun _ => keeps_bind (hset _ _) fun _ => keeps_pure _
    · exact keeps_pure _
  · dsimp only
    split
    · exact keeps_pure _
    · exact keeps_bind (spoken_assert _ _) fun _ => keeps_pure _
    · exact keeps_bind (hset _ _) fun _ => keeps_bind (hread _ _) fun _ =>
        keeps_bind (hset _ _) fun _ => keeps_bind (hwrite _ _) fun _ => keeps_pure _

theorem spoken_writeRegisterToContext (r : RegisterOffsetData) (i : Nat) :
    Keeps Stub.spoken (writeRegisterToContext r i : StubM σ (Option Nat)) :=
  keeps_bind (spoken_assert _ _) fun _ => keeps_bind (spoken_asciiStrLen _) fun _ =>
    keeps_ite (keeps_pure _) <| keeps_ite
      (keeps_bind (spoken_decodeRegister _ _) fun _ =>
        keeps_bind (keeps_modify fun _ => rfl) fun _ => keeps_pure _)
      (keeps_pure _)

theorem spoken_writeRegisters : ∀ rs p, Keeps Stub.spoken (writeRegisters rs p : StubM σ Bool)
  | [], _ => keeps_pure _
  | _ :: rs, _ => keeps_bind (spoken_writeRegisterToContext _ _) fun next => by
      cases next with
      | none => exact keeps_pure _
      | some _ => exact spoken_writeRegisters rs _

theorem spoken_printScratch (t : List UInt8) : Keeps Stub.spoken (printScratch t : StubM σ Unit) :=
  fun _ => rfl

theorem spoken_monitorSwitch (P : Platform σ) (c : List UInt8) :
    Keeps Stub.spoken (monitorSwitch P c) :=
  keeps_bind keeps_get fun _ =>
    keeps_ite (spoken_printScratch _) <|
    keeps_ite (keeps_bind (keeps_modifyGet fun _ => rfl) fun _ => spoken_printScratch _) <|
    keeps_ite (spoken_printScratch _) <| keeps_ite (spoken_printScratch _) <|
    keeps_ite (keeps_bind (keeps_modifyGet fun _ => rfl) fun _ => spoken_printScratch _) <|
    keeps_ite (spoken_printScratch _) <|
    keeps_ite (keeps_bind (keeps_modify fun _ => rfl) fun _ => spoken_printScratch _) <|
    keeps_ite (keeps_bind (keeps_modifyGet fun _ => rfl) fun _ =>
      keeps_ite (spoken_printScratch _) (spoken_printScratch _)) (spoken_printScratch _)

theorem spoken_findDelimiter (c : Nat) :
    ∀ n i, Keeps Stub.spoken (findDelimiter c n i : StubM σ Nat)
  | 0, _ => keeps_pure _
  | n + 1, _ => keeps_bind (spoken_readRequest _) fun _ =>
      keeps_ite (keeps_pure _) (spoken_findDelimiter c n _)

theorem voice_writeResponse (i : Nat) (v : UInt8) :
    Keeps Stub.voice (writeResponse i v : StubM σ Unit) := fun _ => rfl

/-! ## What replies are made of -/

/-- `GDB_ERROR_*`. -/
def errorCodes : List UInt8 :=
  [gdbErrorUnsupported, gdbErrorInternal, gdbErrorUnkownCmd, gdbErrorBadRequest,
    gdbErrorBadRegIndex, gdbErrorBadMemAddress, gdbErrorResponseTooLong]

/-- The replies that are string literals, and the error replies. -/
def fixedReplies : List (List UInt8) :=
  [text "OK", [], text "vCont;c;C;s;S", text "T05thread:01;",
    text "PacketSize=1000;qXfer:features:read+;vContSupported+", text "m01", text "l", text "1"] ++
    errorCodes.map errorString

/-- The calls of `AsciiSPrint` that make the target description and the register list. -/
inductive DescriptionPrint (P : Platform σ) : String → List PrintArg → Prop
  | target : DescriptionPrint P
      "l<?xml version=\"1.0\"?><!DOCTYPE target SYSTEM \"gdb-target.dtd\"><target><architecture>%a</architecture><xi:include href=\"registers.xml\"/></target>"
      [.text P.gdbTargetInfo.targetArch]
  | feature : DescriptionPrint P
      "l<?xml version=\"1.0\"?><!DOCTYPE target SYSTEM \"gdb-target.dtd\"><feature name=\"%a\">"
      [.text P.gdbTargetInfo.registersFeature]
  | register {Register : RegisterOffsetData} {Name : List UInt8} (RegNumber : Nat)
      (listed : Register ∈ P.gRegisterOffsets) (named : Register.name = some Name) :
      DescriptionPrint P "<reg name=\"%a\" bitsize=\"%d\" type=\"%a\" regnum=\"%d\"/>"
      [.text Name, .number (Register.size * 8), .text Register.type, .number RegNumber]
  | close : DescriptionPrint P "</feature>" []

/-- A character of a description. -/
def Printed (P : Platform σ) (c : UInt8) : Prop :=
  ∃ Format args, DescriptionPrint P Format args ∧ c ∈ P.baseLib.asciiSPrint (text Format) args

/-- The bytes of all registers. -/
def registerBytes (P : Platform σ) : Nat := (P.gRegisterOffsets.map RegisterOffsetData.size).sum

/-- The payload of a reply.  Of a reply to a memory read something is only known when the read is
`short`. -/
inductive ReplyText (P : Platform σ) (short : Prop) : List UInt8 → Prop
  | fixed {str : List UInt8} (listed : str ∈ fixedReplies) : ReplyText P short str
  | memory {str : List UInt8} (digits : short → ∀ c ∈ str, c ∈ hexChars)
      (fits : short → str.length ≤ 2 * scratchSize) : ReplyText P short str
  | registers {str : List UInt8} (digits : ∀ c ∈ str, c ∈ hexChars)
      (fits : str.length ≤ 2 * registerBytes P) : ReplyText P short str
  | description {str : List UInt8} (printed : ∀ c ∈ str, Printed P c)
      (fits : str.length < maxResponseSize) : ReplyText P short str

/-- The payload of a console packet. -/
def ConsoleText (str : List UInt8) : Prop :=
  ∃ ds, str = char 'O' :: ds ∧ (∀ c ∈ ds, c ∈ hexChars) ∧ str.length < maxResponseSize

section Handlers
variable {P : Platform σ} {short : Prop} {pre : Stub σ → Prop}

theorem sent_error {e : UInt8} (h : e ∈ errorCodes) (s : Stub σ) :
    Sent (ReplyText P short) s ((sendGdbError e).run s).2 :=
  sent_text (.fixed (List.mem_append_right _ (List.mem_map_of_mem h))) s

theorem answers_fixed {str : List UInt8} (h : str ∈ fixedReplies) :
    Answers pre (ReplyText P short) (sendGdbResponse (.text str) : StubM σ Unit) :=
  answers_text (.fixed h)

theorem answers_error {e : UInt8} (h : e ∈ errorCodes) :
    Answers pre (ReplyText P short) (sendGdbError e : StubM σ Unit) := fun s _ => sent_error h s

end Handlers

/-! ## Loops that may answer -/

/-- From a state in `pre`, `m` ends in `go` without having sent anything, or in `stop` with its
answer sent. -/
def MayAnswer {α : Type} (pre : Stub σ → Prop) (go : α → Stub σ → Prop) (stop : α → Prop)
    (Q : List UInt8 → Prop) (m : StubM σ α) : Prop :=
  ∀ s, pre s → (go (m.run s).1 (m.run s).2 ∧ (m.run s).2.voice = s.voice) ∨
    (stop (m.run s).1 ∧ Sent Q s (m.run s).2)

section Loops
variable {α β : Type} {pre : Stub σ → Prop} {go : α → Stub σ → Prop} {stop : α → Prop}
  {Q : List UInt8 → Prop}

theorem mayAnswer_pure {a : α} (h : ∀ s, pre s → go a s) :
    MayAnswer pre go stop Q (pure a : StubM σ α) := fun s hs => Or.inl ⟨h s hs, rfl⟩

theorem mayAnswer_bind {m : StubM σ β} {f : β → StubM σ α} {mid : β → Stub σ → Prop}
    (hquiet : Keeps Stub.voice m) (hm : Ensures pre m mid)
    (hf : ∀ b, MayAnswer (mid b) go stop Q (f b)) : MayAnswer pre go stop Q (m >>= f) := by
  intro s hs
  rcases hf _ _ (hm s hs) with ⟨hgo, hvoice⟩ | ⟨hstop, hsent⟩
  · exact Or.inl ⟨hgo, hvoice.trans (hquiet s)⟩
  · exact Or.inr ⟨hstop, hsent.after_quiet (hquiet s)⟩

theorem mayAnswer_then {m : StubM σ β} {f : β → StubM σ α} (hquiet : Keeps Stub.voice m)
    (hf : ∀ b, MayAnswer anyState go stop Q (f b)) : MayAnswer pre go stop Q (m >>= f) :=
  mayAnswer_bind hquiet (fun _ _ => trivial) hf

theorem mayAnswer_ite {c : Prop} [Decidable c] {m n : StubM σ α}
    (hm : c → MayAnswer pre go stop Q m) (hn : ¬ c → MayAnswer pre go stop Q n) :
    MayAnswer pre go stop Q (if c then m else n) := by
  split
  · exact hm ‹_›
  · exact hn ‹_›

theorem mayAnswer_stop {m : StubM σ Unit} {a : α} (hm : Answers pre Q m) (ha : stop a) :
    MayAnswer pre go stop Q (m >>= fun _ => pure a) := fun s hs => Or.inr ⟨ha, hm s hs⟩

/-- A loop that answers only when it stops, and a rest that answers only when it did not. -/
theorem answers_loop {m : StubM σ α} {f : α → StubM σ β} (hm : MayAnswer pre go stop Q m)
    (hgo : ∀ a, Answers (go a) Q (f a)) (hstop : ∀ a, stop a → Keeps Stub.spoken (f a)) :
    Answers pre Q (m >>= f) := by
  intro s hs
  rcases hm s hs with ⟨h, hvoice⟩ | ⟨h, hsent⟩
  · exact (hgo _ _ h).after_quiet hvoice
  · exact hsent.then_quiet (hstop _ h _)

end Loops

/-! ## Memory commands -/

theorem hexChar_mem_high : ∀ b : UInt8, hexChar ((b &&& 0xF0) >>> 4) ∈ hexChars :=
  forall_byte (by decide +kernel)

theorem hexChar_mem_shift : ∀ b : UInt8, hexChar (b >>> 4) ∈ hexChars :=
  forall_byte (by decide +kernel)

theorem hexChar_mem_low : ∀ b : UInt8, hexChar (b &&& 0xF) ∈ hexChars :=
  forall_byte (by decide +kernel)

/-- Only hexadecimal digits so far. -/
abbrev hexOnly (_ : Nat) (c : UInt8) : Prop := c ∈ hexChars

/-- Only hexadecimal digits so far, in a short read. -/
abbrev hexIf (short : Prop) (_ : Nat) (c : UInt8) : Prop := short → c ∈ hexChars

section Memory
variable {P : Platform σ} {short : Prop}

theorem memoryWriteLoop_mayAnswer : ∀ fuel a l v,
    MayAnswer anyState (fun done _ => done = true) (fun done => done = false) (ReplyText P short)
      (memoryWriteLoop P fuel a l v)
  | 0, _, _, _ => mayAnswer_pure fun _ _ => rfl
  | fuel + 1, a, l, v => by
      refine mayAnswer_ite (fun _ => mayAnswer_pure fun _ _ => rfl) fun _ => ?_
      refine mayAnswer_then (voice_of_spoken (spoken_decodeRange _ _ _)) fun v' => ?_
      refine mayAnswer_then (keeps_modifyGet fun _ => rfl) fun Data => ?_
      refine mayAnswer_then (keeps_modifyGet fun _ => rfl) fun ok => ?_
      refine mayAnswer_ite (fun _ => memoryWriteLoop_mayAnswer fuel _ _ _) fun _ => ?_
      exact mayAnswer_stop (answers_error (by decide)) rfl

theorem memoryWriteTransfer_answers (a l v : Nat) :
    Answers anyState (ReplyText P short) (memoryWriteTransfer P a l v) := by
  refine answers_loop (memoryWriteLoop_mayAnswer l a l v) (fun done => ?_) fun done hdone => ?_
  · intro s hdone
    rw [if_pos hdone]
    exact sent_text (.fixed (by decide)) s
  · rw [if_neg (by simp [hdone])]
    exact keeps_pure _

theorem encodeRange_written : ∀ n i r, Ensures (Written (hexIf short) r)
    (encodeRange n i r : StubM σ Nat)
    fun r' s => Written (hexIf short) r' s ∧ r' = r + 2 * n
  | 0, i, r => ensures_pure fun _ hs => ⟨hs, rfl⟩
  | n + 1, i, r => by
      have hread : Ensures (Written (hexIf short) r) (readScratch i : StubM σ UInt8)
          fun _ => Written (hexIf short) r := written_of_spoken (keeps_modifyGet fun _ => rfl)
      refine ensures_bind hread fun b => ?_
      refine ensures_bind (written_writeResponse fun _ => hexChar_mem_high b) fun _ => ?_
      refine ensures_bind (written_writeResponse fun _ => hexChar_mem_low b) fun _ => ?_
      intro s hs
      obtain ⟨hwritten, hr⟩ := encodeRange_written n (i + 1) (r + 2) s hs
      exact ⟨hwritten, by omega⟩

theorem voice_encodeRange : ∀ n i r, Keeps Stub.voice (encodeRange n i r : StubM σ Nat)
  | 0, _, _ => keeps_pure _
  | n + 1, _, _ => keeps_bind (keeps_modifyGet fun _ => rfl) fun _ =>
      keeps_bind (voice_writeResponse _ _) fun _ =>
        keeps_bind (voice_writeResponse _ _) fun _ => voice_encodeRange n _ _

/-- The digits put into the response by a loop over `l` bytes: two for each when one chunk is
enough. -/
def ReadTo (short : Prop) (r l : Nat) (done : Option Nat) (s : Stub σ) : Prop :=
  ∃ r', done = some r' ∧ Written (hexIf short) r' s ∧ (l ≤ scratchSize → r' ≤ r + 2 * l)

theorem memoryReadLoop_mayAnswer : ∀ fuel a l r,
    MayAnswer (Written (hexIf short) r) (ReadTo short r l) (fun done => done = none)
    (ReplyText P short) (memoryReadLoop P fuel a l r)
  | 0, _, _, _ => mayAnswer_pure fun _ hs => ⟨_, rfl, hs, fun _ => Nat.le_add_right _ _⟩
  | fuel + 1, a, l, r => by
      refine mayAnswer_ite
        (fun _ => mayAnswer_pure fun _ hs => ⟨_, rfl, hs, fun _ => Nat.le_add_right _ _⟩)
        fun _ => ?_
      refine mayAnswer_bind (voice_of_spoken (spoken_readRange P _ _))
        (written_of_spoken (spoken_readRange P _ _)) fun ok => ?_
      refine mayAnswer_ite (fun _ => ?_) fun _ => mayAnswer_stop (answers_error (by decide)) rfl
      refine mayAnswer_bind (voice_encodeRange l 0 r) (encodeRange_written l 0 r) fun r' => ?_
      rintro s ⟨hs, hr'⟩
      rcases memoryReadLoop_mayAnswer fuel ((a + min l scratchSize) % 2 ^ 64)
        (l - min l scratchSize) r' s hs with
        ⟨⟨r'', hdone, hwritten, hbound⟩, hvoice⟩ | hstop
      · refine Or.inl ⟨⟨r'', hdone, hwritten, fun hl => ?_⟩, hvoice⟩
        -- one chunk takes everything, so nothing is left for the next round
        have hrest := hbound (by omega)
        rw [Nat.min_eq_left hl] at hrest
        omega
      · exact Or.inr hstop

/-- A terminated response of digits is what a memory reply is. -/
theorem Terminated.digits {r : Nat} {s : Stub σ} (h : Terminated hexOnly r s) :
    (∀ c ∈ cString s.mResponseFull.bytes pcdMaximumAsciiStringLength 1, c ∈ hexChars) ∧
    (cString s.mResponseFull.bytes pcdMaximumAsciiStringLength 1).length ≤ r := by
  obtain ⟨hlen, hchars⟩ := h.text
  refine ⟨fun c hc => ?_, hlen⟩
  obtain ⟨j, hj⟩ := List.mem_iff_getElem?.mp hc
  exact hchars j c hj

/-- The end of a memory read. -/
theorem memory_answers {r : Nat} (hr : short → r ≤ 2 * scratchSize) :
    Answers (Written (hexIf short) r) (ReplyText P short) (do
      writeResponse r 0
      sendGdbResponse .mResponse : StubM σ Unit) := by
  refine answers_bind (voice_writeResponse _ _) terminated_writeResponse fun _ s hs => ?_
  obtain ⟨hlen, hchars⟩ := hs.text
  refine sent_mResponse (.memory (fun hshort c hc => ?_) fun hshort => hlen.trans (hr hshort))
  obtain ⟨j, hj⟩ := List.mem_iff_getElem?.mp hc
  exact hchars j c hj hshort

theorem memoryReadTransfer_answers {a l : Nat} (hshort : short → l ≤ scratchSize) :
    Answers anyState (ReplyText P short) (memoryReadTransfer P a l) := by
  have hloop : MayAnswer anyState (ReadTo short 0 l) (fun done => done = none) (ReplyText P short)
      (memoryReadLoop P l a l 0) := fun s _ => memoryReadLoop_mayAnswer l a l 0 s written_zero
  refine answers_loop hloop (fun done => ?_) fun done hdone => ?_
  · rintro s ⟨r', rfl, hwritten, hbound⟩
    refine memory_answers (fun hs => ?_) s hwritten
    have := hbound (hshort hs)
    have := hshort hs
    omega
  · subst hdone
    exact keeps_pure _

/-- The parse of an `m` command: its address and length. -/
def parseRead (P : Platform σ) (Command CommandLength : Nat) : StubM σ (Option (Nat × Nat)) := do
  let length ← scanMem8 Command CommandLength (char ',')
  match length with
  | none => pure none
  | some Length => do
      writeRequest Length 0
      memoryNumbers P Command (Length + 1)

theorem processMemoryCommand_read (P : Platform σ) (c n : Nat) (s : Stub σ) :
    (processMemoryCommand P false c n).run s =
      (finishMemoryRead P ((parseRead P c n).run s).1).run ((parseRead P c n).run s).2 := by
  rw [processMemoryCommand, parseRead, run_bind, run_bind]
  cases ((scanMem8 c n (char ',')).run s).1 with
  | none => rfl
  | some Length => rfl

/-- The length an `m` command asks for is one the scratch buffer can hold. -/
def ShortParse (request : Option (Nat × Nat)) : Prop :=
  ∀ a l, request = some (a, l) → l ≤ scratchSize

theorem spoken_parseRead (P : Platform σ) (c n : Nat) : Keeps Stub.spoken (parseRead P c n) := by
  refine keeps_bind (spoken_scanMem8 _ _ _) fun length => ?_
  cases length with
  | none => exact keeps_pure _
  | some _ => exact keeps_bind (spoken_writeRequest _ _) fun _ => spoken_memoryNumbers P _ _

theorem processMemoryCommand_read_answers (c n : Nat) :
    Answers (fun s => short → ShortParse ((parseRead P c n).run s).1) (ReplyText P short)
      (processMemoryCommand P false c n) := by
  intro s hs
  have hquiet := voice_of_spoken (spoken_parseRead P c n) s
  rw [processMemoryCommand_read]
  cases hrequest : ((parseRead P c n).run s).1 with
  | none => exact (sent_error (by decide) _).after_quiet hquiet
  | some request =>
    obtain ⟨a, l⟩ := request
    rw [hrequest] at hs
    exact (memoryReadTransfer_answers (fun h => hs h a l rfl) _ trivial).after_quiet hquiet

theorem processMemoryCommand_write_answers (c n : Nat) :
    Answers anyState (ReplyText P short) (processMemoryCommand P true c n) := by
  refine answers_then (voice_of_spoken (spoken_scanMem8 _ _ _)) fun length => ?_
  cases length with
  | none => exact answers_error (by decide)
  | some Length =>
    refine answers_then (voice_of_spoken (spoken_writeRequest _ _)) fun _ => ?_
    refine answers_ite (fun _ => ?_) fun h => absurd rfl h
    refine answers_then (voice_of_spoken (spoken_scanMem8 _ _ _)) fun value => ?_
    cases value with
    | none => exact answers_error (by decide)
    | some Value =>
      refine answers_then (voice_of_spoken (spoken_writeRequest _ _)) fun _ => ?_
      refine answers_then (voice_of_spoken (spoken_memoryNumbers P _ _)) fun numbers => ?_
      cases numbers with
      | none => exact answers_error (by decide)
      | some numbers =>
        obtain ⟨a, l⟩ := numbers
        refine answers_then (voice_of_spoken (spoken_asciiStrLen _)) fun _ =>
          answers_ite (fun _ => ?_)
          fun _ => memoryWriteTransfer_answers a l _
        exact answers_then (voice_of_spoken (spoken_assert _ _)) fun _ => answers_error (by decide)

end Memory

/-! ## Breakpoints and registers -/

section Commands
variable {P : Platform σ} {short : Prop}

theorem sendBreakpointResult_answers (b : Bool) :
    Answers anyState (ReplyText P short) (sendBreakpointResult b : StubM σ Unit) :=
  answers_ite (fun _ => answers_fixed (by decide)) fun _ => answers_error (by decide)

theorem processBreakpoint_answers (r : Bool) (c : Nat) :
    Answers anyState (ReplyText P short) (processBreakpoint P r c) := by
  have hnumber : ∀ i, Keeps Stub.voice (asciiStrHexToUintn P i) := fun i =>
    voice_of_spoken (spoken_asciiStrHexToUintn P i)
  refine answers_then (voice_of_spoken (spoken_asciiStrLen _)) fun _ => ?_
  refine answers_then (voice_of_spoken (spoken_scanMem8 _ _ _)) fun comma => ?_
  cases comma with
  | none => exact answers_error (by decide)
  | some _ =>
    refine answers_then (voice_of_spoken (spoken_writeRequest _ _)) fun _ => ?_
    refine answers_then (voice_of_spoken (spoken_asciiStrLen _)) fun _ => ?_
    refine answers_then (voice_of_spoken (spoken_scanMem8 _ _ _)) fun comma' => ?_
    cases comma' with
    | none => exact answers_error (by decide)
    | some _ =>
      refine answers_then (voice_of_spoken (spoken_writeRequest _ _)) fun _ => ?_
      refine answers_then (hnumber _) fun _ => answers_then (hnumber _) fun _ =>
        answers_then (hnumber _) fun _ => answers_ite (fun _ => ?_) fun _ =>
        answers_ite (fun _ => ?_) fun _ => ?_
      · exact answers_then (voice_of_spoken (spoken_changeSoftwareBreakpoint P _ _)) fun _ =>
          sendBreakpointResult_answers _
      · exact answers_then (keeps_modifyGet fun _ => rfl) fun _ => sendBreakpointResult_answers _
      · exact answers_error (by decide)

theorem spellRegister_written : ∀ n r o, Ensures (Written hexOnly o)
    (spellRegister n r o : StubM σ Unit)
    fun _ => Written hexOnly (o + 2 * n)
  | 0, _, _ => ensures_pure fun _ hs => hs
  | n + 1, r, o => by
      refine ensures_bind ensures_get fun s => ?_
      refine ensures_bind (written_writeResponse (hexChar_mem_shift _)) fun _ => ?_
      refine ensures_bind (written_writeResponse (hexChar_mem_low _)) fun _ => ?_
      rw [show o + 2 * (n + 1) = o + 2 + 2 * n by omega]
      exact spellRegister_written n (r + 1) (o + 2)

theorem spellZeros_written : ∀ n o, Ensures (Written hexOnly o) (spellZeros n o : StubM σ Unit)
    fun _ => Written hexOnly (o + n)
  | 0, _ => ensures_pure fun _ hs => hs
  | n + 1, o => by
      have hzero : char '0' ∈ hexChars := by decide
      refine ensures_bind (written_writeResponse hzero) fun _ => ?_
      rw [show o + (n + 1) = o + 1 + n by omega]
      exact spellZeros_written n (o + 1)

theorem voice_spellRegister : ∀ n r o, Keeps Stub.voice (spellRegister n r o : StubM σ Unit)
  | 0, _, _ => keeps_pure _
  | n + 1, _, _ => keeps_bind keeps_get fun _ => keeps_bind (voice_writeResponse _ _) fun _ =>
      keeps_bind (voice_writeResponse _ _) fun _ => voice_spellRegister n _ _

theorem voice_spellZeros : ∀ n o, Keeps Stub.voice (spellZeros n o : StubM σ Unit)
  | 0, _ => keeps_pure _
  | n + 1, _ => keeps_bind (voice_writeResponse _ _) fun _ => voice_spellZeros n _

theorem voice_readRegisterFromContext (r : RegisterOffsetData) (o : Nat) :
    Keeps Stub.voice (readRegisterFromContext r o : StubM σ Nat) := by
  unfold readRegisterFromContext
  dsimp only
  split
  · exact keeps_bind (voice_spellRegister _ _ _) fun _ => keeps_pure _
  · exact keeps_bind (voice_spellZeros _ _) fun _ => keeps_pure _

theorem readRegisterFromContext_written (r : RegisterOffsetData) (o : Nat) :
    Ensures (Written hexOnly o) (readRegisterFromContext r o : StubM σ Nat)
      fun o' s => Written hexOnly o' s ∧ o' = o + 2 * r.size := by
  unfold readRegisterFromContext
  dsimp only
  split
  · refine ensures_bind (spellRegister_written _ _ _) fun _ => ensures_pure fun s hs => ?_
    rw [Nat.mul_comm r.size 2]
    exact ⟨hs, rfl⟩
  · refine ensures_bind (spellZeros_written _ _) fun _ => ensures_pure fun s hs => ?_
    exact ⟨hs, by omega⟩

theorem readRegisters_written : ∀ rs o, Ensures (Written hexOnly o)
    (readRegisters rs o : StubM σ Nat)
    fun o' s => Written hexOnly o' s ∧ o' = o + 2 * (rs.map RegisterOffsetData.size).sum
  | [], o => ensures_pure fun _ hs => ⟨hs, rfl⟩
  | r :: rs, o => by
      refine ensures_bind (readRegisterFromContext_written r o) fun o' => ?_
      rintro s ⟨hs, ho'⟩
      obtain ⟨hwritten, ho⟩ := readRegisters_written rs o' s hs
      refine ⟨hwritten, ?_⟩
      rw [List.map_cons, List.sum_cons]
      omega

theorem voice_readRegisters : ∀ rs o, Keeps Stub.voice (readRegisters rs o : StubM σ Nat)
  | [], _ => keeps_pure _
  | _ :: rs, _ => keeps_bind (voice_readRegisterFromContext _ _) fun _ => voice_readRegisters rs _

/-- The end of both register reads. -/
theorem registers_answers {r : Nat} (hr : r ≤ 2 * registerBytes P) :
    Answers (Written hexOnly r) (ReplyText P short) (do
      writeResponse r 0
      sendGdbResponse .mResponse : StubM σ Unit) := by
  refine answers_bind (voice_writeResponse _ _) terminated_writeResponse fun _ s hs => ?_
  obtain ⟨hdigits, hlen⟩ := hs.digits
  exact sent_mResponse (.registers hdigits (hlen.trans hr))

theorem readGeneralRegisters_answers :
    Answers anyState (ReplyText P short) (readGeneralRegisters P) := by
  have hread : Ensures anyState (readRegisters P.gRegisterOffsets 0 : StubM σ Nat)
      fun r s => Written hexOnly r s ∧ r = 0 + 2 * registerBytes P := fun s _ =>
    readRegisters_written P.gRegisterOffsets 0 s written_zero
  refine answers_bind (voice_readRegisters _ _) hread fun r => ?_
  rintro s ⟨hwritten, hr⟩
  exact registers_answers (by omega) s hwritten

theorem readRegister_answers (c : Nat) : Answers anyState (ReplyText P short)
    (readRegister P c) := by
  refine answers_then (voice_of_spoken (spoken_asciiStrHexToUintn P c)) fun i => ?_
  split
  · exact answers_error (by decide)
  · rename_i Register hregister
    have hlisted : Register.size ∈ P.gRegisterOffsets.map RegisterOffsetData.size :=
      List.mem_map_of_mem (List.mem_of_getElem? hregister)
    have hle : Register.size ≤ registerBytes P := List.le_sum_of_mem hlisted
    have hread : Ensures anyState (readRegisterFromContext Register 0 : StubM σ Nat)
        fun r s => Written hexOnly r s ∧ r = 0 + 2 * Register.size := fun s _ =>
      readRegisterFromContext_written Register 0 s written_zero
    refine answers_bind (voice_readRegisterFromContext _ _) hread fun r => ?_
    rintro s ⟨hwritten, hr⟩
    exact registers_answers (by omega) s hwritten

theorem writeGeneralRegisters_answers (c : Nat) :
    Answers anyState (ReplyText P short) (writeGeneralRegisters P c) :=
  answers_then (voice_of_spoken (spoken_writeRegisters _ _)) fun _ =>
    answers_ite (fun _ => answers_fixed (by decide)) fun _ => answers_error (by decide)

theorem writeRegister_answers (c : Nat) : Answers anyState (ReplyText P short)
    (writeRegister P c) := by
  refine answers_then (voice_of_spoken (spoken_asciiStrLen _)) fun _ => ?_
  refine answers_then (voice_of_spoken (spoken_scanMem8 _ _ _)) fun value => ?_
  cases value with
  | none => exact answers_error (by decide)
  | some _ =>
    refine answers_then (voice_of_spoken (spoken_writeRequest _ _)) fun _ => ?_
    refine answers_then (voice_of_spoken (spoken_asciiStrHexToUintn P c)) fun _ => ?_
    split
    · exact answers_error (by decide)
    · refine answers_then (voice_of_spoken (spoken_writeRegisterToContext _ _)) fun ptr => ?_
      cases ptr with
      | none => exact answers_error (by decide)
      | some _ => exact answers_fixed (by decide)

end Commands

end UefiDebugger
