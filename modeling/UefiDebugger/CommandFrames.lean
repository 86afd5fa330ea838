import UefiDebugger.PacketInput

/-!
# What a command leaves alone

Executing a command touches buffers, the machine and the breakpoint table; it never touches the
record of the stop it executes in.  `Stub.links` is that record together with the acknowledgements
and commands seen so far; `Stub.core` adds the two things only some commands may change: `gRunning`
(`vCont`) and the saved contexts (`vCont;s` and the register writes).  Every handler keeps the
largest of these that it can.
-/
namespace UefiDebugger
open HexText ByteString StateEffect

variable {σ : Type}

/-! ## The projections -/

/-- Acknowledgements and commands, without the packets written. -/
def decisions (output : List Output) : List Output :=
  output.filter fun | .packet _ => false | _ => true

@[simp] theorem decisions_nil : decisions [] = [] := rfl

@[simp] theorem decisions_append (a b : List Output) :
    decisions (a ++ b) = decisions a ++ decisions b := List.filter_append ..

@[simp] theorem decisions_packet (bs : List UInt8) : decisions [.packet bs] = [] := rfl
@[simp] theorem decisions_ack (p : Bool) : decisions [.ack p] = [.ack p] := rfl
@[simp] theorem decisions_command (p : List UInt8) : decisions [.command p] = [.command p] := rfl

/-- The record of a stop, in the globals of the stub. -/
structure StopRecord where
  gSystemContext : Nat
  gExceptionInfo : Nat
  mConnectionOccurred : Bool
  mNextBreakpointTimeout : Nat
  exceptionInfos : Nat → ExceptionInfo

def Stub.stopRecord (s : Stub σ) : StopRecord where
  gSystemContext := s.gSystemContext
  gExceptionInfo := s.gExceptionInfo
  mConnectionOccurred := s.mConnectionOccurred
  mNextBreakpointTimeout := s.mNextBreakpointTimeout
  exceptionInfos := s.exceptionInfos

/-- What no command changes. -/
def Stub.links (s : Stub σ) : StopRecord × List Output := (s.stopRecord, decisions s.output)

/-- What only `vCont` changes. -/
def Stub.flags (s : Stub σ) : (StopRecord × List Output) × Bool := (s.links, s.gRunning)

/-- What only `vCont` and the register writes change. -/
def Stub.core (s : Stub σ) : ((StopRecord × List Output) × Bool) × (Nat → Context) :=
  (s.flags, s.contexts)

/-- The request buffer, up to what was read of it. -/
def Stub.request (s : Stub σ) : (Nat → UInt8) × Nat := (s.mRequest.bytes, s.mRequest.writeTop)

/-- What only `vCont`, the register writes and the commands that terminate strings in place
change. -/
def Stub.still (s : Stub σ) :
    (((StopRecord × List Output) × Bool) × (Nat → Context)) × ((Nat → UInt8) × Nat) :=
  (s.core, s.request)

/-! ## What a command touches -/

section Touches
variable {γ : Type}

/-- `π` looks at nothing that changes where a command reads its request, fills its buffers and
replies. -/
class Silent (π : Stub σ → γ) : Prop where
  request : ∀ (s : Stub σ) top, π { s with mRequest := s.mRequest.mark top } = π s
  buffers : ∀ (s : Stub σ) r n c a l f, π { s with
    mResponseFull := r
    mResponseTop := n
    mScratch := c
    mResponseAcknowledged := a
    responseLength := l
    failedAsserts := f } = π s
  packet : ∀ (s : Stub σ) bs, π { s with output := s.output ++ [.packet bs] } = π s

/-- What a call of the platform other than `AddSingleStep` leaves of the machine. -/
inductive Serves (P : Platform σ) (t : σ) : σ → Prop
  | read (a n : Nat) : Serves P t (P.dbgReadMemory a n t).2.2
  | write (a : Nat) (bs : List UInt8) : Serves P t (P.dbgWriteMemory a bs t).2
  | watch (a l : Nat) (r w : Bool) : Serves P t (P.addWatchpoint a l r w t).2
  | unwatch (a l : Nat) (r w : Bool) : Serves P t (P.removeWatchpoint a l r w t).2
  | reboot : Serves P t (P.debugReboot t).2
  | breakOnLoad (Module : List UInt8) : Serves P t (P.dbgSetBreakOnModuleLoad Module t).2
  | msr (Cmd : List UInt8) : Serves P t (P.gdbReadMsr Cmd t).2
  | dump (Cmd : List UInt8) : Serves P t (P.gdbDumpSystemRegisters Cmd t).2

/-- Nor at what it does with the machine, and records of it. -/
class Aside (P : Platform σ) (π : Stub σ → γ) : Prop extends Silent π where
  records : ∀ (s : Stub σ) b r h l, π { s with
    mBreakpoints := b
    mRebootOnContinue := r
    halted := h
    accesses := l } = π s
  target : ∀ (s : Stub σ) {t}, Serves P s.target t → π { s with target := t } = π s

/-- Nor at the request itself. -/
class Unasked (π : Stub σ → γ) : Prop where
  asked : ∀ (s : Stub σ) b, π { s with mRequest := b } = π s

/-- What is computed from `π` is not touched either. -/
theorem Silent.map {δ : Type} {π : Stub σ → γ} (f : γ → δ) [Silent π] :
    Silent fun s => f (π s) where
  request s _ := congrArg f (Silent.request s _)
  buffers s _ _ _ _ _ _ := congrArg f (Silent.buffers s _ _ _ _ _ _)
  packet s _ := congrArg f (Silent.packet s _)

theorem Aside.map {δ : Type} {π : Stub σ → γ} (P : Platform σ) (f : γ → δ) [Aside P π] :
    Aside P fun s => f (π s) where
  toSilent := Silent.map f
  records s _ _ _ _ := congrArg f (Aside.records P s _ _ _ _)
  target s _ h := congrArg f (Aside.target s h)

section Instances
variable (P : Platform σ)

instance : Silent (Stub.still (σ := σ)) where
  request _ _ := rfl
  buffers _ _ _ _ _ _ _ := rfl
  packet s bs := by
    simp [Stub.still, Stub.core, Stub.request, Stub.flags, Stub.links, Stub.stopRecord]

instance : Silent (Stub.core (σ := σ)) := Silent.map (π := Stub.still) Prod.fst
instance : Silent (Stub.flags (σ := σ)) := Silent.map (π := Stub.core) Prod.fst
instance : Silent (Stub.links (σ := σ)) := Silent.map (π := Stub.flags) Prod.fst
instance : Silent (Stub.request (σ := σ)) := Silent.map (π := Stub.still) Prod.snd
instance : Silent (Stub.target (σ := σ)) :=
  ⟨fun _ _ => rfl, fun _ _ _ _ _ _ _ => rfl, fun _ _ => rfl⟩

instance : Aside P (Stub.still (σ := σ)) := ⟨fun _ _ _ _ _ => rfl, fun _ _ _ => rfl⟩
instance : Aside P (Stub.core (σ := σ)) := Aside.map (π := Stub.still) P Prod.fst
instance : Aside P (Stub.flags (σ := σ)) := Aside.map (π := Stub.core) P Prod.fst
instance : Aside P (Stub.links (σ := σ)) := Aside.map (π := Stub.flags) P Prod.fst

instance : Unasked (Stub.core (σ := σ)) := ⟨fun _ _ => rfl⟩
instance : Unasked (Stub.flags (σ := σ)) := ⟨fun _ _ => rfl⟩
instance : Unasked (Stub.links (σ := σ)) := ⟨fun _ _ => rfl⟩
instance : Unasked (Stub.target (σ := σ)) := ⟨fun _ _ => rfl⟩

end Instances

/-! ### Reading, and replying -/

section Silent
variable {π : Stub σ → γ} [Silent π]

theorem keeps_assert (site : AssertSite) (c : Bool) : Keeps π (assert site c : StubM σ Unit) := by
  intro s
  cases c with
  | true => rfl
  | false => exact Silent.buffers s _ _ _ _ _ _

theorem keeps_readRequest (i : Nat) : Keeps π (readRequest i : StubM σ UInt8) :=
  fun s => Silent.request s _

theorem keeps_readScratch (i : Nat) : Keeps π (readScratch i : StubM σ UInt8) := fun s =>
  Silent.buffers s _ _ _ _ _ _

theorem keeps_writeScratch (i : Nat) (v : UInt8) : Keeps π (writeScratch i v : StubM σ Unit) :=
  fun s =>
  Silent.buffers s _ _ _ _ _ _

theorem keeps_writeResponse (i : Nat) (v : UInt8) : Keeps π (writeResponse i v : StubM σ Unit) :=
  fun s =>
  Silent.buffers s _ _ _ _ _ _

theorem keeps_asciiStrLen (i : Nat) : Keeps π (asciiStrLen i : StubM σ Nat) :=
  fun s => Silent.request s _

theorem keeps_scanMem8 (i n : Nat) (v : UInt8) :
    Keeps π (scanMem8 i n v : StubM σ (Option Nat)) := by
  intro s
  simp only [scanMem8, run_modifyGet]
  split
  · exact Silent.request s _
  · exact Silent.request s _

theorem keeps_asciiStrnCmpEq (i : Nat) (str : List UInt8) (n : Nat) :
    Keeps π (asciiStrnCmpEq i str n : StubM σ Bool) := fun s => Silent.request s _

theorem keeps_asciiStrHexToUint64S (P : Platform σ) (i : Nat) :
    Keeps π (asciiStrHexToUint64S P i) := fun s =>
  Silent.request s _

theorem keeps_asciiStrHexToUintn (P : Platform σ) (i : Nat) : Keeps π (asciiStrHexToUintn P i) :=
  fun s =>
  Silent.request s _

theorem keeps_hexToByte (i : Nat) : Keeps π (hexToByte i : StubM σ UInt8) :=
  keeps_bind (keeps_readRequest _) fun _ => keeps_bind (keeps_assert _ _) fun _ =>
    keeps_bind (keeps_readRequest _) fun _ => keeps_bind (keeps_assert _ _) fun _ => keeps_pure _

theorem keeps_transmitResponse : Keeps π (transmitResponse : StubM σ Unit) :=
  keeps_bind (keeps_modify fun s => Silent.buffers s _ _ _ _ _ _) fun _ =>
    keeps_bind keeps_get fun _ => keeps_modify fun s => Silent.packet s _

theorem keeps_sendGdbResponse (r : Response) : Keeps π (sendGdbResponse r : StubM σ Unit) := by
  have hframe : ∀ n c, Keeps π (frameResponse n c : StubM σ Unit) :=
    fun _ _ s => Silent.buffers s _ _ _ _ _ _
  have hstart : ∀ g : Stub σ → ByteBuffer, Keeps π
      (modify fun s => { s with mResponseFull := g s } : StubM σ Unit) :=
      fun _ s => Silent.buffers s _ _ _ _ _ _
  cases r with
  | resend =>
    exact keeps_bind keeps_get fun _ => keeps_bind (keeps_assert _ _) fun _ =>
      keeps_bind (keeps_assert _ _) fun _ => keeps_transmitResponse
  | text str =>
    exact keeps_bind (keeps_assert _ _) fun _ => keeps_bind (hstart _) fun _ =>
      keeps_bind (hframe _ _) fun _ => keeps_transmitResponse
  | mResponse =>
    exact keeps_bind keeps_get fun _ => keeps_bind (keeps_assert _ _) fun _ =>
      keeps_bind (hstart _) fun _ => keeps_bind (hframe _ _) fun _ => keeps_transmitResponse

theorem keeps_sendGdbError (e : UInt8) : Keeps π (sendGdbError e : StubM σ Unit) :=
  keeps_sendGdbResponse _

theorem keeps_sendStopReply : Keeps π (sendStopReply : StubM σ Unit) :=
  keeps_sendGdbResponse _

theorem keeps_convertResponseToHex (o n : Nat) :
    Keeps π (convertResponseToHex o n : StubM σ Unit) := by
  have loop : ∀ fuel i, Keeps π (convertLoop o n fuel i : StubM σ Nat) := by
    intro fuel
    induction fuel with
    | zero => exact fun _ => keeps_pure _
    | succ fuel ih =>
      exact fun i => keeps_bind (keeps_readScratch _) fun _ => keeps_ite
        (keeps_bind (keeps_writeResponse _ _) fun _ =>
          keeps_bind (keeps_writeResponse _ _) fun _ => ih _) (keeps_pure _)
  exact keeps_bind (loop _ _) fun _ => keeps_writeResponse _ _

theorem keeps_decodeRange : ∀ n i v, Keeps π (decodeRange n i v : StubM σ Nat)
  | 0, _, _ => keeps_pure _
  | n + 1, _, _ => keeps_bind (keeps_hexToByte _) fun _ =>
      keeps_bind (keeps_writeScratch _ _) fun _ => keeps_decodeRange n _ _

theorem keeps_encodeRange : ∀ n i r, Keeps π (encodeRange n i r : StubM σ Nat)
  | 0, _, _ => keeps_pure _
  | n + 1, _, _ => keeps_bind (keeps_readScratch _) fun _ =>
      keeps_bind (keeps_writeResponse _ _) fun _ =>
        keeps_bind (keeps_writeResponse _ _) fun _ => keeps_encodeRange n _ _

theorem keeps_memoryNumbers (P : Platform σ) (a l : Nat) : Keeps π (memoryNumbers P a l) :=
  keeps_bind (keeps_asciiStrHexToUint64S _ _) fun address => by
    cases address with
    | none => exact keeps_pure _
    | some _ =>
      refine keeps_bind (keeps_asciiStrHexToUint64S _ _) fun length => ?_
      cases length <;> exact keeps_pure _

theorem keeps_spellRegister : ∀ n r o, Keeps π (spellRegister n r o : StubM σ Unit)
  | 0, _, _ => keeps_pure _
  | n + 1, _, _ => keeps_bind keeps_get fun _ => keeps_bind (keeps_writeResponse _ _) fun _ =>
      keeps_bind (keeps_writeResponse _ _) fun _ => keeps_spellRegister n _ _

theorem keeps_spellZeros : ∀ n o, Keeps π (spellZeros n o : StubM σ Unit)
  | 0, _ => keeps_pure _
  | n + 1, _ => keeps_bind (keeps_writeResponse _ _) fun _ => keeps_spellZeros n _

theorem keeps_readRegisterFromContext (r : RegisterOffsetData) (o : Nat) :
    Keeps π (readRegisterFromContext r o : StubM σ Nat) := by
  unfold readRegisterFromContext
  dsimp only
  split
  · exact keeps_bind (keeps_spellRegister _ _ _) fun _ => keeps_pure _
  · exact keeps_bind (keeps_spellZeros _ _) fun _ => keeps_pure _

theorem keeps_readRegisters :
    ∀ rs p, Keeps π (readRegisters rs p : StubM σ Nat)
  | [], _ => keeps_pure _
  | _ :: rs, _ => keeps_bind (keeps_readRegisterFromContext _ _) fun _ => keeps_readRegisters rs _

theorem keeps_readGeneralRegisters (P : Platform σ) : Keeps π (readGeneralRegisters P) :=
  keeps_bind (keeps_readRegisters _ _) fun _ =>
    keeps_bind (keeps_writeResponse _ _) fun _ => keeps_sendGdbResponse _

theorem keeps_readRegister (P : Platform σ) (c : Nat) : Keeps π (readRegister P c) :=
  keeps_bind (keeps_asciiStrHexToUintn _ _) fun _ => by
    split
    · exact keeps_sendGdbError _
    · exact keeps_bind (keeps_readRegisterFromContext _ _) fun _ =>
        keeps_bind (keeps_writeResponse _ _) fun _ => keeps_sendGdbResponse _

theorem keeps_decodeRegister : ∀ n i, Keeps π (decodeRegister n i : StubM σ (List UInt8))
  | 0, _ => keeps_pure _
  | n + 1, _ => keeps_bind (keeps_hexToByte _) fun _ =>
      keeps_bind (keeps_decodeRegister n _) fun _ => keeps_pure _

theorem keeps_printScratch (t : List UInt8) : Keeps π (printScratch t : StubM σ Unit) := fun s =>
  Silent.buffers s _ _ _ _ _ _

theorem keeps_asciiSPrintResponse (P : Platform σ) (e r : Nat) (f : String) (args : List PrintArg) :
    Keeps π (asciiSPrintResponse P e r f args) := by
  have print : ∀ (cs : List UInt8) e, Keeps π (printResponse e cs : StubM σ Unit) := by
    intro cs
    induction cs with
    | nil => exact fun _ => keeps_pure _
    | cons c cs ih => exact fun _ => keeps_bind (keeps_writeResponse _ _) fun _ => ih _
  exact keeps_ite (keeps_pure _) (keeps_bind (print _ _) fun _ => keeps_pure _)

theorem keeps_printRegisters (P : Platform σ) :
    ∀ rs n e r, Keeps π (printRegisters P rs n e r)
  | [], _, _, _ => keeps_pure _
  | r :: rs, _, _, _ => by
      unfold printRegisters
      split
      · exact keeps_printRegisters P rs _ _ _
      · exact keeps_bind (keeps_asciiSPrintResponse _ _ _ _ _) fun _ =>
          keeps_printRegisters P rs _ _ _

theorem keeps_readTargetRegisters (P : Platform σ) : Keeps π (readTargetRegisters P) :=
  keeps_bind (keeps_asciiSPrintResponse _ _ _ _ _) fun _ =>
    keeps_bind (keeps_printRegisters _ _ _ _ _) fun _ =>
      keeps_bind (keeps_asciiSPrintResponse _ _ _ _ _) fun _ =>
        keeps_ite (keeps_sendGdbError _) (keeps_sendGdbResponse _)

theorem keeps_findDelimiter (c : Nat) : ∀ n i, Keeps π (findDelimiter c n i : StubM σ Nat)
  | 0, _ => keeps_pure _
  | n + 1, _ => keeps_bind (keeps_readRequest _) fun _ =>
      keeps_ite (keeps_pure _) (keeps_findDelimiter c n _)

end Silent

/-! ### Working on the machine -/

theorem keeps_writeRequest {π : Stub σ → γ} [Unasked π] (i : Nat) (v : UInt8) :
    Keeps π (writeRequest i v : StubM σ Unit) := fun s => Unasked.asked s _

section Aside
variable {π : Stub σ → γ} (P : Platform σ) [Aside P π]

/-- A call of the platform. -/
theorem keeps_serves {α : Type} {f : Stub σ → α} {g : Stub σ → σ} {h : Stub σ → List Access}
    (hserves : ∀ s, Serves P s.target (g s)) :
    Keeps π (modifyGet fun s => (f s, { s with target := g s, accesses := h s }) : StubM σ α) :=
    fun s => by
  have hrecords :=
    Aside.records P (π := π) { s with target := g s } s.mBreakpoints s.mRebootOnContinue
    s.halted (h s)
  exact hrecords.trans (Aside.target s (hserves s))

theorem keeps_dbgReadMemory (site : AccessSite) (a n : Nat) : Keeps π (dbgReadMemory P site a n) :=
  keeps_serves P fun _ => .read a n

theorem keeps_dbgWriteMemory (site : AccessSite) (a : Nat) (bs : List UInt8) :
    Keeps π (dbgWriteMemory P site a bs) := keeps_serves P fun _ => .write a bs

theorem keeps_memoryWriteLoop : ∀ fuel a l v, Keeps π (memoryWriteLoop P fuel a l v)
  | 0, _, _, _ => keeps_pure _
  | fuel + 1, _, _, _ => keeps_ite (keeps_pure _) <|
      keeps_bind (keeps_decodeRange _ _ _) fun _ =>
        keeps_bind (keeps_modifyGet fun s => Silent.buffers s _ _ _ _ _ _) fun _ =>
          keeps_bind (keeps_dbgWriteMemory P _ _ _) fun _ =>
            keeps_ite (keeps_memoryWriteLoop fuel _ _ _)
              (keeps_bind (keeps_sendGdbError _) fun _ => keeps_pure _)

theorem keeps_readRange (a n : Nat) : Keeps π (readRange P a n) := by
  have hstore : ∀ Data, Keeps π (storeScratch Data : StubM σ Unit) :=
    fun _ s => Silent.buffers s _ _ _ _ _ _
  exact keeps_ite (keeps_bind (hstore _) fun _ => keeps_pure _)
    (keeps_bind (keeps_dbgReadMemory P _ _ _) fun _ => keeps_bind (hstore _) fun _ => keeps_pure _)

theorem keeps_memoryReadLoop : ∀ fuel a l r, Keeps π (memoryReadLoop P fuel a l r)
  | 0, _, _, _ => keeps_pure _
  | fuel + 1, _, _, _ => keeps_ite (keeps_pure _) <|
      keeps_bind (keeps_readRange P _ _) fun _ =>
        keeps_ite (keeps_bind (keeps_encodeRange _ _ _) fun _ => keeps_memoryReadLoop fuel _ _ _)
          (keeps_bind (keeps_sendGdbError _) fun _ => keeps_pure _)

theorem keeps_memoryWriteTransfer (a l v : Nat) :
    Keeps π (memoryWriteTransfer P a l v) :=
  keeps_bind (keeps_memoryWriteLoop P _ _ _ _) fun _ =>
    keeps_ite (keeps_sendGdbResponse _) (keeps_pure _)

theorem keeps_memoryReadTransfer (a l : Nat) :
    Keeps π (memoryReadTransfer P a l) :=
  keeps_bind (keeps_memoryReadLoop P _ _ _ _) fun done => by
    cases done with
    | none => exact keeps_pure _
    | some _ => exact keeps_bind (keeps_writeResponse _ _) fun _ => keeps_sendGdbResponse _

theorem keeps_addSoftwareBreakpoint (a : Nat) :
    Keeps π (addSoftwareBreakpoint P a) := by
  have hset : ∀ i e, Keeps π (setBreakpoint i e : StubM σ Unit) :=
    fun _ _ s => Aside.records P s _ _ _ _
  refine keeps_bind (keeps_assert _ _) fun _ => keeps_bind keeps_get fun s => ?_
  dsimp only
  split
  · exact keeps_pure _
  · exact keeps_bind (keeps_assert _ _) fun _ => keeps_pure _
  · exact keeps_bind (hset _ _) fun _ =>
      keeps_bind (keeps_dbgReadMemory P _ _ _) fun _ =>
        keeps_bind (hset _ _) fun _ =>
          keeps_bind (keeps_dbgWriteMemory P _ _ _) fun _ => keeps_pure _

theorem keeps_removeSoftwareBreakpoint (a : Nat) :
    Keeps π (removeSoftwareBreakpoint P a) := by
  have hset : ∀ i e, Keeps π (setBreakpoint i e : StubM σ Unit) :=
    fun _ _ s => Aside.records P s _ _ _ _
  refine keeps_bind keeps_get fun s => ?_
  dsimp only
  split
  · exact keeps_bind (keeps_dbgWriteMemory P _ _ _) fun _ => keeps_bind (hset _ _) fun _ =>
      keeps_pure _
  · exact keeps_pure _

theorem keeps_changeWatchpoint (r : Bool) (a l : Nat) (read write : Bool) :
    Keeps π (changeWatchpoint P r a l read write) := by
  cases r with
  | true => exact fun s => Aside.target s (.unwatch a l read write)
  | false => exact fun s => Aside.target s (.watch a l read write)

theorem keeps_breakpointRequest (r : Bool) (t a l : Nat) :
    Keeps π (breakpointRequest P r t a l) := by
  have reply : ∀ b, Keeps π (sendBreakpointResult b : StubM σ Unit) := fun _ =>
    keeps_ite (keeps_sendGdbResponse _) (keeps_sendGdbError _)
  exact keeps_bind (keeps_asciiStrHexToUintn _ _) fun _ =>
    keeps_bind (keeps_asciiStrHexToUintn _ _) fun _ =>
      keeps_bind (keeps_asciiStrHexToUintn _ _) fun _ =>
        keeps_ite
          (keeps_bind (keeps_ite (keeps_removeSoftwareBreakpoint P _)
            (keeps_addSoftwareBreakpoint P _)) fun _ => reply _)
          (keeps_ite (keeps_bind (keeps_changeWatchpoint P _ _ _ _ _) fun _ => reply _)
            (keeps_sendGdbError _))

theorem keeps_monitorSwitch (c : List UInt8) : Keeps π (monitorSwitch P c) := by
  have hprint : ∀ t, Keeps π (printScratch t : StubM σ Unit) := keeps_printScratch
  exact keeps_bind keeps_get fun _ =>
    keeps_ite (hprint _) <|
    keeps_ite (keeps_bind (fun s => Aside.target s (.dump _)) fun _ => hprint _) <|
    keeps_ite (hprint _) <| keeps_ite (hprint _) <|
    keeps_ite (keeps_bind (fun s => Aside.target s (.msr _)) fun _ => hprint _) <|
    keeps_ite (hprint _) <|
    keeps_ite (keeps_bind (fun s => Aside.records P s _ _ _ _) fun _ => hprint _) <|
    keeps_ite (keeps_bind (fun s => Aside.target s (.breakOnLoad _)) fun _ =>
      keeps_ite (hprint _) (hprint _)) (hprint _)

theorem keeps_processMonitorCmd (c : Nat) :
    Keeps π (processMonitorCmd P c) := by
  have decode : ∀ n i, Keeps π (decodeMonitorCommand n i : StubM σ (List UInt8)) := by
    intro n
    induction n with
    | zero => exact fun _ => keeps_pure _
    | succ n ih =>
      exact fun _ => keeps_bind (keeps_hexToByte _) fun _ => keeps_bind (ih _) fun _ => keeps_pure _
  exact keeps_bind (keeps_asciiStrLen _) fun _ => keeps_ite (keeps_sendGdbError _) <|
    keeps_bind (decode _ _) fun _ => keeps_bind (keeps_writeScratch _ _) fun _ =>
      keeps_bind (keeps_monitorSwitch P _) fun _ => keeps_bind (keeps_writeResponse _ _) fun _ =>
        keeps_bind (keeps_convertResponseToHex _ _) fun _ =>
          keeps_bind (keeps_sendGdbResponse _) fun _ => keeps_sendGdbResponse _

theorem keeps_processQuery (c : Nat) : Keeps π (processQuery P c) :=
  keeps_bind (keeps_asciiStrnCmpEq _ _ _) fun _ => keeps_ite (keeps_sendGdbResponse _) <|
  keeps_bind (keeps_asciiStrnCmpEq _ _ _) fun _ => keeps_ite (keeps_sendGdbResponse _) <|
  keeps_bind (keeps_asciiStrnCmpEq _ _ _) fun _ => keeps_ite (keeps_sendGdbResponse _) <|
  keeps_bind (keeps_asciiStrnCmpEq _ _ _) fun _ => keeps_ite
    (keeps_bind (keeps_asciiSPrintResponse _ _ _ _ _) fun _ => keeps_sendGdbResponse _) <|
  keeps_bind (keeps_asciiStrnCmpEq _ _ _) fun _ => keeps_ite (keeps_readTargetRegisters _) <|
  keeps_bind (keeps_asciiStrnCmpEq _ _ _) fun _ => keeps_ite (keeps_processMonitorCmd P _) <|
  keeps_bind (keeps_asciiStrnCmpEq _ _ _) fun _ =>
    keeps_ite (keeps_sendGdbResponse _) (keeps_sendGdbResponse _)

theorem keeps_debugReboot : Keeps π (debugReboot P) := fun s => by
  have hrecords :=
    Aside.records P (π := π) { s with target := (P.debugReboot s.target).2 } s.mBreakpoints
    s.mRebootOnContinue (!(P.debugReboot s.target).1) s.accesses
  exact hrecords.trans (Aside.target s .reboot)

theorem keeps_rebootCommand : Keeps π (rebootCommand P) :=
  keeps_bind (keeps_debugReboot P) fun _ => keeps_ite (keeps_sendGdbError _) (keeps_pure _)

/-! ### Cutting the request -/

variable [Unasked π]

theorem keeps_processMemoryCommand (w : Bool) (c n : Nat) :
    Keeps π (processMemoryCommand P w c n) := by
  refine keeps_bind (keeps_scanMem8 _ _ _) fun length => ?_
  cases length with
  | none => exact keeps_sendGdbError _
  | some _ =>
    refine keeps_bind (keeps_writeRequest _ _) fun _ => keeps_ite ?_ ?_
    · refine keeps_bind (keeps_scanMem8 _ _ _) fun value => ?_
      cases value with
      | none => exact keeps_sendGdbError _
      | some _ =>
        refine keeps_bind (keeps_writeRequest _ _) fun _ =>
          keeps_bind (keeps_memoryNumbers _ _ _) fun numbers => ?_
        cases numbers with
        | none => exact keeps_sendGdbError _
        | some _ =>
          exact keeps_bind (keeps_asciiStrLen _) fun _ =>
            keeps_ite (keeps_bind (keeps_assert _ _) fun _ => keeps_sendGdbError _)
              (keeps_memoryWriteTransfer P _ _ _)
    · refine keeps_bind (keeps_memoryNumbers _ _ _) fun numbers => ?_
      cases numbers with
      | none => exact keeps_sendGdbError _
      | some _ => exact keeps_memoryReadTransfer P _ _

theorem keeps_processBreakpoint (r : Bool) (c : Nat) :
    Keeps π (processBreakpoint P r c) := by
  refine keeps_bind (keeps_asciiStrLen _) fun _ => keeps_bind (keeps_scanMem8 _ _ _) fun comma => ?_
  cases comma with
  | none => exact keeps_sendGdbError _
  | some _ =>
    refine keeps_bind (keeps_writeRequest _ _) fun _ => keeps_bind (keeps_asciiStrLen _) fun _ =>
      keeps_bind (keeps_scanMem8 _ _ _) fun comma' => ?_
    cases comma' with
    | none => exact keeps_sendGdbError _
    | some _ =>
      exact keeps_bind (keeps_writeRequest _ _) fun _ => keeps_breakpointRequest P _ _ _ _

/-- **What a command leaves alone**: only the register writes and the `v` commands need looking
at. -/
theorem keeps_dispatch (b : UInt8) (c n : Nat)
    (hG : b = char 'G' → Keeps π (writeGeneralRegisters P (c + 1)))
    (hP : b = char 'P' → Keeps π (writeRegister P (c + 1)))
    (hv : b = char 'v' → Keeps π (processVCommand P (c + 1) (n - 1))) :
    Keeps π (dispatchGdbCommand P b c n) :=
  keeps_dite (fun _ => keeps_readGeneralRegisters _) fun _ =>
  keeps_dite hG fun _ =>
  keeps_dite (fun _ => keeps_readRegister _ _) fun _ =>
  keeps_dite hP fun _ =>
  keeps_dite (fun _ => keeps_processMemoryCommand P _ _ _) fun _ =>
  keeps_dite (fun _ => keeps_processMemoryCommand P _ _ _) fun _ =>
  keeps_dite hv fun _ =>
  keeps_ite (keeps_processQuery P _) <|
  keeps_ite (keeps_sendGdbResponse _) <|
  keeps_ite keeps_sendStopReply <|
  keeps_ite (keeps_sendGdbResponse _) <|
  keeps_ite (keeps_processBreakpoint P _ _) <|
  keeps_ite (keeps_processBreakpoint P _ _) <|
  keeps_ite (keeps_rebootCommand P) (keeps_sendGdbError _)

end Aside

end Touches

/-! ## The register writes and the `v` commands -/

section Registers
variable {γ : Type}

/-- `π` looks at no saved context. -/
class Unsaved (π : Stub σ → γ) : Prop where
  saved : ∀ (s : Stub σ) c, π { s with contexts := c } = π s

/-- Nor at what resuming the target changes. -/
class Unresumed (π : Stub σ → γ) : Prop extends Unsaved π where
  resumed : ∀ (s : Stub σ) t r, π { s with target := t, gRunning := r } = π s

instance : Unsaved (Stub.flags (σ := σ)) := ⟨fun _ _ => rfl⟩
instance : Unresumed (Stub.links (σ := σ)) where
  saved _ _ := rfl
  resumed _ _ _ := rfl

section Unsaved
variable {π : Stub σ → γ} [Silent π] [Unsaved π]

theorem keeps_writeRegisterToContext (r : RegisterOffsetData) (i : Nat) :
    Keeps π (writeRegisterToContext r i : StubM σ (Option Nat)) :=
  keeps_bind (keeps_assert _ _) fun _ => keeps_bind (keeps_asciiStrLen _) fun _ =>
    keeps_ite (keeps_pure _) <| keeps_ite
      (keeps_bind (keeps_decodeRegister _ _) fun _ =>
        keeps_bind (keeps_modify fun s => Unsaved.saved s _) fun _ => keeps_pure _)
      (keeps_pure _)

theorem keeps_writeRegisters :
    ∀ rs p, Keeps π (writeRegisters rs p : StubM σ Bool)
  | [], _ => keeps_pure _
  | _ :: rs, _ => keeps_bind (keeps_writeRegisterToContext _ _) fun next => by
      cases next with
      | none => exact keeps_pure _
      | some _ => exact keeps_writeRegisters rs _

theorem keeps_writeGeneralRegisters (P : Platform σ) (d : Nat) :
    Keeps π (writeGeneralRegisters P d) :=
  keeps_bind (keeps_writeRegisters _ _) fun _ =>
    keeps_ite (keeps_sendGdbResponse _) (keeps_sendGdbError _)

theorem keeps_writeRegister [Unasked π] (P : Platform σ) (c : Nat) :
    Keeps π (writeRegister P c) := by
  refine keeps_bind (keeps_asciiStrLen _) fun _ => keeps_bind (keeps_scanMem8 _ _ _) fun value => ?_
  cases value with
  | none => exact keeps_sendGdbError _
  | some _ =>
    refine keeps_bind (keeps_writeRequest _ _) fun _ => keeps_bind (keeps_asciiStrHexToUintn _ _)
      fun _ => ?_
    split
    · exact keeps_sendGdbError _
    · refine keeps_bind (keeps_writeRegisterToContext _ _) fun ptr => ?_
      cases ptr with
      | none => exact keeps_sendGdbError _
      | some _ => exact keeps_sendGdbResponse _

end Unsaved

theorem keeps_processVCommand {π : Stub σ → γ} [Silent π] [Unasked π] [Unresumed π] (P : Platform σ)
    (c n : Nat) :
    Keeps π (processVCommand P c n) := by
  have running : Keeps π (setRunning : StubM σ Unit) := fun s => Unresumed.resumed s s.target true
  have stepping : Keeps π (addSingleStep P) := fun s =>
    (Unresumed.resumed (s.setContext _) _ s.gRunning).trans (Unsaved.saved s _)
  have reply : ∀ r, Keeps π (sendGdbResponse r : StubM σ Unit) := keeps_sendGdbResponse
  exact keeps_bind (keeps_findDelimiter _ _ _) fun _ =>
    keeps_bind (keeps_readRequest _) fun _ =>
      keeps_bind (keeps_assert _ _) fun _ =>
        keeps_bind (keeps_writeRequest _ _) fun _ =>
          keeps_bind (keeps_asciiStrnCmpEq _ _ _) fun _ =>
            keeps_ite
              (keeps_ite
                (keeps_bind (keeps_readRequest _) fun _ =>
                  keeps_ite running <| keeps_ite
                    (keeps_bind stepping fun _ => running) (reply _))
                (keeps_ite (reply _) (reply _)))
              (reply _)

/-- What no command looks at is not touched by any. -/
theorem unresumed_executeGdbCommand {π : Stub σ → γ} (P : Platform σ) [Aside P π] [Unasked π]
    [Unresumed π] (c n : Nat) : Keeps π (executeGdbCommand P c n) :=
  keeps_bind (keeps_readRequest _) fun b =>
    keeps_dispatch P b c n (fun _ => keeps_writeGeneralRegisters _ _)
    (fun _ => keeps_writeRegister _ _)
      fun _ => keeps_processVCommand _ _ _

end Registers

/-- **No command touches the record of the stop.** -/
theorem keeps_executeGdbCommand (P : Platform σ) (c n : Nat) :
    Keeps Stub.links (executeGdbCommand P c n) := unresumed_executeGdbCommand P c n

/-- What no command touches but the register writes and the `v` commands. -/
theorem aside_executeGdbCommand {γ : Type} {π : Stub σ → γ} (P : Platform σ) [Aside P π] [Unasked π]
    {s : Stub σ} {c : Nat} (n : Nat) (hv : s.mRequest.bytes c ≠ char 'v')
    (hG : s.mRequest.bytes c ≠ char 'G') (hP : s.mRequest.bytes c ≠ char 'P') :
    π ((executeGdbCommand P c n).run s).2 = π s := by
  have hdispatch : Keeps π (dispatchGdbCommand P (s.mRequest.bytes c) c n) :=
    keeps_dispatch P _ c n (fun h => absurd h hG) (fun h => absurd h hP) (fun h => absurd h hv)
  exact (hdispatch _).trans (keeps_readRequest c s)

/-- Only a `v` command changes `gRunning`. -/
theorem flags_executeGdbCommand (P : Platform σ) {s : Stub σ} {c : Nat} (n : Nat)
    (hb : s.mRequest.bytes c ≠ char 'v') :
    ((executeGdbCommand P c n).run s).2.flags = s.flags := by
  have hdispatch : Keeps Stub.flags (dispatchGdbCommand P (s.mRequest.bytes c) c n) :=
    keeps_dispatch P _ c n (fun _ => keeps_writeGeneralRegisters _ _)
    (fun _ => keeps_writeRegister _ _)
      fun h => absurd h hb
  exact hdispatch _

end UefiDebugger
