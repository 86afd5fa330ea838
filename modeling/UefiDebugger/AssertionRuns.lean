import UefiDebugger.ProperRequests
import UefiDebugger.Resends
import UefiDebugger.StopReasons

/-!
# Runs without a failed assertion

Which requests the debugger sends decides whether an `ASSERT` of the stub fails; the reception of
packets, the resends and the stop replies never fail one.  `Calm` is the condition on a command that
is about to be executed: it is a proper request, or what is left of a command that was interrupted,
and finds in the request buffer the digits it goes on to read.  In a run in which every command is
calm, nothing fails.
-/
namespace UefiDebugger
open HexText ByteString StateEffect

variable {σ : Type}

/-! ## The record only grows -/

/-- A failed assertion stays on record. -/
def Grows {α : Type} (m : StubM σ α) : Prop := ∀ s, s.failedAsserts <+: (m.run s).2.failedAsserts

section Grows
variable {α β : Type}

theorem grows_keeps {m : StubM σ α} (h : Keeps Stub.failedAsserts m) : Grows m := fun s => by
  rw [h s]

theorem grows_pure (a : α) : Grows (pure a : StubM σ α) := grows_keeps (keeps_pure a)

theorem grows_bind {m : StubM σ α} {f : α → StubM σ β} (hm : Grows m) (hf : ∀ a, Grows (f a)) :
    Grows (m >>= f) :=
  fun s => (hm s).trans (hf _ _)

theorem grows_ite {c : Prop} [Decidable c] {m n : StubM σ α} (hm : Grows m) (hn : Grows n) :
    Grows (if c then m else n) := by
  split
  · exact hm
  · exact hn

theorem grows_assert (site : AssertSite) (c : Bool) : Grows (assert site c : StubM σ Unit) := by
  intro s
  rw [assert_run]
  cases c with
  | true => exact List.prefix_refl _
  | false => exact List.prefix_append _ _

theorem grows_response (r : Response) : Grows (sendGdbResponse r : StubM σ Unit) := by
  have hstart : ∀ g : Stub σ → ByteBuffer, Grows
      (modify fun s => { s with mResponseFull := g s } : StubM σ Unit) :=
      fun _ => grows_keeps fun _ => rfl
  have hframe : ∀ n c, Grows (frameResponse n c : StubM σ Unit) :=
    fun _ _ => grows_keeps fun _ => rfl
  have hsend : Grows (transmitResponse : StubM σ Unit) := grows_keeps fun _ => rfl
  cases r with
  | resend =>
    exact grows_bind (grows_keeps keeps_get) fun _ => grows_bind (grows_assert _ _) fun _ =>
      grows_bind (grows_assert _ _) fun _ => hsend
  | text str =>
    exact grows_bind (grows_assert _ _) fun _ => grows_bind (hstart _) fun _ =>
      grows_bind (hframe _ _) fun _ => hsend
  | mResponse =>
    exact grows_bind (grows_keeps keeps_get) fun _ => grows_bind (grows_assert _ _) fun _ =>
      grows_bind (hstart _) fun _ => grows_bind (hframe _ _) fun _ => hsend

theorem grows_error (e : UInt8) : Grows (sendGdbError e : StubM σ Unit) := grows_response _

theorem grows_hexToByte (i : Nat) : Grows (hexToByte i : StubM σ UInt8) :=
  grows_bind (grows_keeps fun _ => rfl) fun _ => grows_bind (grows_assert _ _) fun _ =>
    grows_bind (grows_keeps fun _ => rfl) fun _ => grows_bind (grows_assert _ _) fun _ =>
    grows_pure _

theorem grows_decodeRange : ∀ n i v, Grows (decodeRange n i v : StubM σ Nat)
  | 0, _, _ => grows_pure _
  | n + 1, _, _ => grows_bind (grows_hexToByte _) fun _ =>
      grows_bind (grows_keeps fun _ => rfl) fun _ =>
      grows_decodeRange n _ _

theorem grows_memoryWriteLoop (P : Platform σ) : ∀ fuel a l v, Grows (memoryWriteLoop P fuel a l v)
  | 0, _, _, _ => grows_pure _
  | fuel + 1, _, _, _ => grows_ite (grows_pure _) <|
      grows_bind (grows_decodeRange _ _ _) fun _ => grows_bind (grows_keeps fun _ => rfl) fun _ =>
        grows_bind (grows_keeps fun _ => rfl) fun _ =>
          grows_ite (grows_memoryWriteLoop P fuel _ _ _)
          (grows_bind (grows_error _) fun _ => grows_pure _)

theorem grows_memoryReadLoop (P : Platform σ) : ∀ fuel a l r, Grows (memoryReadLoop P fuel a l r)
  | 0, _, _, _ => grows_pure _
  | fuel + 1, _, _, _ => grows_ite (grows_pure _) <|
      grows_bind (grows_keeps (failed_readRange P _ _)) fun _ =>
        grows_ite (grows_bind (grows_keeps (failed_encodeRange _ _ _)) fun _ =>
          grows_memoryReadLoop P fuel _ _ _) (grows_bind (grows_error _) fun _ => grows_pure _)

theorem grows_finishMonitor : Grows (finishMonitor : StubM σ Unit) := by
  intro s
  have h := asserts_finishMonitor s trivial
  rw [h]

theorem PlatformCall.failed {P : Platform σ} {call : StubM σ α} (h : PlatformCall P call) :
    Keeps Stub.failedAsserts call := by
  cases h with
  | read => exact keeps_modifyGet fun _ => rfl
  | write => exact keeps_modifyGet fun _ => rfl
  | watchpoint => exact keeps_modifyGet fun _ => rfl
  | dump => exact keeps_modifyGet fun _ => rfl
  | msr => exact keeps_modifyGet fun _ => rfl
  | breakOnLoad => exact keeps_modifyGet fun _ => rfl
  | singleStep => exact keeps_modify fun _ => rfl
  | reboot => exact keeps_modifyGet fun _ => rfl

/-- What is left of a command takes nothing off the record. -/
theorem LeftOver.grows {P : Platform σ} {short : Prop} {m : StubM σ Unit} (h : LeftOver P short m) :
    Grows m := by
  induction h with
  | call platform behind ih => exact grows_bind (grows_keeps platform.failed) ih
  | written ok fuel a l v =>
    have hloop : Grows (memoryWriteLoopOn P ok fuel a l v) :=
      grows_ite (grows_memoryWriteLoop P fuel _ _ _)
      (grows_bind (grows_error _) fun _ => grows_pure _)
    exact grows_bind hloop fun _ => grows_ite (grows_response _) (grows_pure _)
  | wasRead ok Data fuel a l r first =>
    have hloop : Grows (memoryReadLoopOn P ok fuel a l r) :=
      grows_ite (grows_bind (grows_keeps (failed_encodeRange _ _ _)) fun _ =>
        grows_memoryReadLoop P fuel _ _ _) (grows_bind (grows_error _) fun _ => grows_pure _)
    refine grows_bind (grows_keeps fun _ => rfl) fun _ => grows_bind hloop fun done => ?_
    cases done with
    | none => exact grows_pure _
    | some RespIndex => exact grows_bind (grows_keeps fun _ => rfl) fun _ => grows_response _
  | saved Entry e behind ih => exact grows_bind (grows_keeps fun _ => rfl) fun _ => ih
  | changed Result => exact grows_ite (grows_response _) (grows_error _)
  | printed Text => exact grows_bind (grows_keeps fun _ => rfl) fun _ => grows_finishMonitor
  | moduleBreak ok Argument =>
    have hprint : Grows (printModuleBreak P ok Argument) :=
      grows_ite (grows_keeps fun _ => rfl) (grows_keeps fun _ => rfl)
    exact grows_bind hprint fun _ => grows_finishMonitor
  | stepping => exact grows_keeps fun _ => rfl
  | rebootFailed => exact grows_error _

end Grows

/-! ## Calm commands -/

/-- A program that is about to be executed in a state is a proper request; or it is what is left of
an interrupted command, and where it goes on to decode digits of the request they are digits, and
where it goes on to spell bytes into the response they fit. -/
inductive Calm (P : Platform σ) : StubM σ Unit → Stub σ → Prop
  | whole {p : List UInt8} {s : Stub σ} (payload : Payload s.mRequest p)
      (proper : ProperRequest P s p) : Calm P (executeGdbCommand P 1 p.length) s
  | call {α : Type} {call : StubM σ α} {rest : α → StubM σ Unit} {s : Stub σ}
      (platform : PlatformCall P call) (behind : Calm P (rest (call.run s).1) (call.run s).2) :
      Calm P (call >>= rest) s
  | written {ok : Bool} {fuel a l v : Nat} {s : Stub σ} (ds : List UInt8) (digits : ok = true →
      Holds s.mRequest.bytes v ds ∧
        DecodesDigits P fuel ((a + min l scratchSize) % 2 ^ 64) (l - min l scratchSize) ds
        s.target) :
      Calm P (memoryWritten P ok fuel a l v) s
  | wasRead {ok : Bool} {Data : List UInt8} {fuel a l r : Nat} {s : Stub σ} (fits : ok = true →
      ReadsFit P fuel ((a + min l scratchSize) % 2 ^ 64) (l - min l scratchSize) (r + 2 * l)
      s.target) : Calm P (memoryWasRead P ok Data fuel a l r) s
  | saved (Entry : Fin maxBreakpoints) (e : BreakpointInfo) {rest : StubM σ Unit} {s : Stub σ}
      (behind : Calm P rest ((setBreakpoint Entry e).run s).2) :
      Calm P (setBreakpoint Entry e >>= fun _ => rest) s
  | changed (Result : Bool) (s : Stub σ) : Calm P (sendBreakpointResult Result) s
  | printed (Text : List UInt8)
      (s : Stub σ) : Calm P (printScratch Text >>= fun _ => finishMonitor) s
  | moduleBreak (ok : Bool) (Argument : List UInt8)
      (s : Stub σ) : Calm P (moduleBreakSet P ok Argument) s
  | stepping (s : Stub σ) : Calm P setRunning s
  | rebootFailed (s : Stub σ) : Calm P (sendGdbError gdbErrorUnsupported) s

section Calm
variable {P : Platform σ}

theorem asserts_memoryWritten (ok : Bool) (fuel a l v : Nat) (ds : List UInt8) :
    AssertsHold (fun s => ok = true → Holds s.mRequest.bytes v ds ∧
      DecodesDigits P fuel ((a + min l scratchSize) % 2 ^ 64) (l - min l scratchSize) ds s.target)
      (memoryWritten P ok fuel a l v) := by
  have hloop : AssertsHold (fun s => ok = true → Holds s.mRequest.bytes v ds ∧
      DecodesDigits P fuel ((a + min l scratchSize) % 2 ^ 64) (l - min l scratchSize) ds s.target)
      (memoryWriteLoopOn P ok fuel a l v) :=
    assertsHold_ite (fun hok => (asserts_memoryWriteLoop fuel _ _ v ds).mono fun s hs => hs hok)
    fun _ =>
      assertsHold_then (asserts_error _) fun _ => assertsHold_pure _
  exact assertsHold_then hloop fun _ => assertsHold_ite (fun _ => asserts_text (by decide)) fun _ =>
    assertsHold_pure _

theorem memoryWasRead_passes {ok : Bool} {Data : List UInt8} {fuel a l r : Nat} {s : Stub σ}
    (hfits : ok = true → ReadsFit P fuel ((a + min l scratchSize) % 2 ^ 64) (l - min l scratchSize)
    (r + 2 * l) s.target) :
    ((memoryWasRead P ok Data fuel a l r).run s).2.failedAsserts = s.failedAsserts := by
  set s₁ := ((storeScratch Data).run s).2 with hs₁
  -- The loop goes on in the state behind the chunk, or ends with an error.
  have hloop : ((memoryReadLoopOn P ok fuel a l r).run s₁).2.failedAsserts = s.failedAsserts ∧
      ∀ r', ((memoryReadLoopOn P ok fuel a l r).run s₁).1 = some r' → r' ≤ maxResponseSize := by
    rw [memoryReadLoopOn]
    by_cases hok : ok = true
    · rw [if_pos hok, run_bind]
      have hencoded := failed_encodeRange l 0 r s₁
      have hsame := keeps_encodeRange (π := Stub.target) l 0 r s₁
      have hend := encodeRange_end l 0 r s₁
      generalize (encodeRange l 0 r).run s₁ = encoded at hencoded hsame hend ⊢
      obtain ⟨r', u⟩ := encoded
      obtain rfl : r' = r + 2 * l := hend
      have hnext := hfits hok
      rw [← show u.target = s.target from hsame] at hnext
      obtain ⟨hfailed, hbound⟩ := memoryReadLoop_fits fuel _ _ _ u hnext
      exact ⟨hfailed.trans hencoded, hbound⟩
    · rw [if_neg hok]
      have herror : AssertsHold anyState (do
          sendGdbError gdbErrorBadMemAddress
          pure none : StubM σ (Option Nat)) :=
            assertsHold_then (asserts_error _) fun _ => assertsHold_pure _
      exact ⟨herror s₁ trivial, fun _ h => nomatch h⟩
  rw [memoryWasRead, run_bind, run_bind]
  exact (asserts_readDone _ _ hloop.2).trans hloop.1

/-- **A calm command fails no assertion.** -/
theorem Calm.passes (hfits : TableFits P.gRegisterOffsets) {m : StubM σ Unit} {s : Stub σ}
    (h : Calm P m s) : (m.run s).2.failedAsserts = s.failedAsserts := by
  have hfinish : AssertsHold anyState (finishMonitor : StubM σ Unit) := asserts_finishMonitor
  induction h with
  | whole payload proper => exact executeGdbCommand_passes hfits payload proper
  | call platform behind ih => exact ih.trans (platform.failed _)
  | written ds digits => exact asserts_memoryWritten _ _ _ _ _ ds _ digits
  | wasRead fits => exact memoryWasRead_passes fits
  | saved Entry e behind ih => exact ih
  | changed Result s => exact asserts_sendBreakpointResult Result s trivial
  | printed Text s =>
    have hprinted : AssertsHold anyState
        (printScratch Text >>= fun _ => finishMonitor : StubM σ Unit) :=
      assertsHold_then (assertsHold_keeps fun _ => rfl) fun _ => hfinish
    exact hprinted s trivial
  | moduleBreak ok Argument s =>
    have hprint : AssertsHold anyState (printModuleBreak P ok Argument) :=
      assertsHold_ite (fun _ => assertsHold_keeps fun _ => rfl) fun _ =>
      assertsHold_keeps fun _ => rfl
    have hset : AssertsHold anyState (moduleBreakSet P ok Argument) :=
      assertsHold_then hprint fun _ => hfinish
    exact hset s trivial
  | stepping s => rfl
  | rebootFailed s =>
    have herror : AssertsHold anyState (sendGdbError gdbErrorUnsupported : StubM σ Unit) :=
      asserts_error _
    exact herror s trivial

end Calm

/-! ## Reads -/

section Input
variable {P : Platform σ} {s : Stub σ}

theorem failed_receiveNext (n : Nat) (e : Receive) :
    Keeps Stub.failedAsserts (receiveNext n e : StubM σ InputPoint) := by
  have refuse : Keeps Stub.failedAsserts
      (do sendGdbAck false; pure .returned : StubM σ InputPoint) :=
    fun _ => rfl
  have hcontinues : ∀ k, Keeps Stub.failedAsserts (packetContinues k : StubM σ Bool) := fun _ =>
    keeps_ite (keeps_pure _) (keeps_bind (fun _ => rfl) fun _ => keeps_pure _)
  cases e with
  | timeout => exact refuse
  | byte b =>
    exact keeps_bind (fun _ => rfl) fun _ => keeps_bind (hcontinues _) fun c =>
      keeps_ite (keeps_ite refuse (keeps_pure _)) (keeps_pure _)

/-- A resend finds its assertions true when the last packet is in the buffer. -/
theorem asserts_receiveFirst (e : Receive) :
    AssertsHold Settled (receiveFirst e : StubM σ InputPoint) := by
  intro s hs
  cases e with
  | timeout => rfl
  | byte b =>
    rw [receiveFirst, run_bind, run_bind, run_get, run_ite]
    by_cases hresend : b = char '-' ∧ ((writeRequest 0 b).run s).2.mResponseAcknowledged = false
    · have hsettled : Settled ((writeRequest 0 b).run s).2 := hs
      obtain ⟨str, -, hrun⟩ := hsettled.resend hresend.2
      rw [if_pos hresend, run_bind]
      show ((sendGdbResponse .resend).run ((writeRequest 0 b).run s).2).2.failedAsserts = _
      rw [hrun]
      rfl
    · rw [if_neg hresend, run_ite]
      split
      · rfl
      · rw [run_ite]
        split
        · rfl
        · rfl

theorem asserts_collect (input : InputPoint) (e : Receive) :
    AssertsHold Settled (collect input e : StubM σ InputPoint) := by
  cases input with
  | first => exact asserts_receiveFirst e
  | next n => exact assertsHold_keeps (failed_receiveNext n e)
  | packet n => exact assertsHold_pure _
  | returned => exact fun s hs => asserts_receiveFirst e (enterInput.run s).2 hs

/-- **A read fails no assertion**: a packet starts with a `$`. -/
theorem asserts_afterRead {input : InputPoint} {d : Option (List UInt8)}
    (h : Standing s.mRequest input d) (hs : Settled s) (e : Receive) :
    ((afterRead P input e).run s).2.failedAsserts = s.failedAsserts := by
  have hcollected := collected h e
  have hfailed := asserts_collect input e s hs
  rw [afterRead, run_bind]
  generalize ((collect input e).run s).1 = next at *
  generalize ((collect input e).run s).2 = t at *
  cases hcollected with
  | waits standing decided unexecuted =>
    cases next with
    | packet n => exact absurd standing id
    | first => exact hfailed
    | next n => exact hfailed
    | returned => exact hfailed
  | @completes n p c d' complete judged decided =>
    obtain ⟨top, hrun⟩ := validateGdbPacket_run P complete
    dsimp only
    rw [run_bind, hrun]
    cases judge p c d' with
    | refused => exact hfailed
    | executed payload => exact hfailed

end Input

/-! ## Runs -/

namespace Machine
variable {P : Platform σ}

/-- Every command that is about to be executed is calm. -/
def Proper (P : Platform σ) (m : Machine σ) : Prop :=
  ∀ f fs rest, m.frames = f :: fs → f.point = .execute rest → Calm P rest.program m.stub

/-- The input loop waits for a byte where the reference decoder can be. -/
def Stands (b : ByteBuffer) : StopPoint σ → Prop
  | .readStart input => ∃ d, Standing b input d
  | .readPoll input _ => ∃ d, Standing b input d
  | .readClock input _ => ∃ d, Standing b input d
  | _ => True

/-- An activation with another one inside it is executing a command. -/
def Executing (f : Frame σ) : Prop := ∃ rest, f.point = .execute rest

/-- The invariant: no assertion failed, and the innermost activation is the only one that may be
reading. -/
structure Quiet (m : Machine σ) : Prop where
  failed : m.stub.failedAsserts = []
  inner : ∀ f fs, m.frames = f :: fs → Stands m.stub.mRequest f.point
  outer : ∀ f fs, m.frames = f :: fs → ∀ g ∈ fs, Executing g

section Steps
variable {m : Machine σ} {f : Frame σ} {fs : List (Frame σ)}

/-- The innermost activation moves on. -/
theorem quiet_of_frames (hframes : m.frames = f :: fs) (hfailed : m.stub.failedAsserts = [])
    (hinner : Stands m.stub.mRequest f.point) (houter : ∀ g ∈ fs, Executing g) : Quiet m := by
  refine ⟨hfailed, fun f' fs' h => ?_, fun f' fs' h => ?_⟩
  · rw [hframes] at h
    obtain ⟨rfl, rfl⟩ := List.cons.inj h
    exact hinner
  · rw [hframes] at h
    obtain ⟨rfl, rfl⟩ := List.cons.inj h
    exact houter

/-- No activation reads. -/
theorem quiet_of_executing (hfailed : m.stub.failedAsserts = []) (h : ∀ g ∈ m.frames, Executing g) :
    Quiet m := by
  refine ⟨hfailed, fun f fs hframes => ?_, fun f fs hframes g hg => ?_⟩
  · obtain ⟨rest, hrest⟩ := h f (by rw [hframes]; exact List.mem_cons_self)
    rw [hrest]
    trivial
  · exact h g (by rw [hframes]; exact List.mem_cons_of_mem f hg)

/-- One read. -/
theorem quiet_readDone {input : InputPoint} {d : Option (List UInt8)}
    (hfailed : m.stub.failedAsserts = []) (houter : ∀ g ∈ fs, Executing g)
    (hsettled : Settled m.stub) (hstanding : Standing m.stub.mRequest input d) (e : Receive) :
    Quiet (m.readDone P f fs input e) := by
  obtain ⟨-, -, -, hposition⟩ := afterRead_spec P hstanding e
  have hread := (asserts_afterRead (P := P) hstanding hsettled e).trans hfailed
  refine quiet_of_frames rfl hread ?_ houter
  show Stands ((afterRead P input e).run m.stub).2.mRequest ((afterRead P input e).run m.stub).1
  generalize ((afterRead P input e).run m.stub).1 = next at hposition ⊢
  cases hposition with
  | reads standing => exact ⟨_, standing⟩
  | returns idle => trivial
  | executes idle verdict payload program => trivial

/-- **One advance keeps the invariant.** -/
theorem quiet_advance (hfits : TableFits P.gRegisterOffsets) (hframes : m.frames = f :: fs)
    (hm : Quiet m) (hsettled : Settled m.stub)
    (hproper : ∀ rest, f.point = .execute rest → Calm P rest.program m.stub) (now : Nat) :
    Quiet (m.advance P f fs now) := by
  have hinner := hm.inner f fs hframes
  have houter := hm.outer f fs hframes
  have hmoves : ∀ {point : StopPoint σ}, Stands m.stub.mRequest point → Quiet (m.goto f fs point) :=
    fun hpoint => quiet_of_frames rfl hm.failed hpoint houter
  obtain ⟨T, point⟩ := f
  cases point with
  | poll =>
    rw [advance_poll]
    split
    · exact hmoves trivial
    · exact hmoves ⟨none, rfl⟩
  | readStart input => exact hmoves hinner
  | readPoll input E =>
    cases hpending : m.pending with
    | nil =>
      rw [advance_readPoll_nil hpending]
      exact hmoves hinner
    | cons b bs =>
      rw [advance_readPoll_cons hpending]
      obtain ⟨d, hstanding⟩ := hinner
      exact quiet_readDone (m := { m with pending := bs }) hm.failed houter hsettled
        hstanding (.byte b)
  | readClock input E =>
    by_cases hnow : now < E
    · rw [advance_readClock_lt hnow]
      exact hmoves hinner
    · rw [advance_readClock_ge hnow]
      obtain ⟨d, hstanding⟩ := hinner
      exact quiet_readDone hm.failed houter hsettled hstanding .timeout
  | execute rest =>
    -- A calm command passes its assertions, and leaves the collector at its start.
    have hpasses := (hproper rest rfl).passes hfits
    exact quiet_of_frames rfl (hpasses.trans hm.failed) ⟨none, rfl⟩ houter
  | clock =>
    by_cases hends : ((checkTimeout T now).run m.stub).2.gRunning = true
    · rw [advance_clock_ends hends]
      have hleave : Keeps Stub.failedAsserts (leaveStop P) :=
        keeps_bind keeps_get fun _ => keeps_ite (keeps_bind (fun _ => rfl) fun _ => keeps_pure _)
        (keeps_pure _)
      exact quiet_of_executing ((hleave _).trans hm.failed) houter
    · rw [advance_clock_goes_on hends]
      exact quiet_of_frames rfl hm.failed trivial houter

/-- A stop is entered with its reply. -/
theorem quiet_enter (hfailed : m.stub.failedAsserts = []) (hall : ∀ g ∈ m.frames, Executing g)
    (i c : Nat) (info : ExceptionInfo) (context : Context) (now : Nat) :
    Quiet (m.enter i c info context now) := by
  have hreply : AssertsHold anyState (sendStopReply : StubM σ Unit) := asserts_text (by decide)
  have hentered : ((reportException i c info context now).run m.stub).2.failedAsserts =
      m.stub.failedAsserts :=
    hreply _ trivial
  exact quiet_of_frames rfl (hentered.trans hfailed) trivial hall

/-- **One step of the code keeps the invariant.** -/
theorem quiet_step (hfits : TableFits P.gRegisterOffsets) {m m' : Machine σ} {e : Event σ}
    (hproper : Proper P m) (hsound : Sound P False m) (h : CodeStep P False m e m') (hm : Quiet m) :
    Quiet m' := by
  cases h with
  | interrupted i c info context now before after stopped executing cut kept quiet behind alive =>
    -- What was done before the exception is the front of a command that fails nothing.
    rename_i f fs rest
    have hpasses := (hproper f fs rest stopped executing).passes hfits
    have hgrows := (behind (before.run m.stub).1).grows (before.run m.stub).2
    rw [cut, run_bind, hm.failed] at hpasses
    have hfailed : (before.run m.stub).2.failedAsserts = [] :=
      List.prefix_nil.mp (hgrows.trans (hpasses ▸ List.prefix_refl _))
    refine quiet_enter hfailed (fun g hg => ?_) i c info context now
    rcases List.mem_cons.mp hg with rfl | hg
    · exact ⟨_, rfl⟩
    · exact hm.outer f fs stopped g hg
  | plain step whole =>
    cases step with
    | tick now arrived =>
      rcases tick_cases P m now arrived with ⟨-, htick⟩ | ⟨-, f, fs, hframes, htick⟩
      · rw [htick]
        exact ⟨hm.failed, hm.inner, hm.outer⟩
      · rw [htick]
        have harrived : Quiet (m.arrive arrived) := ⟨hm.failed, hm.inner, hm.outer⟩
        have hsettled : Settled m.stub :=
          hsound.settled (by rw [hframes]; exact List.cons_ne_nil f fs)
        exact quiet_advance hfits (m := m.arrive arrived) hframes harrived hsettled
          (fun rest => hproper f fs rest hframes) now
    | stop i c info context now running alive =>
      refine quiet_enter hm.failed (fun g hg => ?_) i c info context now
      rw [running] at hg
      exact absurd hg List.not_mem_nil
    | nested i c info context now before after stopped executing cut kept alive =>
      rcases whole with hnone | ⟨now', arrived, hevent⟩
      · rw [stopped] at hnone
        cases hnone
      · cases hevent
    | arm T running alive => exact ⟨hm.failed, hm.inner, hm.outer⟩
    | running t reason polled running alive => exact ⟨hm.failed, hm.inner, hm.outer⟩

end Steps

/-- **No assertion fails in a run of proper commands.** -/
theorem assertions_hold (P : Platform σ) (hfits : TableFits P.gRegisterOffsets) {s : Stub σ}
    (hout : s.output = []) (hfailed : s.failedAsserts = []) {es : List (Event σ)} {m : Machine σ}
    (h : CodeRun P False (Proper P) (initial s) es m) : m.stub.failedAsserts = [] := by
  have hstart : Quiet (initial s) ∧ Sound P False (initial s) :=
    ⟨quiet_of_executing hfailed fun g hg => absurd hg List.not_mem_nil, sound_initial hout⟩
  have hkeep : ∀ {k k' : Machine σ} {e : Event σ}, Proper P k → CodeStep P False k e k' →
      Quiet k ∧ Sound P False k → Quiet k' ∧ Sound P False k' := fun hproper hstep hinv =>
    ⟨quiet_step hfits hproper hinv.2 hstep hinv.1,
      sound_step (fun _ _ => False.elim) hproper hstep hinv.2⟩
  exact (h.invariant hkeep hstart).1.failed

/-! ## A write of letters, and one of digits -/

/-- **Letters for digits fail an assertion.** -/
theorem letters_fail_assertion :
    ¬ ∀ (s : Stub FlatMachine) (es : List (Event FlatMachine)) (m : Machine FlatMachine),
    s.output = [] →
      s.failedAsserts = [] → CodeRun flatPlatform False (fun _ => True) (initial s) es m →
        m.stub.failedAsserts = [] := by
  intro h
  have hstop : CodeRun flatPlatform False (fun _ => True) (initial (Stub.initial ⟨fun _ => 0, []⟩))
      _ stopAtLoad :=
    (CodeRun.none _).snoc trivial stopAtLoad_step
  have hrun := hstop.ticks (fun k (_ : true = true) => trivial)
    (readTicks (text "$M0,1:zz#08") ++ [(0, [])]) _ _ (by decide +kernel)
  have hfailed :
      (stopAtLoad.ticks flatPlatform
        (readTicks (text "$M0,1:zz#08") ++ [(0, [])])).stub.failedAsserts =
      [.hexDigit, .hexDigit] := by decide +kernel
  rw [h _ _ _ rfl rfl hrun] at hfailed
  cases hfailed

theorem proper_of_reading {m : Machine σ} (h : m.reading = true) : Proper P m := by
  intro f fs rest hframes hpoint
  obtain ⟨T, point⟩ := f
  obtain rfl : point = .execute rest := hpoint
  rw [reading, hframes] at h
  cases h

theorem Watched.ticks : ∀ (ts : List (Nat × List UInt8)) {m : Machine σ}, Watched P m →
    Watched P (m.ticks P ts)
  | [], _, h => h
  | t :: ts, m, h => by
      have horderly : Orderly m (.tick t.1 t.2) := trivial
      exact Watched.ticks ts (Watched.step h horderly (.tick m t.1 t.2))

/-- The one packet that the stop has read is proper. -/
theorem proper_of_received {m : Machine σ} (h : Watched P m) {q : List UInt8}
    (hreceived : (decode none (stopReads m.trace)).2 = [.executed q])
    (hproper : ProperRequest P m.stub q) :
    Proper P m := by
  intro f fs rest hframes hpoint
  rcases h.frames with hnone | ⟨g, hone, hin⟩
  · rw [hnone] at hframes
    cases hframes
  · rw [hone] at hframes
    obtain ⟨rfl, rfl⟩ := List.cons.inj hframes
    have hlocation := hin.location
    rw [hpoint] at hlocation
    cases hlocation with
    | @execute _ p idle payload received program =>
      rw [ReceivedIn, hreceived, List.mem_singleton] at received
      obtain rfl := Verdict.executed.inj received
      rw [program]
      exact .whole payload hproper

/-- A write of two bytes. -/
theorem proper_twoBytes (s : Stub FlatMachine) :
    ProperRequest flatPlatform s (text "M0,2:41ff") := by
  have hother : ∀ {b : UInt8} {w : List UInt8}, text "M0,2:41ff" = b :: w → b ≠ char 'M' → False :=
    fun h hb =>
    hb (List.cons.inj h).1.symm
  have hparse : parseMemoryWrite flatPlatform (text "0,2:41ff") = .transfer 0 2 4 := by
    decide +kernel
  refine ⟨fun w hw => absurd (hother hw (by decide)) id, fun w hw =>
    absurd (hother hw (by decide)) id,
    fun w hw => absurd (hother hw (by decide)) id, fun w hw => ?_, fun w hw =>
    absurd (hother hw (by decide)) id,
    fun w hw => absurd (hother hw (by decide)) id⟩
  obtain rfl : text "0,2:41ff" = w := (List.cons.inj hw).2
  refine ⟨by rw [hparse]; exact MemoryRequest.noConfusion, fun a l v htransfer => ?_⟩
  rw [hparse] at htransfer
  obtain ⟨rfl, rfl, rfl⟩ := MemoryRequest.transfer.inj htransfer
  rw [show textAt (cutMemoryWrite (text "0,2:41ff")) 4 = text "41ff" from by decide +kernel]
  exact Or.inr ⟨by decide, by decide +kernel, fun _ => Or.inl rfl⟩

theorem assertions_hold_write :
    (stopAtLoad.ticks flatPlatform
      (readTicks (text "$M0,2:41ff#46") ++ [(0, [])])).stub.failedAsserts = [] := by
  set before := stopAtLoad.ticks flatPlatform (readTicks (text "$M0,2:41ff#46")) with hbefore
  have hstop : CodeRun flatPlatform False (Proper flatPlatform)
      (initial (Stub.initial ⟨fun _ => 0, []⟩)) _
      stopAtLoad := (CodeRun.none _).snoc (proper_of_reading rfl) stopAtLoad_step
  have hread : CodeRun flatPlatform False (Proper flatPlatform)
      (initial (Stub.initial ⟨fun _ => 0, []⟩)) _
      before :=
      hstop.ticks (fun _ => proper_of_reading) (readTicks (text "$M0,2:41ff#46")) _ _
      (by decide +kernel)
  have hwatched : Watched flatPlatform before := by
    have hstart : Watched flatPlatform
        (initial (Stub.initial ⟨fun _ => 0, []⟩) : Machine FlatMachine) :=
      Run.watched (Run.none _)
    have horderly : Orderly (initial (Stub.initial ⟨fun _ => 0, []⟩) : Machine FlatMachine)
        (.exception 0 0 ⟨.breakpoint, 0, 3⟩ (fun _ => 0) 0) := ⟨rfl, by decide⟩
    have hstopped : Watched flatPlatform stopAtLoad :=
      Watched.step hstart horderly ((@stopAtLoad_step flatPlatform False).step)
    exact Watched.ticks _ hstopped
  have hreceived : (decode none (stopReads before.trace)).2 = [.executed (text "M0,2:41ff")] := by
    rw [hbefore]
    decide +kernel
  have hrun := hread.snoc (proper_of_received hwatched hreceived (proper_twoBytes _))
    (.plain (.tick before 0 []) (Or.inr ⟨0, [], rfl⟩))
  have hfits : TableFits flatPlatform.gRegisterOffsets :=
    ⟨fun r hr => absurd hr List.not_mem_nil, by decide⟩
  exact assertions_hold flatPlatform hfits rfl rfl hrun

end Machine
end UefiDebugger
