import UefiDebugger.RequestText
import UefiDebugger.FlatMachine

/-!
# Running a command on its payload

`ProcessGdbPacket` leaves the payload in the request buffer and calls `ExecuteGdbCommand` on it.
The dispatcher reads the first character; the rest is a text in the sense of `Parsing`.

`Stub.device` is the part of the state the memory and breakpoint commands work on: the machine, the
breakpoint table, and the record of the accesses made.  Everything else a handler does leaves it
alone.
-/
namespace UefiDebugger
open HexText ByteString StateEffect

variable {σ : Type}

/-! ## Dispatch -/

/-- The dispatcher on the first character of a payload. -/
theorem executeGdbCommand_run (P : Platform σ) {s : Stub σ} {b : UInt8} {w : List UInt8}
    (h : Payload s.mRequest (b :: w)) :
    ∃ s', (executeGdbCommand P 1 (w.length + 1)).run s =
        (dispatchGdbCommand P b 1 (w.length + 1)).run s' ∧ Parsing 2 w s s' := by
  have hfits := h.fits
  rw [List.length_cons] at hfits
  refine ⟨{ s with mRequest := s.mRequest.mark 2 }, ?_, ?_⟩
  · show (dispatchGdbCommand P (s.mRequest.bytes 1) 1 (w.length + 1)).run _ = _
    rw [h.held.1]
  · refine ⟨rfl, h.held.2, ?_, ?_⟩
    · show max s.mRequest.readTop 2 ≤ _
      omega
    · unfold maxRequestSize at hfits
      unfold pcdMaximumAsciiStringLength
      omega

theorem payload_requestOf {p : List UInt8} (h : p.length + 4 ≤ maxRequestSize) :
    Payload (requestOf p) p := ⟨holds_store .., h⟩

/-! ## The device -/

/-- The machine, the breakpoint table, and the accesses made so far. -/
structure Device (σ : Type) where
  target : σ
  mBreakpoints : BreakpointTable
  accesses : List Access

def Stub.device (s : Stub σ) : Device σ := ⟨s.target, s.mBreakpoints, s.accesses⟩

instance : Silent (Stub.device (σ := σ)) :=
  ⟨fun _ _ => rfl, fun _ _ _ _ _ _ _ => rfl, fun _ _ => rfl⟩

/-- A reply touches the response, what is known of its acknowledgement, and the records. -/
theorem keeps_reply {γ : Type} {π : Stub σ → γ}
    (h : ∀ (s : Stub σ) b a n f o, π { s with
      mResponseFull := b
      mResponseAcknowledged := a
      responseLength := n
      failedAsserts := f
      output := o } = π s) (r : Response) : Keeps π (sendGdbResponse r) := by
  have htransmit : Keeps π (transmitResponse : StubM σ Unit) := fun s => h s _ _ _ _ _
  have hassert : ∀ site c, Keeps π (assert site c : StubM σ Unit) := fun site c s => by
    rw [assert_run]
    exact h s _ _ _ _ _
  have hframe : ∀ n c, Keeps π (frameResponse n c : StubM σ Unit) := fun _ _ s => h s _ _ _ _ _
  have hstart : ∀ g : Stub σ → ByteBuffer, Keeps π
      (modify fun s => { s with mResponseFull := g s } : StubM σ Unit) := fun _ s => h s _ _ _ _ _
  cases r with
  | resend =>
    exact keeps_bind keeps_get fun _ => keeps_bind (hassert _ _) fun _ =>
      keeps_bind (hassert _ _) fun _ => htransmit
  | text str =>
    exact keeps_bind (hassert _ _) fun _ => keeps_bind (hstart _) fun _ =>
      keeps_bind (hframe _ _) fun _ => htransmit
  | mResponse =>
    exact keeps_bind keeps_get fun _ => keeps_bind (hassert _ _) fun _ =>
      keeps_bind (hstart _) fun _ => keeps_bind (hframe _ _) fun _ => htransmit

/-- Accesses are never taken back. -/
theorem accesses_of_device {α : Type} {m : StubM σ α} (h : Keeps Stub.device m) :
    Keeps Stub.accesses m := h.map Device.accesses

/-- Whatever leaves the device alone leaves the record of accesses where it was. -/
theorem extends_of_device {α : Type} {m : StubM σ α} (h : Keeps Stub.device m)
    (base : List Access) :
    Ensures (fun s => base <+: s.accesses) m fun _ s => base <+: s.accesses :=
  (accesses_of_device h).ensures fun made => base <+: made

theorem extends_dbgWriteMemory (P : Platform σ) (site : AccessSite) (a : Nat) (bs : List UInt8)
    (base : List Access) :
    Ensures (fun s => base <+: s.accesses) (dbgWriteMemory P site a bs)
      fun _ s => base <+: s.accesses := fun _ hs => hs.trans (List.prefix_append ..)

theorem extends_memoryWriteLoop (P : Platform σ) (base : List Access) :
    ∀ fuel a l v, Ensures (fun s => base <+: s.accesses) (memoryWriteLoop P fuel a l v)
      fun _ s => base <+: s.accesses
  | 0, _, _, _ => ensures_pure fun _ hs => hs
  | fuel + 1, _, _, _ => ensures_ite (fun _ => ensures_pure fun _ hs => hs) fun _ =>
      ensures_bind (extends_of_device (keeps_decodeRange _ _ _) base) fun _ =>
        ensures_bind (extends_of_device (keeps_modifyGet fun _ => rfl) base) fun _ =>
          ensures_bind (extends_dbgWriteMemory P _ _ _ base) fun _ =>
            ensures_ite (fun _ => extends_memoryWriteLoop P base fuel _ _ _) fun _ =>
              ensures_bind (extends_of_device (keeps_sendGdbError _) base) fun _ =>
                ensures_pure fun _ hs => hs

end UefiDebugger
