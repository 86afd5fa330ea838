import UefiDebugger.CommandRuns

/-!
# Malformed memory writes

An `M` command checks its delimiters, its two numbers, and that the value is twice as many
characters as the length says, modulo `2 ^ 64`.  It does not check that these characters are digits,
and that check is what decides: a malformed command that passes the others is carried out.
-/
namespace UefiDebugger
open HexText ByteString StateEffect

variable {σ : Type}

/-- `addr,len:data` in hexadecimal, with `2 * len` digits of data. -/
def WellFormedWrite (w : List UInt8) : Prop :=
  ∃ as ls ds, w = as ++ char ',' :: (ls ++ char ':' :: ds) ∧
    (as ≠ [] ∧ ∀ c ∈ as, isDigit c = true) ∧ (ls ≠ [] ∧ ∀ c ∈ ls, isDigit c = true) ∧
    (∀ c ∈ ds, isDigit c = true) ∧ value as < 2 ^ 64 ∧ value ls < 2 ^ 64 ∧ ds.length = 2 * value ls

/-- What an `M` command does check: there is a `,` and a `:`, the texts before them are accepted as
numbers, and the length of the text after the `:` matches. -/
def AcceptedWrite (P : Platform σ) (w : List UInt8) : Prop :=
  char ',' ∈ w ∧ char ':' ∈ w ∧ ∃ Address Length,
    P.baseLib.asciiStrHexToUint64S (textAt (cutMemoryWrite w) 0) = some Address ∧
    P.baseLib.asciiStrHexToUint64S (textAt (cutMemoryWrite w) (w.idxOf (char ',') + 1)) =
      some Length ∧
    (textAt (cutMemoryWrite w) (w.idxOf (char ':') + 1)).length = Length * 2 % 2 ^ 64

/-- From `s` to `t` an error was replied, no byte was written to memory, and nothing behind the
terminator at `T` was read. -/
structure RejectedWithoutEffect (T : Nat) (s t : Stub σ) : Prop where
  reply : ∃ e, t.output = s.output ++ [.packet (gdbFrame (errorString e))]
  unwritten : ∃ made, t.accesses = s.accesses ++ made ∧ ∀ a ∈ made, a.write = true → a.data = []
  unread : t.mRequest.readTop ≤ max s.mRequest.readTop (T + 1)

/-! ## The checks -/

theorem parseMemoryWrite_transfer {P : Platform σ} {w : List UInt8} (h : AcceptedWrite P w) :
    ∃ a l v, parseMemoryWrite P w = .transfer a l v := by
  obtain ⟨hcomma, hcolon, Address, Length, ha, hl, hlen⟩ := h
  refine ⟨Address, Length, w.idxOf (char ':') + 1, ?_⟩
  rw [parseMemoryWrite, if_pos ⟨hcomma, hcolon⟩, parseNumbers, ha, hl]
  exact if_neg fun hne => hne hlen

theorem parseMemoryWrite_refuses {P : Platform σ} {w : List UInt8} (h : ¬ AcceptedWrite P w) :
    parseMemoryWrite P w = .badRequest ∨ parseMemoryWrite P w = .badLength := by
  rw [parseMemoryWrite]
  by_cases hdelim : char ',' ∈ w ∧ char ':' ∈ w
  swap
  · rw [if_neg hdelim]
    exact Or.inl rfl
  rw [if_pos hdelim, parseNumbers]
  rcases ha : P.baseLib.asciiStrHexToUint64S (textAt (cutMemoryWrite w) 0) with _ | Address
  · exact Or.inl rfl
  rcases hl : P.baseLib.asciiStrHexToUint64S
      (textAt (cutMemoryWrite w) (w.idxOf (char ',') + 1)) with _ | Length
  · exact Or.inl rfl
  right
  refine if_pos fun hlen => h ⟨hdelim.1, hdelim.2, Address, Length, ha, hl, hlen⟩

/-! ## What follows -/

/-- An error reply does nothing else. -/
theorem sendGdbError_rejects {T : Nat} {s t : Stub σ} (ho : t.output = s.output)
    (ha : t.accesses = s.accesses) (hr : t.mRequest.readTop ≤ max s.mRequest.readTop (T + 1))
    (e : UInt8) : RejectedWithoutEffect T s ((sendGdbError e).run t).2 where
  reply := ⟨e, by rw [sendGdbError, output_sendGdbResponse_text, ho]⟩
  unwritten := by
    refine ⟨[], ?_, fun _ h => nomatch h⟩
    rw [accesses_of_device (keeps_sendGdbError e) t, ha, List.append_nil]
  unread := hr

/-- The two replies of an `M` command are told apart by their first character. -/
theorem okReply_ne_error (e : UInt8) (before : List Output) :
    before ++ [Output.packet (gdbFrame (text "OK"))] ≠
      before ++ [.packet (gdbFrame (errorString e))] :=
      fun h => ok_ne_errorString e (reply_injective h)

/-- The first round of a transfer writes a chunk. -/
theorem memoryWriteLoop_writes (P : Platform σ) (fuel Address Value : Nat) {Length : Nat}
    (hL : 0 < Length) (t : Stub σ) :
    ∃ a made, ((memoryWriteLoop P (fuel + 1) Address Length Value).run t).2.accesses =
      t.accesses ++ a :: made ∧ a.write = true ∧ a.data ≠ [] := by
  set n := min Length scratchSize with hn
  have hpos : 0 < n := Nat.lt_min.mpr ⟨hL, by decide⟩
  rw [memoryWriteLoop, if_neg (by omega), run_bind, ← hn]
  have hdecode := accesses_of_device (keeps_decodeRange n 0 Value) t
  generalize (decodeRange n 0 Value).run t = r at hdecode
  obtain ⟨Value', t1⟩ := r
  set Data := slice t1.mScratch.bytes 0 n with hData
  have hlen : Data.length = n := slice_length ..
  set made := t1.accesses ++ [⟨.memoryCommand, true, Address, Data,
    (P.dbgWriteMemory Address Data t1.target).1⟩] with hmade
  -- Whatever follows the write only appends to the record.
  have hrest : ∀ ok, Ensures (fun s => made <+: s.accesses) (if ok = true then
      memoryWriteLoop P fuel ((Address + n) % 2 ^ 64) (Length - n) Value' else do
        sendGdbError gdbErrorBadMemAddress
        pure false) fun _ s => made <+: s.accesses := fun ok =>
    ensures_ite (fun _ => extends_memoryWriteLoop P made fuel _ _ _) fun _ =>
      ensures_bind (extends_of_device (keeps_sendGdbError _) made) fun _ =>
        ensures_pure fun _ hs => hs
  obtain ⟨rest, hfinal⟩ := hrest _ ((dbgWriteMemory P .memoryCommand Address Data).run
    ((scratchData n).run t1).2).2 (List.prefix_refl made)
  refine ⟨⟨.memoryCommand, true, Address, Data, (P.dbgWriteMemory Address Data t1.target).1⟩, rest,
    ?_, rfl, ?_⟩
  · refine hfinal.symm.trans ?_
    rw [hmade, hdecode, List.append_assoc]
    rfl
  · intro h
    have hzero : n = 0 := hlen.symm.trans (congrArg List.length h)
    omega

/-- A transfer is no rejection: it either has nothing to write and says so, or writes a chunk. -/
theorem memoryWriteTransfer_not_rejected (P : Platform σ) {T Address Length Value : Nat}
    {z : List UInt8} {s t : Stub σ} (hp : Parsing 2 z s t) :
    ¬ RejectedWithoutEffect T s ((memoryWriteTransfer P Address Length Value).run t).2 := by
  rintro ⟨⟨e, hreply⟩, ⟨made, hmade, hnone⟩, -⟩
  have haccesses : t.accesses = s.accesses := by rw [hp.same]
  cases Length with
  | zero =>
    have hrun : (memoryWriteTransfer P Address 0 Value).run t =
        (sendGdbResponse (.text (text "OK"))).run t := rfl
    rw [hrun, output_sendGdbResponse_text, hp.same] at hreply
    exact okReply_ne_error e _ hreply
  | succ Length =>
    obtain ⟨a, rest, hloop, hwrite, hdata⟩ :=
      memoryWriteLoop_writes P Length Address Value (Nat.succ_pos Length) t
    have htail : ∀ done : Bool, Keeps Stub.accesses
        (if done = true then sendGdbResponse (.text (text "OK")) else pure () : StubM σ Unit) :=
      fun _ => accesses_of_device (keeps_ite (keeps_sendGdbResponse _) (keeps_pure _))
    have hall : s.accesses ++ made = s.accesses ++ a :: rest := by
      rw [← hmade, memoryWriteTransfer, run_bind]
      exact (htail _ _).trans (hloop.trans (by rw [haccesses]))
    obtain rfl := List.append_cancel_left hall
    exact hdata (hnone a (List.mem_cons_self ..) hwrite)

/-- **When a malformed write is rejected.**  On the payload of any `M` packet, with anything behind
its terminator, the command meets "what is malformed is rejected without effect" exactly when the
payload is well formed or fails one of the checks made. -/
theorem memoryWrite_rejected_iff (P : Platform σ) {s : Stub σ} {w : List UInt8}
    (h : Payload s.mRequest (char 'M' :: w)) :
    (¬ WellFormedWrite w →
        RejectedWithoutEffect (w.length + 2) s ((executeGdbCommand P 1 (w.length + 1)).run s).2) ↔
      (WellFormedWrite w ∨ ¬ AcceptedWrite P w) := by
  obtain ⟨s1, hrun1, h1⟩ := executeGdbCommand_run P h
  have hdispatch : dispatchGdbCommand P (char 'M') 1 (w.length + 1) =
      processMemoryCommand P true 2 w.length := rfl
  obtain ⟨z, s2, hrun2, h2, hlen, -⟩ := h1.processMemoryWrite P
  rw [hrun1, hdispatch, hrun2]
  constructor
  · intro hrejects
    by_contra hcondition
    obtain ⟨hmal, haccepted⟩ := not_or.mp hcondition
    obtain ⟨a, l, v, hparse⟩ := parseMemoryWrite_transfer (not_not.mp haccepted)
    rw [hparse] at hrejects
    exact memoryWriteTransfer_not_rejected P h2 (hrejects hmal)
  · rintro (hwell | hrefused) hmal
    · exact absurd hwell hmal
    · have hread : s2.mRequest.readTop ≤ max s.mRequest.readTop (w.length + 2 + 1) := by
        have := h2.read
        omega
      have ho : s2.output = s.output := by rw [h2.same]
      have ha : s2.accesses = s.accesses := by rw [h2.same]
      rcases parseMemoryWrite_refuses hrefused with hparse | hparse
      · rw [hparse]
        exact sendGdbError_rejects ho ha hread _
      · rw [hparse, finishMemoryWrite, run_bind, assert_run]
        refine sendGdbError_rejects ?_ ?_ ?_ _
        · exact ho
        · exact ha
        · exact hread

/-! ## A write of no digits -/

theorem WellFormedWrite.mem {w : List UInt8} (h : WellFormedWrite w) {c : UInt8} (hc : c ∈ w) :
    isDigit c = true ∨ c = char ',' ∨ c = char ':' := by
  obtain ⟨as, ls, ds, rfl, ⟨-, has⟩, ⟨-, hls⟩, hds, -⟩ := h
  simp only [List.mem_append, List.mem_cons] at hc
  rcases hc with hc | rfl | hc | rfl | hc
  · exact Or.inl (has c hc)
  · exact Or.inr (Or.inl rfl)
  · exact Or.inl (hls c hc)
  · exact Or.inr (Or.inr rfl)
  · exact Or.inl (hds c hc)

/-- `M0,1:zz` is about to be executed. -/
def writeOfLetters : Stub FlatMachine :=
  { Stub.initial ⟨fun _ => 0, []⟩ with mRequest := requestOf (text "M0,1:zz") }

theorem writeOfLetters_payload : Payload writeOfLetters.mRequest (char 'M' :: text "0,1:zz") :=
  payload_requestOf (by decide)

theorem writeOfLetters_malformed : ¬ WellFormedWrite (text "0,1:zz") := fun h =>
  absurd (h.mem (show char 'z' ∈ text "0,1:zz" from by decide)) (by decide)

/-- The reply is `OK`. -/
theorem writeOfLetters_run :
    ((executeGdbCommand flatPlatform 1 ((text "0,1:zz").length + 1)).run writeOfLetters).2.output =
      writeOfLetters.output ++ [.packet (gdbFrame (text "OK"))] := by
  decide +kernel

/-- Not every malformed write is rejected. -/
theorem malformed_write_carried_out :
    ¬ ∀ (s : Stub FlatMachine) (w : List UInt8), Payload s.mRequest (char 'M' :: w) →
      ¬ WellFormedWrite w →
        RejectedWithoutEffect (w.length + 2) s
          ((executeGdbCommand flatPlatform 1 (w.length + 1)).run s).2 := by
  intro h
  obtain ⟨⟨e, hreply⟩, -⟩ := h writeOfLetters (text "0,1:zz") writeOfLetters_payload
    writeOfLetters_malformed
  exact okReply_ne_error e writeOfLetters.output (writeOfLetters_run.symm.trans hreply)

theorem memoryWrite_rejected_iff_letters :
    (¬ WellFormedWrite (text "0,1:zz") →
        RejectedWithoutEffect ((text "0,1:zz").length + 2) writeOfLetters
          ((executeGdbCommand flatPlatform 1 ((text "0,1:zz").length + 1)).run writeOfLetters).2) ↔
      (WellFormedWrite (text "0,1:zz") ∨ ¬ AcceptedWrite flatPlatform (text "0,1:zz")) :=
  memoryWrite_rejected_iff flatPlatform writeOfLetters_payload

end UefiDebugger
