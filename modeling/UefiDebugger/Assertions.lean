import UefiDebugger.CommandOutcome
import UefiDebugger.MemoryWriteEffect

/-!
# Assertions

The `ASSERT`s of the handlers.  `AssertsHold` composes along a program; the conditions under which a
handler passes its assertions are stated of the text of its request and of what memory answers.
-/
namespace UefiDebugger
open HexText ByteString StateEffect

variable {σ : Type}

/-! ## Programs whose assertions hold -/

/-- From a state in `pre`, no assertion of `m` fails. -/
def AssertsHold {α : Type} (pre : Stub σ → Prop) (m : StubM σ α) : Prop :=
  ∀ s, pre s → (m.run s).2.failedAsserts = s.failedAsserts

section Composition
variable {α β : Type} {pre : Stub σ → Prop}

/-- A program without assertions. -/
theorem assertsHold_keeps {m : StubM σ α} (h : Keeps Stub.failedAsserts m) : AssertsHold pre m :=
  fun s _ => h s

theorem AssertsHold.mono {pre' : Stub σ → Prop} {m : StubM σ α} (h : AssertsHold pre m)
    (hpre : ∀ s, pre' s → pre s) : AssertsHold pre' m := fun s hs => h s (hpre s hs)

theorem assertsHold_bind {m : StubM σ α} {f : α → StubM σ β} {mid : α → Stub σ → Prop}
    (hm : AssertsHold pre m) (hmid : Ensures pre m mid) (hf : ∀ a, AssertsHold (mid a) (f a)) :
    AssertsHold pre (m >>= f) := fun s hs => (hf _ _ (hmid s hs)).trans (hm s hs)

/-- What `m` does to the state does not matter for the assertions behind it. -/
theorem assertsHold_then {m : StubM σ α} {f : α → StubM σ β} (hm : AssertsHold pre m)
    (hf : ∀ a, AssertsHold anyState (f a)) : AssertsHold pre (m >>= f) :=
  assertsHold_bind hm (fun _ _ => trivial) hf

theorem assertsHold_ite {c : Prop} [Decidable c] {m n : StubM σ α} (hm : c → AssertsHold pre m)
    (hn : ¬ c → AssertsHold pre n) : AssertsHold pre (if c then m else n) := by
  split
  · exact hm ‹_›
  · exact hn ‹_›

theorem assertsHold_pure (a : α) : AssertsHold pre (pure a : StubM σ α) := fun _ _ => rfl

theorem assertsHold_assert {site : AssertSite} {c : Bool} (h : ∀ s, pre s → c = true) :
    AssertsHold pre (assert site c : StubM σ Unit) := by
  intro s hs
  rw [assert_run, h s hs]
  rfl

end Composition

/-! ## Replies -/

section Replies
variable {pre : Stub σ → Prop}

theorem asserts_text {str : List UInt8} (h : str.length ≤ maxResponseSize) :
    AssertsHold pre (sendGdbResponse (.text str) : StubM σ Unit) := by
  intro s _
  rw [sendGdbResponse, run_bind, assert_run, if_pos (decide_eq_true h)]
  rfl

theorem asserts_error (e : UInt8) : AssertsHold pre (sendGdbError e : StubM σ Unit) :=
  asserts_text (show 3 ≤ maxResponseSize by decide)

/-- A response that was built in place fits when its terminator does. -/
theorem asserts_mResponse {r : Nat} (hr : r ≤ maxResponseSize) :
    AssertsHold (fun s => s.mResponseFull.bytes (1 + r) = 0)
    (sendGdbResponse .mResponse : StubM σ Unit) := by
  intro s hs
  have hlen : (cString s.mResponseFull.bytes pcdMaximumAsciiStringLength 1).length ≤
      maxResponseSize := by
    rw [cString, slice_length]
    exact (strLen_le_of_zero hs).trans hr
  rw [failed_sendGdbResponse_mResponse, if_pos hlen]

/-- The end of a response that is built in place. -/
theorem asserts_response {r : Nat} (hr : r ≤ maxResponseSize) : AssertsHold pre (do
    writeResponse r 0
    sendGdbResponse .mResponse : StubM σ Unit) :=
  assertsHold_bind (assertsHold_keeps fun _ => rfl) (fun _ _ => Function.update_self ..) fun _ =>
    asserts_mResponse hr

end Replies

/-! ## Programs without assertions -/

section Unasserted

theorem failed_readRange (P : Platform σ) (a n : Nat) :
    Keeps Stub.failedAsserts (readRange P a n) :=
  keeps_ite (keeps_bind (keeps_modify fun _ => rfl) fun _ => keeps_pure _)
    (keeps_bind (keeps_modifyGet fun _ => rfl) fun _ =>
      keeps_bind (keeps_modify fun _ => rfl) fun _ => keeps_pure _)

theorem failed_encodeRange : ∀ n i r, Keeps Stub.failedAsserts (encodeRange n i r : StubM σ Nat)
  | 0, _, _ => keeps_pure _
  | n + 1, _, _ => keeps_bind (keeps_modifyGet fun _ => rfl) fun _ =>
      keeps_bind (keeps_modify fun _ => rfl) fun _ =>
        keeps_bind (keeps_modify fun _ => rfl) fun _ => failed_encodeRange n _ _

theorem failed_spellRegister :
    ∀ n r o, Keeps Stub.failedAsserts (spellRegister n r o : StubM σ Unit)
  | 0, _, _ => keeps_pure _
  | n + 1, _, _ => keeps_bind keeps_get fun _ => keeps_bind (keeps_modify fun _ => rfl) fun _ =>
      keeps_bind (keeps_modify fun _ => rfl) fun _ => failed_spellRegister n _ _

theorem failed_spellZeros : ∀ n o, Keeps Stub.failedAsserts (spellZeros n o : StubM σ Unit)
  | 0, _ => keeps_pure _
  | n + 1, _ => keeps_bind (keeps_modify fun _ => rfl) fun _ => failed_spellZeros n _

theorem failed_readRegisterFromContext (r : RegisterOffsetData) (o : Nat) :
    Keeps Stub.failedAsserts (readRegisterFromContext r o : StubM σ Nat) := by
  unfold readRegisterFromContext
  dsimp only
  split
  · exact keeps_bind (failed_spellRegister _ _ _) fun _ => keeps_pure _
  · exact keeps_bind (failed_spellZeros _ _) fun _ => keeps_pure _

theorem failed_readRegisters : ∀ rs o, Keeps Stub.failedAsserts (readRegisters rs o : StubM σ Nat)
  | [], _ => keeps_pure _
  | _ :: rs, _ => keeps_bind (failed_readRegisterFromContext _ _) fun _ => failed_readRegisters rs _

theorem failed_findDelimiter (c : Nat) :
    ∀ n i, Keeps Stub.failedAsserts (findDelimiter c n i : StubM σ Nat)
  | 0, _ => keeps_pure _
  | n + 1, _ => keeps_bind (keeps_modifyGet fun _ => rfl) fun _ =>
      keeps_ite (keeps_pure _) (failed_findDelimiter c n _)

theorem failed_printResponse : ∀ (cs : List UInt8) (End : Nat),
    Keeps Stub.failedAsserts (printResponse End cs : StubM σ Unit)
  | [], _ => keeps_pure _
  | _ :: cs, _ => keeps_bind (keeps_modify fun _ => rfl) fun _ => failed_printResponse cs _

theorem failed_asciiSPrintResponse (P : Platform σ) (End Remaining : Nat) (Format : String)
    (args : List PrintArg) :
    Keeps Stub.failedAsserts (asciiSPrintResponse P End Remaining Format args) :=
  keeps_ite (keeps_pure _) (keeps_bind (failed_printResponse _ _) fun _ => keeps_pure _)

theorem failed_printRegisters (P : Platform σ) : ∀ rs n End Remaining,
    Keeps Stub.failedAsserts (printRegisters P rs n End Remaining)
  | [], _, _, _ => keeps_pure _
  | r :: rs, n, End, Remaining => by
      rw [printRegisters]
      cases r.name with
      | none => exact failed_printRegisters P rs _ _ _
      | some Name => exact keeps_bind (failed_asciiSPrintResponse P _ _ _ _) fun _ =>
          failed_printRegisters P rs _ _ _

theorem failed_convertLoop (o l : Nat) :
    ∀ fuel i, Keeps Stub.failedAsserts (convertLoop o l fuel i : StubM σ Nat)
  | 0, _ => keeps_pure _
  | fuel + 1, _ => keeps_bind (keeps_modifyGet fun _ => rfl) fun _ =>
      keeps_ite (keeps_bind (keeps_modify fun _ => rfl) fun _ =>
        keeps_bind (keeps_modify fun _ => rfl) fun _ =>
        failed_convertLoop o l fuel _) (keeps_pure _)

theorem failed_printScratch (t : List UInt8) :
    Keeps Stub.failedAsserts (printScratch t : StubM σ Unit) :=
  fun _ => rfl

theorem failed_monitorSwitch (P : Platform σ) (c : List UInt8) :
    Keeps Stub.failedAsserts (monitorSwitch P c) :=
  keeps_bind keeps_get fun _ =>
    keeps_ite (failed_printScratch _) <|
    keeps_ite (keeps_bind (keeps_modifyGet fun _ => rfl) fun _ => failed_printScratch _) <|
    keeps_ite (failed_printScratch _) <| keeps_ite (failed_printScratch _) <|
    keeps_ite (keeps_bind (keeps_modifyGet fun _ => rfl) fun _ => failed_printScratch _) <|
    keeps_ite (failed_printScratch _) <|
    keeps_ite (keeps_bind (keeps_modify fun _ => rfl) fun _ => failed_printScratch _) <|
    keeps_ite (keeps_bind (keeps_modifyGet fun _ => rfl) fun _ =>
      keeps_ite (failed_printScratch _) (failed_printScratch _)) (failed_printScratch _)

end Unasserted

/-! ## Handlers whose assertions always hold -/

section Safe
variable {P : Platform σ}

theorem asserts_readGeneralRegisters (hfits : 2 * registerBytes P ≤ maxResponseSize) :
    AssertsHold anyState (readGeneralRegisters P) := by
  have hend : Ensures anyState (readRegisters P.gRegisterOffsets 0 : StubM σ Nat)
      fun r _ => r = 0 + 2 * registerBytes P := fun s _ =>
    (readRegisters_written P.gRegisterOffsets 0 s written_zero).2
  refine assertsHold_bind (assertsHold_keeps (failed_readRegisters _ _)) hend fun r => ?_
  rintro s rfl
  have hresponse : AssertsHold anyState (do
      writeResponse (0 + 2 * registerBytes P) 0
      sendGdbResponse .mResponse : StubM σ Unit) := asserts_response (by omega)
  exact hresponse s trivial

theorem asserts_readRegister (hfits : ∀ r ∈ P.gRegisterOffsets, r.size ≤ 10) (c : Nat) :
    AssertsHold anyState (readRegister P c) := by
  refine assertsHold_then (assertsHold_keeps fun _ => rfl) fun i => ?_
  cases hfound : P.gRegisterOffsets[i]? with
  | none => exact asserts_error _
  | some Register =>
    have hsize := hfits Register (List.mem_of_getElem? hfound)
    have hend : Ensures anyState (readRegisterFromContext Register 0 : StubM σ Nat)
        fun r _ => r = 0 + 2 * Register.size := fun s _ =>
      (readRegisterFromContext_written Register 0 s written_zero).2
    refine assertsHold_bind (assertsHold_keeps (failed_readRegisterFromContext _ _)) hend
      fun r => ?_
    have hroom : 20 ≤ maxResponseSize := by decide
    rintro s rfl
    have hresponse : AssertsHold anyState (do
        writeResponse (0 + 2 * Register.size) 0
        sendGdbResponse .mResponse : StubM σ Unit) := asserts_response (by omega)
    exact hresponse s trivial

theorem asserts_readTargetDescription : AssertsHold anyState (readTargetDescription P) := by
  have hprint : Ensures anyState (asciiSPrintResponse P 0 maxResponseSize
      "l<?xml version=\"1.0\"?><!DOCTYPE target SYSTEM \"gdb-target.dtd\"><target><architecture>%a</architecture><xi:include href=\"registers.xml\"/></target>"
      [.text P.gdbTargetInfo.targetArch]) fun w s =>
        Terminated (printedOnly P) (0 + w) s ∧ w < maxResponseSize := fun s _ =>
    asciiSPrintResponse_terminated .target (by decide) s written_zero
  refine assertsHold_bind (assertsHold_keeps (failed_asciiSPrintResponse P _ _ _ _)) hprint
    fun w => ?_
  rintro s ⟨hterminated, hfits⟩
  exact asserts_mResponse (by omega) s hterminated.2

theorem asserts_readTargetRegisters : AssertsHold anyState (readTargetRegisters P) := by
  refine assertsHold_bind (assertsHold_keeps (failed_asciiSPrintResponse P _ _ _ _)) printing_start
    fun w => ?_
  refine assertsHold_bind (assertsHold_keeps (failed_printRegisters P _ _ _ _))
    (printRegisters_printing _ _ _ _ fun _ h => h) fun r => ?_
  obtain ⟨End, Remaining⟩ := r
  refine assertsHold_bind (assertsHold_keeps (failed_asciiSPrintResponse P _ _ _ _))
    (asciiSPrintResponse_printing .close) fun w' => ?_
  refine assertsHold_ite (fun _ => asserts_error _) fun _ => ?_
  rintro s ⟨hterminated, hsize, -⟩
  exact asserts_mResponse (by omega) s hterminated.2

theorem asserts_finishMonitor : AssertsHold anyState (finishMonitor : StubM σ Unit) := by
  have hconsole : AssertsHold anyState (sendConsole : StubM σ Unit) := by
    have hconvert : Keeps Stub.failedAsserts
        (convertResponseToHex 1 (maxResponseSize - 1) : StubM σ Unit) :=
      keeps_bind (failed_convertLoop _ _ _ _) fun _ => keeps_modify fun _ => rfl
    refine assertsHold_bind (assertsHold_keeps fun _ => rfl) written_console fun _ => ?_
    refine assertsHold_bind (assertsHold_keeps hconvert) convertResponseToHex_terminated fun _ => ?_
    rintro s ⟨r, hr, hterminated⟩
    exact asserts_mResponse (by omega) s hterminated.2
  exact assertsHold_then hconsole fun _ => asserts_text (by decide)

end Safe

/-! ## Strings of the request -/

/-- The string `str` is at an index of the request, with its terminator. -/
structure StringAt (f : Nat → UInt8) (i : Nat) (str : List UInt8) : Prop where
  held : Holds f i (str ++ [0])
  nonzero : (0 : UInt8) ∉ str
  fits : str.length < pcdMaximumAsciiStringLength

section Strings
variable {f : Nat → UInt8} {i : Nat} {str : List UInt8}

theorem StringAt.strLen_eq (h : StringAt f i str) :
    strLen f pcdMaximumAsciiStringLength i = str.length :=
  strLen_of_string h.held h.nonzero h.fits

theorem StringAt.front (h : StringAt f i str) (n : Nat) : Holds f i (str.take n) := by
  have hall := (holds_append.mp h.held).1
  rw [← List.take_append_drop n str] at hall
  exact (holds_append.mp hall).1

theorem StringAt.drop (h : StringAt f i str) {n : Nat} (hn : n ≤ str.length) :
    StringAt f (i + n) (str.drop n) := by
  refine ⟨?_, fun hmem => h.nonzero (List.mem_of_mem_drop hmem), ?_⟩
  · have hall := h.held
    rw [← List.take_append_drop n str, List.append_assoc] at hall
    have hbehind := (holds_append.mp hall).2
    rwa [List.length_take, Nat.min_eq_left hn] at hbehind
  · have := h.fits
    rw [List.length_drop]
    omega

theorem bytes_of_still {α : Type} {m : StubM σ α} (h : Keeps Stub.still m) :
    Keeps (fun s : Stub σ => s.mRequest.bytes) m := h.map fun r => r.2.1

/-- What is terminated somewhere begins with a string. -/
theorem stringAt_of_holds {z : List UInt8} (h : Holds f i (z ++ [0]))
    (hfits : z.length < pcdMaximumAsciiStringLength) :
    StringAt f i (z.takeWhile (· ≠ 0)) := by
  refine ⟨?_, fun hmem => ?_, Nat.lt_of_le_of_lt (List.takeWhile_sublist _).length_le hfits⟩
  · have hsplit := List.takeWhile_append_dropWhile (p := (· ≠ 0)) (l := z)
    cases hrest : z.dropWhile (· ≠ 0) with
    | nil =>
      rw [hrest, List.append_nil] at hsplit
      rwa [hsplit]
    | cons b bs =>
      have hzero : b = 0 := by
        have hhead := List.head?_dropWhile_not (· ≠ 0) z
        rw [hrest] at hhead
        simpa using hhead
      rw [← hsplit, hrest, hzero, List.append_assoc, List.cons_append, List.append_cons] at h
      exact (holds_append.mp h).1
  · have hne := List.mem_takeWhile_imp hmem
    exact absurd rfl (of_decide_eq_true hne)

/-- A piece of the text of a command is a string. -/
theorem Parsing.string {c k : Nat} {z : List UInt8} {s₀ s : Stub σ} (h : Parsing c z s₀ s)
    (hk : k ≤ z.length) : StringAt s.mRequest.bytes (c + k) (textAt z k) :=
  stringAt_of_holds (h.suffix hk) (Nat.lt_of_le_of_lt (List.drop_sublist k z).length_le h.fits)

end Strings

/-! ## Handlers that decode digits -/

section Digits
variable {P : Platform σ}

theorem asserts_hexToByte {i : Nat} {c d : UInt8} (hc : isDigit c = true) (hd : isDigit d = true) :
    AssertsHold (fun s => Holds s.mRequest.bytes i [c, d]) (hexToByte i : StubM σ UInt8) := by
  intro s hs
  rw [hexToByte_run hs hc hd]

/-- The digits behind a pair are still there when the pair was decoded. -/
theorem ensures_hexToByte {i : Nat} {c d : UInt8} {ds : List UInt8} :
    Ensures (fun s => Holds s.mRequest.bytes i (c :: d :: ds)) (hexToByte i : StubM σ UInt8)
      fun _ s => Holds s.mRequest.bytes (i + 2) ds := by
  intro s hs
  have hsame : ((hexToByte i : StubM σ UInt8).run s).2.mRequest.bytes = s.mRequest.bytes :=
    bytes_of_still (keeps_hexToByte i) s
  rw [hsame]
  exact hs.2.2

/-- A loop that decodes a digit pair a round. -/
theorem asserts_pairs {α : Type} {loop : Nat → Nat → StubM σ α} {next : UInt8 → α → StubM σ α}
    (hzero : ∀ i, AssertsHold anyState (loop 0 i))
    (hloop : ∀ n i, loop (n + 1) i = (do
      let Byte ← hexToByte i
      let r ← loop n (i + 2)
      next Byte r))
    (hnext : ∀ b r, AssertsHold anyState (next b r)) :
    ∀ n i ds, ds.length = 2 * n → (∀ c ∈ ds, isDigit c = true) →
      AssertsHold (fun s => Holds s.mRequest.bytes i ds) (loop n i) := by
  intro n
  induction n with
  | zero => exact fun i ds _ _ => (hzero i).mono fun _ _ => trivial
  | succ n ih =>
    intro i ds hlen hdigits
    obtain ⟨c, d, ds, rfl, hrest⟩ := exists_pair hlen
    rw [hloop]
    have hpair : AssertsHold (fun s => Holds s.mRequest.bytes i (c :: d :: ds))
        (hexToByte i : StubM σ UInt8) :=
      (asserts_hexToByte (hdigits c (by simp)) (hdigits d (by simp))).mono fun s hs =>
      ⟨hs.1, hs.2.1, trivial⟩
    refine assertsHold_bind hpair ensures_hexToByte fun b => ?_
    exact assertsHold_then (ih (i + 2) ds hrest fun x hx => hdigits x (by simp [hx]))
      fun r => hnext b r

theorem asserts_decodeRegister {n i : Nat} {ds : List UInt8} (hlen : ds.length = 2 * n)
    (hdigits : ∀ c ∈ ds, isDigit c = true) :
    AssertsHold (fun s => Holds s.mRequest.bytes i ds)
    (decodeRegister n i : StubM σ (List UInt8)) :=
  asserts_pairs (fun _ => assertsHold_pure _) (fun _ _ => rfl) (fun _ _ => assertsHold_pure _) n i
  ds hlen hdigits

theorem asserts_decodeMonitorCommand {n i : Nat} {ds : List UInt8} (hlen : ds.length = 2 * n)
    (hdigits : ∀ c ∈ ds, isDigit c = true) :
    AssertsHold (fun s => Holds s.mRequest.bytes i ds)
    (decodeMonitorCommand n i : StubM σ (List UInt8)) :=
  asserts_pairs (fun _ => assertsHold_pure _) (fun _ _ => rfl) (fun _ _ => assertsHold_pure _) n i
  ds hlen hdigits

end Digits

/-! ## Register writes -/

/-- What is decoded of `str` for a register are digits. -/
def RegisterDecodes (Register : RegisterOffsetData) (str : List UInt8) : Prop :=
  2 * Register.size ≤ str.length → Register.offset ≠ regNotPresent →
    ∀ c ∈ str.take (2 * Register.size), isDigit c = true

/-- What is left of `str` for the registers behind it. -/
def behindRegister (Register : RegisterOffsetData) (str : List UInt8) : List UInt8 :=
  if Register.offset ≠ regNotPresent then str.drop (2 * Register.size) else str

/-- What is decoded of `str` for registers, up to the first it is too short for, are digits. -/
def RegistersDecode : List RegisterOffsetData → List UInt8 → Prop
  | [], _ => True
  | Register :: rest, str => RegisterDecodes Register str ∧
      (2 * Register.size ≤ str.length → RegistersDecode rest (behindRegister Register str))

section Registers
variable {P : Platform σ} {Register : RegisterOffsetData} {str : List UInt8}

theorem asserts_writeRegisterToContext (hsize : Register.size ≤ 10)
    (hdecodes : RegisterDecodes Register str) (i : Nat) :
    AssertsHold (fun s => StringAt s.mRequest.bytes i str)
    (writeRegisterToContext Register i : StubM σ (Option Nat)) := by
  have hassert : Keeps (fun s : Stub σ => s.mRequest.bytes)
      (assert .registerSize (decide (Register.size ≤ 10)) : StubM σ Unit) :=
      bytes_of_still (keeps_assert _ _)
  refine assertsHold_bind (assertsHold_assert fun _ _ => decide_eq_true hsize)
    (hassert.ensures fun f => StringAt f i str) fun _ => ?_
  have hlen : Ensures (fun s : Stub σ => StringAt s.mRequest.bytes i str)
      (asciiStrLen i : StubM σ Nat)
      fun n s => n = str.length ∧ StringAt s.mRequest.bytes i str := fun s hs => ⟨hs.strLen_eq, hs⟩
  refine assertsHold_bind (assertsHold_keeps fun _ => rfl) hlen fun n => ?_
  refine assertsHold_ite (fun _ => assertsHold_pure _) fun hlong => ?_
  refine assertsHold_ite (fun hpresent => ?_) fun _ => assertsHold_pure _
  rintro s ⟨rfl, hs⟩
  have hfits : 2 * Register.size ≤ str.length := by omega
  have htake : (str.take (2 * Register.size)).length = 2 * Register.size := by
    rw [List.length_take]
    omega
  have hdecode : AssertsHold (fun s => Holds s.mRequest.bytes i (str.take (2 * Register.size)))
      (do
        let Value ← decodeRegister Register.size i
        modify fun s : Stub σ => s.setContext (store s.context Register.offset Value)
        pure (some (i + 2 * Register.size))) :=
    assertsHold_then (asserts_decodeRegister htake (hdecodes hfits hpresent)) fun _ =>
      assertsHold_then (assertsHold_keeps (keeps_modify fun _ => rfl)) fun _ => assertsHold_pure _
  exact hdecode s (hs.front _)

/-- What is left of the string is at the end of what was consumed. -/
theorem ensures_writeRegisterToContext (Register : RegisterOffsetData) (str : List UInt8)
    (i : Nat) :
    Ensures (fun s => StringAt s.mRequest.bytes i str)
    (writeRegisterToContext Register i : StubM σ (Option Nat))
      fun next s => ∀ j, next = some j → 2 * Register.size ≤ str.length ∧
        StringAt s.mRequest.bytes j (behindRegister Register str) := by
  have hassert : Keeps (fun s : Stub σ => s.mRequest.bytes)
      (assert .registerSize (decide (Register.size ≤ 10)) : StubM σ Unit) :=
      bytes_of_still (keeps_assert _ _)
  refine ensures_bind (hassert.ensures fun f => StringAt f i str) fun _ => ?_
  have hlen : Ensures (fun s : Stub σ => StringAt s.mRequest.bytes i str)
      (asciiStrLen i : StubM σ Nat)
      fun n s => n = str.length ∧ StringAt s.mRequest.bytes i str := fun s hs => ⟨hs.strLen_eq, hs⟩
  refine ensures_bind hlen fun n => ?_
  refine ensures_ite (fun _ => ensures_pure fun _ _ j hj => nomatch hj) fun hlong => ?_
  refine ensures_ite (fun hpresent => ?_) fun habsent => ensures_pure ?_
  · have hkeeps : Keeps (fun s : Stub σ => s.mRequest.bytes)
        (decodeRegister Register.size i : StubM σ _) :=
      bytes_of_still (keeps_decodeRegister _ _)
    refine ensures_bind (hkeeps.ensures fun f => n = str.length ∧ StringAt f i str) fun Value => ?_
    rintro s ⟨rfl, hs⟩ j hj
    have hfits : 2 * Register.size ≤ str.length := by omega
    obtain rfl := Option.some.inj hj
    refine ⟨hfits, ?_⟩
    rw [behindRegister, if_pos hpresent]
    exact hs.drop hfits
  · rintro s ⟨rfl, hs⟩ j hj
    obtain rfl := Option.some.inj hj
    refine ⟨by omega, ?_⟩
    rw [behindRegister, if_neg habsent]
    exact hs

theorem asserts_writeRegisters : ∀ (rs : List RegisterOffsetData) (str : List UInt8) (i : Nat),
    (∀ r ∈ rs, r.size ≤ 10) → RegistersDecode rs str →
      AssertsHold (fun s => StringAt s.mRequest.bytes i str) (writeRegisters rs i : StubM σ Bool)
  | [], _, _, _, _ => assertsHold_pure _
  | r :: rs, str, i, hsizes, hdecode => by
      obtain ⟨hfirst, hrest⟩ := hdecode
      refine assertsHold_bind
        (asserts_writeRegisterToContext (hsizes r List.mem_cons_self) hfirst i)
        (ensures_writeRegisterToContext r str i) fun next => ?_
      cases next with
      | none => exact assertsHold_pure _
      | some j =>
        intro s hs
        obtain ⟨hfits, hstring⟩ := hs j rfl
        exact asserts_writeRegisters rs _ j (fun r' hr' => hsizes r' (List.mem_cons_of_mem r hr'))
          (hrest hfits) s hstring

theorem asserts_writeGeneralRegisters (hsizes : ∀ r ∈ P.gRegisterOffsets, r.size ≤ 10)
    (hdecode : RegistersDecode P.gRegisterOffsets str) (i : Nat) :
    AssertsHold (fun s => StringAt s.mRequest.bytes i str) (writeGeneralRegisters P i) :=
  assertsHold_then (asserts_writeRegisters _ str i hsizes hdecode) fun _ =>
    assertsHold_ite (fun _ => asserts_text (by decide)) fun _ => asserts_error _

end Registers

/-! ## Memory commands -/

/-- What an `M` command decodes of `ds` are digits, up to the first chunk whose write fails. -/
def DecodesDigits (P : Platform σ) : (fuel Address Length : Nat) → List UInt8 → σ → Prop
  | 0, _, _, _, _ => True
  | fuel + 1, Address, Length, ds, t =>
      let RangeLength := min Length scratchSize
      let chunk := ds.take (2 * RangeLength)
      let write := P.dbgWriteMemory Address (readBytes chunk) t
      Length = 0 ∨ (2 * RangeLength ≤ ds.length ∧ (∀ c ∈ chunk, isDigit c = true) ∧
        (write.1 = true →
          DecodesDigits P fuel ((Address + RangeLength) % 2 ^ 64) (Length - RangeLength)
          (ds.drop (2 * RangeLength)) write.2))

/-- The machine behind the read of a chunk, when that succeeds. -/
def readTarget (P : Platform σ) (Address RangeLength : Nat) (t : σ) : Option σ :=
  if windbgWorkaround P Address RangeLength = true then some t
  else
    let r := P.dbgReadMemory Address RangeLength t
    if r.1 = true then some r.2.2 else none

/-- The digits of an `m` command fit into a response if all its reads succeed. -/
def ReadsFit (P : Platform σ) : (fuel Address Length RespIndex : Nat) → σ → Prop
  | 0, _, _, RespIndex, _ => RespIndex ≤ maxResponseSize
  | fuel + 1, Address, Length, RespIndex, t =>
      let RangeLength := min Length scratchSize
      if Length = 0 then RespIndex ≤ maxResponseSize
      else ∀ t', readTarget P Address RangeLength t = some t' →
        ReadsFit P fuel ((Address + RangeLength) % 2 ^ 64) (Length - RangeLength)
        (RespIndex + 2 * Length) t'

section Memory
variable {P : Platform σ}

theorem asserts_memoryWriteLoop : ∀ (fuel a l v : Nat) (ds : List UInt8),
    AssertsHold (fun s => Holds s.mRequest.bytes v ds ∧ DecodesDigits P fuel a l ds s.target)
      (memoryWriteLoop P fuel a l v)
  | 0, _, _, _, _ => assertsHold_pure _
  | fuel + 1, a, l, v, ds => by
      rintro s ⟨hheld, hdecodes⟩
      by_cases hzero : l = 0
      · rw [memoryWriteLoop, if_pos hzero]
        rfl
      obtain ⟨hfits, hdigits, hrest⟩ := hdecodes.resolve_left hzero
      set n := min l scratchSize with hn
      have hlen : (ds.take (2 * n)).length = 2 * n := by
        rw [List.length_take]
        omega
      rw [← List.take_append_drop (2 * n) ds, holds_append, hlen] at hheld
      obtain ⟨s', hrun, htarget, -, hbytes, hfailed, -, -⟩ :=
        memoryWriteLoop_round P fuel a v n (Nat.pos_of_ne_zero hzero) hn hlen hdigits hheld.1
      rw [hrun, ← hfailed]
      by_cases hok : (P.dbgWriteMemory a (readBytes (ds.take (2 * n))) s.target).1 = true
      · rw [if_pos hok]
        refine asserts_memoryWriteLoop fuel _ _ _ (ds.drop (2 * n)) s' ⟨?_, ?_⟩
        · rw [hbytes]
          exact hheld.2
        · rw [htarget]
          exact hrest hok
      · rw [if_neg hok]
        have herror : AssertsHold anyState (do
            sendGdbError gdbErrorBadMemAddress
            pure false : StubM σ Bool) :=
              assertsHold_then (asserts_error _) fun _ => assertsHold_pure _
        exact herror s' trivial

theorem asserts_memoryWriteTransfer (a l v : Nat) (ds : List UInt8) :
    AssertsHold (fun s => Holds s.mRequest.bytes v ds ∧ DecodesDigits P l a l ds s.target)
      (memoryWriteTransfer P a l v) :=
  assertsHold_then (asserts_memoryWriteLoop l a l v ds) fun _ =>
    assertsHold_ite (fun _ => asserts_text (by decide)) fun _ => assertsHold_pure _

/-- The machine behind a read that succeeded. -/
theorem readRange_target (a n : Nat) (s : Stub σ) (hok : ((readRange P a n).run s).1 = true) :
    readTarget P a n s.target = some ((readRange P a n).run s).2.target := by
  rw [readRange, run_ite] at hok ⊢
  rw [readTarget]
  by_cases hworkaround : windbgWorkaround P a n = true
  · rw [if_pos hworkaround, if_pos hworkaround]
    rfl
  · rw [if_neg hworkaround] at hok ⊢
    rw [if_neg hworkaround]
    have hread : (P.dbgReadMemory a n s.target).1 = true := hok
    rw [if_pos hread]
    rfl

theorem encodeRange_end (n i r : Nat) (s : Stub σ) : ((encodeRange n i r).run s).1 = r + 2 * n := by
  have hwritten : Written (hexIf False) r s := fun _ _ => False.elim
  exact (encodeRange_written n i r s hwritten).2

/-- The digits of an `m` command that fit are put into the response without an assertion. -/
theorem memoryReadLoop_fits : ∀ (fuel a l r : Nat) (s : Stub σ), ReadsFit P fuel a l r s.target →
    ((memoryReadLoop P fuel a l r).run s).2.failedAsserts = s.failedAsserts ∧
    ∀ r', ((memoryReadLoop P fuel a l r).run s).1 = some r' → r' ≤ maxResponseSize
  | 0, _, _, _, _, hfit => ⟨rfl, fun _ h => Option.some.inj h ▸ hfit⟩
  | fuel + 1, a, l, r, s, hfit => by
      rw [ReadsFit] at hfit
      rw [memoryReadLoop]
      by_cases hzero : l = 0
      · rw [if_pos hzero] at hfit ⊢
        exact ⟨rfl, fun _ h => Option.some.inj h ▸ hfit⟩
      rw [if_neg hzero] at hfit ⊢
      rw [run_bind]
      have hread := failed_readRange P a (min l scratchSize) s
      have htarget := readRange_target (P := P) a (min l scratchSize) s
      generalize (readRange P a (min l scratchSize)).run s = read at hread htarget ⊢
      obtain ⟨ok, t⟩ := read
      have hread' : t.failedAsserts = s.failedAsserts := hread
      by_cases hok : ok = true
      · have hencoded := failed_encodeRange l 0 r t
        have hsame := keeps_encodeRange (π := Stub.target) l 0 r t
        have hend := encodeRange_end l 0 r t
        rw [if_pos hok, run_bind]
        generalize (encodeRange l 0 r).run t = encoded at hencoded hsame hend ⊢
        obtain ⟨r', u⟩ := encoded
        obtain rfl : r' = r + 2 * l := hend
        have hnext := hfit t.target (htarget hok)
        rw [← hsame] at hnext
        obtain ⟨hloop, hbound⟩ := memoryReadLoop_fits fuel _ _ _ u hnext
        exact ⟨hloop.trans (hencoded.trans hread'), hbound⟩
      · rw [if_neg hok]
        have herror : AssertsHold anyState (do
            sendGdbError gdbErrorBadMemAddress
            pure none : StubM σ (Option Nat)) :=
              assertsHold_then (asserts_error _) fun _ => assertsHold_pure _
        exact ⟨(herror t trivial).trans hread', fun _ h => nomatch h⟩

/-- The end of an `m` command. -/
theorem asserts_readDone (done : Option Nat) :
    AssertsHold (fun _ => ∀ r, done = some r → r ≤ maxResponseSize)
      (match done with
        | some RespIndex => do
            writeResponse RespIndex 0
            sendGdbResponse .mResponse
        | none => pure () : StubM σ Unit) := by
  cases done with
  | none => exact assertsHold_pure _
  | some r =>
    intro s hs
    have hresponse : AssertsHold anyState (do
        writeResponse r 0
        sendGdbResponse .mResponse : StubM σ Unit) := asserts_response (hs r rfl)
    exact hresponse s trivial

theorem asserts_memoryReadTransfer (a l : Nat) :
    AssertsHold (fun s => ReadsFit P l a l 0 s.target) (memoryReadTransfer P a l) :=
  assertsHold_bind (fun s hs => (memoryReadLoop_fits l a l 0 s hs).1)
    (fun s hs => (memoryReadLoop_fits l a l 0 s hs).2) fun done => asserts_readDone done

end Memory

/-! ## Monitor commands and breakpoints -/

/-- What a monitor command decodes of `str` are digits. -/
def MonitorDecodes (str : List UInt8) : Prop :=
  str.length % 2 = 0 → str.length / 2 < monitorCommandSize → ∀ c ∈ str, isDigit c = true

section Monitor
variable {P : Platform σ}

theorem asserts_processMonitorCmd {str : List UInt8} (hdecodes : MonitorDecodes str) (i : Nat) :
    AssertsHold (fun s => StringAt s.mRequest.bytes i str) (processMonitorCmd P i) := by
  rw [processMonitorCmd_eq]
  have hlen : Ensures (fun s : Stub σ => StringAt s.mRequest.bytes i str)
      (asciiStrLen i : StubM σ Nat)
      fun n s => n = str.length ∧ StringAt s.mRequest.bytes i str := fun s hs => ⟨hs.strLen_eq, hs⟩
  refine assertsHold_bind (assertsHold_keeps fun _ => rfl) hlen fun n => ?_
  refine assertsHold_ite (fun _ => asserts_error _) fun haccepted => ?_
  obtain ⟨heven, hshort⟩ := not_or.mp haccepted
  rintro s ⟨rfl, hs⟩
  have hlength : str.length = 2 * (str.length / 2) := by omega
  have hmonitor : AssertsHold (fun s => Holds s.mRequest.bytes i str)
      (acceptedMonitor P (str.length / 2) i) := by
    refine assertsHold_then (asserts_decodeMonitorCommand hlength
      (hdecodes (not_not.mp heven) (Nat.not_le.mp hshort))) fun Command => ?_
    refine assertsHold_then (assertsHold_keeps (keeps_modify fun _ => rfl)) fun _ => ?_
    exact assertsHold_then (assertsHold_keeps (failed_monitorSwitch P _)) fun _ =>
      asserts_finishMonitor
  exact hmonitor s (holds_append.mp hs.held).1

/-- There is room for a breakpoint at `Address`, or there is one. -/
def RoomFor (t : BreakpointTable) (Address : Nat) : Prop :=
  addScan t Address (List.finRange maxBreakpoints) none ≠ .free none

theorem asserts_addSoftwareBreakpoint (Address : Nat) :
    AssertsHold (fun s => RoomFor s.mBreakpoints Address) (addSoftwareBreakpoint P Address) := by
  have hsize : AssertsHold (fun s : Stub σ => RoomFor s.mBreakpoints Address)
      (assert .breakpointSize (decide (P.mArchBreakpointInstructionSize ≤ maxBreakpointSize))) :=
    assertsHold_assert fun _ _ => decide_eq_true P.instruction_size
  have hkeeps : Ensures (fun s : Stub σ => RoomFor s.mBreakpoints Address)
      (assert .breakpointSize (decide (P.mArchBreakpointInstructionSize ≤ maxBreakpointSize)))
      fun _ s => RoomFor s.mBreakpoints Address := by
    intro s hs
    rw [assert_run]
    exact hs
  refine assertsHold_bind hsize hkeeps fun _ => ?_
  intro s hs
  rw [run_bind, run_get]
  dsimp only
  cases hscan : addScan s.mBreakpoints Address (List.finRange maxBreakpoints) none with
  | duplicate => rfl
  | free Entry =>
    cases Entry with
    | none => exact absurd hscan hs
    | some Entry => rfl

theorem failed_removeSoftwareBreakpoint (Address : Nat) :
    Keeps Stub.failedAsserts (removeSoftwareBreakpoint P Address) := by
  refine keeps_bind keeps_get fun s => ?_
  dsimp only
  split
  · exact keeps_bind (keeps_modifyGet fun _ => rfl) fun _ =>
      keeps_bind (keeps_modify fun _ => rfl) fun _ =>
      keeps_pure _
  · exact keeps_pure _

theorem asserts_sendBreakpointResult (Result : Bool) :
    AssertsHold anyState (sendBreakpointResult Result : StubM σ Unit) :=
  assertsHold_ite (fun _ => asserts_text (by decide)) fun _ => asserts_error _

end Monitor

end UefiDebugger
