import UefiDebugger.CommandFrames

/-!
# Commands write inside the request

Four handlers terminate strings of the request in place.  `InRequest T` says that the packet's
terminator at offset `T` is there and that nothing was written outside `mRequest`; a command whose
text lies before `T` keeps it, because every scan it makes stops at the terminator and every byte it
writes is a NUL.
-/
namespace UefiDebugger
open HexText ByteString StateEffect

variable {σ : Type} {T : Nat}

/-- The terminator is in place and `mRequest` was not overrun by more than `top`. -/
def InRequest (T top : Nat) (s : Stub σ) : Prop :=
  s.mRequest.bytes T = 0 ∧ s.mRequest.writeTop ≤ max top maxRequestSize

section Bounds
variable {top : Nat} (hT : T < maxRequestSize)

theorem inRequest_of_still {α : Type} {m : StubM σ α} (h : Keeps Stub.still m) :
    Ensures (InRequest T top) m fun _ => InRequest T top :=
  (h.map Prod.snd).ensures fun r => r.1 T = 0 ∧ r.2 ≤ max top maxRequestSize

include hT in
theorem inRequest_writeRequest {i : Nat} (hi : i ≤ T) :
    Ensures (InRequest T top) (writeRequest i 0 : StubM σ Unit) fun _ => InRequest T top := by
  rintro s ⟨h0, hw⟩
  refine ⟨?_, ?_⟩
  · show Function.update s.mRequest.bytes i 0 T = 0
    by_cases h : T = i
    · rw [h, Function.update_self]
    · rw [Function.update_of_ne h, h0]
  · show max s.mRequest.writeTop (i + 1) ≤ _
    omega

theorem inRequest_scanMem8 (i n : Nat) (v : UInt8) :
    Ensures (InRequest T top) (scanMem8 i n v : StubM σ (Option Nat))
      fun r s => InRequest T top s ∧ ∀ j, r = some j → j < i + n := by
  intro s hs
  refine ⟨inRequest_of_still (keeps_scanMem8 i n v) s hs, ?_⟩
  intro j hj
  simp only [scanMem8, run_modifyGet] at hj
  split at hj
  · rename_i k hk
    cases hj
    exact (findByte_some hk).2.1
  · cases hj

/-- A string that starts before the terminator ends before it. -/
theorem strLen_le {f : Nat → UInt8} (h0 : f T = 0) :
    ∀ limit i, i ≤ T → i + strLen f limit i ≤ T
  | 0, i, hi => hi
  | limit + 1, i, hi => by
      rw [strLen]
      split
      · exact hi
      · rename_i hne
        have hlt : i < T := Nat.lt_of_le_of_ne hi fun h => hne (h ▸ h0)
        have := strLen_le h0 limit (i + 1) hlt
        omega

theorem inRequest_asciiStrLen {i : Nat} (hi : i ≤ T) :
    Ensures (InRequest T top) (asciiStrLen i : StubM σ Nat)
      fun n s => InRequest T top s ∧ i + n ≤ T := fun s hs =>
  ⟨inRequest_of_still (keeps_asciiStrLen i) s hs, strLen_le hs.1 _ i hi⟩

include hT in
theorem inRequest_processMemoryCommand (P : Platform σ) (w : Bool) {c n : Nat} (hc : c + n ≤ T) :
    Ensures (InRequest T top) (processMemoryCommand P w c n) fun _ => InRequest T top := by
  refine ensures_bind (inRequest_scanMem8 _ _ _) fun comma => ?_
  cases comma with
  | none => exact fun s hs => inRequest_of_still (keeps_sendGdbError _) s hs.1
  | some comma =>
    refine ensures_fact fun hcomma => ?_
    have hlt := hcomma comma rfl
    refine ensures_bind (inRequest_writeRequest hT (by omega)) fun _ =>
      ensures_ite (fun _ => ?_) fun _ => ?_
    · refine ensures_bind (inRequest_scanMem8 _ _ _) fun colon => ?_
      cases colon with
      | none => exact fun s hs => inRequest_of_still (keeps_sendGdbError _) s hs.1
      | some colon =>
        refine ensures_fact fun hcolon => ?_
        have hlt := hcolon colon rfl
        refine ensures_bind (inRequest_writeRequest hT (by omega)) fun _ => ?_
        refine ensures_bind (inRequest_of_still (keeps_memoryNumbers _ _ _)) fun numbers => ?_
        cases numbers with
        | none => exact inRequest_of_still (keeps_sendGdbError _)
        | some _ =>
          exact inRequest_of_still <| keeps_bind (keeps_asciiStrLen _) fun _ =>
            keeps_ite (keeps_bind (keeps_assert _ _) fun _ => keeps_sendGdbError _)
              (keeps_memoryWriteTransfer _ _ _ _)
    · refine inRequest_of_still <| keeps_bind (keeps_memoryNumbers _ _ _) fun numbers => ?_
      cases numbers with
      | none => exact keeps_sendGdbError _
      | some _ => exact keeps_memoryReadTransfer _ _ _

include hT in
theorem inRequest_processBreakpoint (P : Platform σ) (r : Bool) {c : Nat} (hc : c ≤ T) :
    Ensures (InRequest T top) (processBreakpoint P r c) fun _ => InRequest T top := by
  refine ensures_bind (inRequest_asciiStrLen hc) fun n => ?_
  refine ensures_fact fun hn => ?_
  refine ensures_bind (inRequest_scanMem8 _ _ _) fun comma => ?_
  cases comma with
  | none => exact fun s hs => inRequest_of_still (keeps_sendGdbError _) s hs.1
  | some comma =>
    refine ensures_fact fun hcomma => ?_
    have hlt := hcomma comma rfl
    refine ensures_bind (inRequest_writeRequest hT (by omega)) fun _ => ?_
    refine ensures_bind (inRequest_asciiStrLen (by omega)) fun n' => ?_
    refine ensures_fact fun hn' => ?_
    refine ensures_bind (inRequest_scanMem8 _ _ _) fun comma' => ?_
    cases comma' with
    | none => exact fun s hs => inRequest_of_still (keeps_sendGdbError _) s hs.1
    | some comma' =>
      refine ensures_fact fun hcomma' => ?_
      have hlt' := hcomma' comma' rfl
      exact ensures_bind (inRequest_writeRequest hT (by omega))
        fun _ => inRequest_of_still (keeps_breakpointRequest _ _ _ _ _)

/-- Register writes keep the request, whatever they do to the context. -/
theorem request_writeRegisterToContext (r : RegisterOffsetData) (i : Nat) :
    Keeps Stub.request (writeRegisterToContext r i : StubM σ (Option Nat)) :=
  keeps_bind (keeps_assert _ _) fun _ =>
    keeps_bind (keeps_asciiStrLen _) fun _ =>
      keeps_ite (keeps_pure _) <| keeps_ite
        (keeps_bind (keeps_decodeRegister _ _) fun _ =>
          keeps_bind (keeps_modify fun _ => rfl) fun _ => keeps_pure _)
        (keeps_pure _)

theorem request_writeGeneralRegisters (P : Platform σ) (d : Nat) :
    Keeps Stub.request (writeGeneralRegisters P d) := by
  have loop : ∀ rs p, Keeps Stub.request (writeRegisters rs p : StubM σ Bool) := by
    intro rs
    induction rs with
    | nil => exact fun _ => keeps_pure _
    | cons r rs ih =>
      refine fun p => keeps_bind (request_writeRegisterToContext _ _) fun next => ?_
      cases next with
      | none => exact keeps_pure _
      | some _ => exact ih _
  exact keeps_bind (loop _ _) fun _ =>
    keeps_ite (keeps_sendGdbResponse _) (keeps_sendGdbError _)

theorem inRequest_of_request {α : Type} {m : StubM σ α} (h : Keeps Stub.request m) :
    Ensures (InRequest T top) m fun _ => InRequest T top :=
  h.ensures fun r => r.1 T = 0 ∧ r.2 ≤ max top maxRequestSize

include hT in
theorem inRequest_writeRegister (P : Platform σ) {c : Nat} (hc : c ≤ T) :
    Ensures (InRequest T top) (writeRegister P c) fun _ => InRequest T top := by
  refine ensures_bind (inRequest_asciiStrLen hc) fun n => ?_
  refine ensures_fact fun hn => ?_
  refine ensures_bind (inRequest_scanMem8 _ _ _) fun value => ?_
  cases value with
  | none => exact fun s hs => inRequest_of_still (keeps_sendGdbError _) s hs.1
  | some value =>
    refine ensures_fact fun hvalue => ?_
    have hlt := hvalue value rfl
    refine ensures_bind (inRequest_writeRequest hT (by omega)) fun _ => ?_
    refine ensures_bind (inRequest_of_still (keeps_asciiStrHexToUintn _ _)) fun index => ?_
    split
    · exact inRequest_of_still (keeps_sendGdbError _)
    · refine ensures_bind (inRequest_of_request (request_writeRegisterToContext _ _)) fun ptr => ?_
      cases ptr with
      | none => exact inRequest_of_still (keeps_sendGdbError _)
      | some _ => exact inRequest_of_still (keeps_sendGdbResponse _)

theorem inRequest_findDelimiter (c : Nat) :
    ∀ n i, Ensures (InRequest T top) (findDelimiter c n i : StubM σ Nat)
      fun d s => InRequest T top s ∧ d ≤ i + n
  | 0, i => fun s hs => ⟨hs, Nat.le_refl i⟩
  | n + 1, i => by
      refine ensures_bind (inRequest_of_still (keeps_readRequest _)) fun b => ensures_ite
        (fun _ s hs => ⟨hs, Nat.le_add_right i _⟩) fun _ s hs => ?_
      obtain ⟨h1, h2⟩ := inRequest_findDelimiter c n (i + 1) s hs
      exact ⟨h1, by omega⟩

include hT in
theorem inRequest_processVCommand (P : Platform σ) {c n : Nat} (hc : c + n ≤ T) :
    Ensures (InRequest T top) (processVCommand P c n) fun _ => InRequest T top := by
  refine ensures_bind (inRequest_findDelimiter c n 0) fun d => ?_
  refine ensures_fact fun hd => ?_
  refine ensures_bind (inRequest_of_still (keeps_readRequest _)) fun delimiter => ?_
  refine ensures_bind (inRequest_of_still (keeps_assert _ _)) fun _ => ?_
  refine ensures_bind (inRequest_writeRequest hT (by omega)) fun _ => ?_
  refine inRequest_of_request ?_
  have running : Keeps Stub.request (setRunning : StubM σ Unit) := fun _ => rfl
  have reply : ∀ r, Keeps Stub.request (sendGdbResponse r : StubM σ Unit) := keeps_sendGdbResponse
  exact keeps_bind (keeps_asciiStrnCmpEq _ _ _) fun _ =>
    keeps_ite
      (keeps_ite
        (keeps_bind (keeps_readRequest _) fun _ =>
          keeps_ite running <| keeps_ite
            (keeps_bind (keeps_modify fun _ => rfl) fun _ => running) (reply _))
        (keeps_ite (reply _) (reply _)))
      (reply _)

include hT in
theorem inRequest_dispatchGdbCommand (P : Platform σ) (b : UInt8) {c n : Nat} (hc : c + n = T)
    (hlt : c + 1 ≤ T) :
    Ensures (InRequest T top) (dispatchGdbCommand P b c n) fun _ => InRequest T top := by
  have still : ∀ {m : StubM σ Unit}, Keeps Stub.still m →
      Ensures (InRequest T top) m fun _ => InRequest T top := inRequest_of_still
  exact
    ensures_ite (fun _ => still (keeps_readGeneralRegisters _)) fun _ =>
    ensures_ite (fun _ => inRequest_of_request (request_writeGeneralRegisters _ _)) fun _ =>
    ensures_ite (fun _ => still (keeps_readRegister _ _)) fun _ =>
    ensures_ite (fun _ => inRequest_writeRegister hT P hlt) fun _ =>
    ensures_ite (fun _ => inRequest_processMemoryCommand hT P _ (by omega)) fun _ =>
    ensures_ite (fun _ => inRequest_processMemoryCommand hT P _ (by omega)) fun _ =>
    ensures_ite (fun _ => inRequest_processVCommand hT P (by omega)) fun _ =>
    ensures_ite (fun _ => still (keeps_processQuery _ _)) fun _ =>
    ensures_ite (fun _ => still (keeps_sendGdbResponse _)) fun _ =>
    ensures_ite (fun _ => still keeps_sendStopReply) fun _ =>
    ensures_ite (fun _ => still (keeps_sendGdbResponse _)) fun _ =>
    ensures_ite (fun _ => inRequest_processBreakpoint hT P _ hlt) fun _ =>
    ensures_ite (fun _ => inRequest_processBreakpoint hT P _ hlt) fun _ =>
    ensures_ite (fun _ => still (keeps_rebootCommand _)) fun _ => still (keeps_sendGdbError _)

include hT in
/-- **A command writes inside the request buffer**, when its text `c .. c + n` is followed by the
terminator. -/
theorem inRequest_executeGdbCommand (P : Platform σ) {c n : Nat} (hc : c + n = T) :
    Ensures (InRequest T top) (executeGdbCommand P c n) fun _ => InRequest T top := by
  intro s hs
  have hread : InRequest T top ((readRequest c).run s).2 :=
    inRequest_of_still (keeps_readRequest c) s hs
  show InRequest T top ((dispatchGdbCommand P (s.mRequest.bytes c) c n).run
    ((readRequest c).run s).2).2
  -- An empty command shows its terminator, which is no command letter.
  by_cases h0 : s.mRequest.bytes c = 0
  · rw [h0]
    exact inRequest_of_still (keeps_sendGdbError gdbErrorUnkownCmd) _ hread
  · have hne : c ≠ T := fun he => h0 (he ▸ hs.1)
    exact inRequest_dispatchGdbCommand hT P _ hc (by omega) _ hread

end Bounds
end UefiDebugger
