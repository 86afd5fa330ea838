import UefiDebugger.CommandSession
import UefiDebugger.MemoryWriteEffect

/-!
# Writes under breakpoints

`M` packets go straight to memory, and a removed breakpoint puts back the bytes saved when it was
set.  So a write reaches what a cell holds in the end only where no breakpoint covers it at the
time; under a breakpoint it is undone by the removal.  `ShadowState` is the memory with that rule
and nothing else, and `session_shadow` is that the stub behaves like it.
-/
namespace UefiDebugger
open HexText ByteString PatchedMemory StateEffect

variable {σ : Type}

/-! ## Requests -/

/-- A memory write, or a software breakpoint to be set or removed. -/
inductive DebugRequest where
  | write (Address : Nat) (Data : List UInt8)
  | insert (Address : Nat)
  | remove (Address : Nat)

/-- The payloads of a request. -/
inductive Spells : List UInt8 → DebugRequest → Prop
  | write {as ls ds : List UInt8} (ha : Digits as) (hl : Digits ls)
      (hd : ∀ c ∈ ds, isDigit c = true) (hlen : ds.length = 2 * value ls) :
      Spells (char 'M' :: (as ++ char ',' :: (ls ++ char ':' :: ds)))
        (.write (value as) (readBytes ds))
  | insert {as ks : List UInt8} (ha : Digits as) (hk : ∀ c ∈ ks, isDigit c = true) :
      Spells (char 'Z' :: char '0' :: char ',' :: (as ++ char ',' :: ks)) (.insert (value as))
  | remove {as ks : List UInt8} (ha : Digits as) (hk : ∀ c ∈ ks, isDigit c = true) :
      Spells (char 'z' :: char '0' :: char ',' :: (as ++ char ',' :: ks)) (.remove (value as))

/-! ## The abstract memory -/

/-- The breakpoints set, and what each cell holds when they are taken away. -/
structure ShadowState where
  active : Finset Nat
  memory : Nat → UInt8

/-- One request, for breakpoints of length `n`. -/
def ShadowState.step (n : Nat) (st : ShadowState) : DebugRequest → ShadowState
  | .write Address Data =>
      { st with memory := shadowWrite (2 ^ 64) n st.active st.memory Address Data }
  | .insert Address =>
      if Address ∈ st.active ∨ st.active.card < maxBreakpoints then
        { st with active := insert Address st.active }
      else st
  | .remove Address => { st with active := st.active.erase Address }

/-! ## One request -/

/-- The two states have the same device. -/
theorem Delivered.device {s s' : Stub σ} {p : List UInt8} (h : Delivered s p s') :
    s'.device = s.device := by rw [h.same]; rfl

theorem Parsing.device {c : Nat} {z : List UInt8} {s₀ s : Stub σ} (h : Parsing c z s₀ s) :
    s.device = s₀.device := by rw [h.same]; rfl

/-- A write request is its transfer. -/
theorem memoryWrite_run (P : Platform σ) {s : Stub σ} {as ls ds : List UInt8} (ha : Digits as)
    (hl : Digits ls) (hd : ∀ c ∈ ds, isDigit c = true) (hlen : ds.length = 2 * value ls)
    (h : Payload s.mRequest (char 'M' :: (as ++ char ',' :: (ls ++ char ':' :: ds)))) :
    ∃ v s', (executeGdbCommand P 1 ((as ++ char ',' :: (ls ++ char ':' :: ds)).length + 1)).run s =
        (memoryWriteTransfer P (value as) (value ls) v).run s' ∧
      s'.device = s.device ∧ s'.output = s.output ∧ Holds s'.mRequest.bytes v ds := by
  have hfits : ds.length < 2 ^ 64 := by
    have := h.fits
    simp only [List.length_cons, List.length_append, maxRequestSize] at this
    omega
  obtain ⟨hparse, hcut⟩ := parseMemoryWrite_digits P ha hl hd hlen hfits
  set w := as ++ char ',' :: (ls ++ char ':' :: ds) with hw
  obtain ⟨s1, hrun1, h1⟩ := executeGdbCommand_run P h
  have hdispatch : dispatchGdbCommand P (char 'M') 1 (w.length + 1) =
      processMemoryCommand P true 2 w.length := rfl
  obtain ⟨z, s2, hrun2, h2, hzlen, hz⟩ := h1.processMemoryWrite P
  rw [hparse] at hrun2
  have hz' := (hz _ _ _ hparse).trans hcut
  set v := as.length + ls.length + 2 with hv
  have hwlen : w.length = v + ds.length := by
    rw [hw, hv]
    simp only [List.length_append, List.length_cons]
    omega
  have hheld : Holds s2.mRequest.bytes (2 + v) ds := by
    have hsuffix := (holds_append.mp (h2.suffix (show v ≤ z.length by omega))).1
    rw [hz', show as ++ 0 :: (ls ++ 0 :: ds) = (as ++ 0 :: (ls ++ [0])) ++ ds by simp,
      List.drop_left' (by simp [hv]; omega)] at hsuffix
    exact hsuffix
  exact ⟨2 + v, s2, by rw [hrun1, hdispatch, hrun2, finishMemoryWrite], h2.device,
    by rw [h2.same], hheld⟩

/-- A breakpoint request is its call. -/
theorem breakpoint_run (P : Platform σ) (r : Bool) {s : Stub σ} {as ks : List UInt8}
    (ha : Digits as) (hk : ∀ c ∈ ks, isDigit c = true) (h : Payload s.mRequest
      ((if r = true then char 'z' else char 'Z') :: char '0' :: char ',' ::
        (as ++ char ',' :: ks))) :
    ∃ s', (executeGdbCommand P 1
        ((char '0' :: char ',' :: (as ++ char ',' :: ks)).length + 1)).run s = (do
          let Result ← changeSoftwareBreakpoint P r (value as)
          sendBreakpointResult Result : StubM σ Unit).run s' ∧ s'.device = s.device := by
  have hzero : Digits [char '0'] := .of_all (by decide)
  obtain ⟨s1, hrun1, h1⟩ := executeGdbCommand_run P h
  obtain ⟨z, s2, hrun2, h2⟩ := h1.processBreakpoint P r
  have hparse := parseBreakpoint_digits P hzero ha hk
  rw [List.singleton_append] at hparse
  rw [hparse] at hrun2
  refine ⟨s2, Eq.trans ?_ hrun2, h2.device⟩
  rw [hrun1]
  cases r <;> rfl

theorem device_sendBreakpointResult (r : Bool) :
    Keeps Stub.device (sendBreakpointResult r : StubM σ Unit) :=
  keeps_ite (keeps_sendGdbResponse _) (keeps_sendGdbError _)

theorem device_writeReply (done : Bool) : Keeps Stub.device
    (if done = true then sendGdbResponse (.text (text "OK")) else pure () : StubM σ Unit) :=
  keeps_ite (keeps_sendGdbResponse _) (keeps_pure _)

/-- The call behind a breakpoint request. -/
def breakpointCall (r : Bool) (a : Nat) : BreakpointCall := if r = true then .remove a else .add a

theorem changeSoftwareBreakpoint_eq (P : Platform σ) (r : Bool) (a : Nat) :
    changeSoftwareBreakpoint P r a = (breakpointCall r a).make P := by cases r <;> rfl

/-- No request takes accesses back. -/
theorem extends_request (P : Platform σ) {s : Stub σ} {p : List UInt8} {req : DebugRequest}
    (hp : Spells p req) (h : Payload s.mRequest p) :
    s.accesses <+: ((executeGdbCommand P 1 p.length).run s).2.accesses := by
  have hcall : ∀ (r : Bool) (as ks : List UInt8), Digits as → (∀ c ∈ ks, isDigit c = true) →
      Payload s.mRequest ((if r = true then char 'z' else char 'Z') :: char '0' :: char ',' ::
        (as ++ char ',' :: ks)) →
      s.accesses <+: ((executeGdbCommand P 1
        ((char '0' :: char ',' :: (as ++ char ',' :: ks)).length + 1)).run s).2.accesses := by
    intro r as ks ha hk h
    obtain ⟨s', hrun, hdevice⟩ := breakpoint_run P r ha hk h
    have haccesses : s'.accesses = s.accesses := congrArg Device.accesses hdevice
    rw [hrun, changeSoftwareBreakpoint_eq]
    have hsteps : Ensures (fun u => s.accesses <+: u.accesses) (do
        let Result ← (breakpointCall r (value as)).make P
        sendBreakpointResult Result : StubM σ Unit) fun _ u => s.accesses <+: u.accesses :=
      ensures_bind (extends_call P _ _) fun _ => extends_of_device (device_sendBreakpointResult _) _
    exact hsteps s' (haccesses ▸ List.prefix_refl _)
  cases hp with
  | @write as ls ds ha hl hd hlen =>
    obtain ⟨v, s', hrun, hdevice, -⟩ := memoryWrite_run P ha hl hd hlen h
    have haccesses : s'.accesses = s.accesses := congrArg Device.accesses hdevice
    rw [List.length_cons, hrun]
    have hsteps : Ensures (fun u => s.accesses <+: u.accesses)
        (memoryWriteTransfer P (value as) (value ls) v) fun _ u => s.accesses <+: u.accesses :=
      ensures_bind (extends_memoryWriteLoop P _ _ _ _ _) fun _ =>
        extends_of_device (device_writeReply _) _
    exact hsteps s' (haccesses ▸ List.prefix_refl _)
  | insert ha hk => exact hcall false _ _ ha hk h
  | remove ha hk => exact hcall true _ _ ha hk h

/-! ## The stub mirrors the abstract memory -/

section Mirrors
variable {P : Platform σ} {S : Set Nat}

/-- The invariant looks at the device only. -/
theorem Tracks.of_device {shadow : Nat → UInt8} {s t : Stub σ} (h : Tracks P S shadow s)
    (hd : t.device = s.device) : Tracks P S shadow t := by
  have htable : t.mBreakpoints = s.mBreakpoints := congrArg Device.mBreakpoints hd
  have htarget : t.target = s.target := congrArg Device.target hd
  refine ⟨?_, ?_, ?_, ?_⟩
  · rw [htable]
    exact h.within
  · rw [htable]
    exact h.distinct
  · rw [htable]
    exact h.saved
  · rw [htable, htarget]
    exact h.agree

theorem AccessesSucceed.of_device {s s' t t' : Stub σ} (h : AccessesSucceed s t)
    (hs : s'.device = s.device) (ht : t'.device = t.device) : AccessesSucceed s' t' := by
  obtain ⟨made, hmade, hall⟩ := h
  refine ⟨made, ?_, hall⟩
  rw [show t'.accesses = t.accesses from congrArg Device.accesses ht,
    show s'.accesses = s.accesses from congrArg Device.accesses hs, hmade]

/-- The stub's device and the abstract state belong together. -/
structure Mirrors (P : Platform σ) (S : Set Nat) (st : ShadowState) (s : Stub σ) : Prop where
  tracks : Tracks P S st.memory s
  active : st.active = activeAddresses s.mBreakpoints

/-- A write past the breakpoints. -/
theorem Mirrors.write {st : ShadowState} {s t : Stub σ} (h : Mirrors P S st s) {a : Nat}
    {bs : List UInt8} (hview : P.view t.target = writeBlock (2 ^ 64) (P.view s.target) a bs)
    (htable : t.mBreakpoints = s.mBreakpoints) :
    Mirrors P S (st.step P.mArchBreakpointInstructionSize (.write a bs)) t := by
  have hactive := h.active
  refine ⟨⟨?_, ?_, ?_, ?_⟩, htable ▸ hactive⟩
  · rw [htable]
    exact h.tracks.within
  · rw [htable]
    exact h.tracks.distinct
  · rw [htable]
    intro i hi
    have hmem : (s.mBreakpoints i).address ∈ st.active :=
      hactive ▸ mem_activeAddresses.mpr ⟨i, hi, rfl⟩
    rw [h.tracks.saved i hi]
    exact (readBlock_shadowWrite hmem a bs).symm
  · rw [htable, hview]
    show AgreeOff _ _ _ _ (shadowWrite _ _ st.active _ a bs)
    rw [hactive]
    exact h.tracks.agree.write a bs

/-- A breakpoint call. -/
theorem Mirrors.call {st : ShadowState} {s : Stub σ} (h : Mirrors P S st s)
    (hS : Apart (2 ^ 64) P.mArchBreakpointInstructionSize S) (r : Bool) {a : Nat} (ha : a ∈ S)
    (hok : AccessesSucceed s (((breakpointCall r a).make P).run s).2) :
    Mirrors P S
    (st.step P.mArchBreakpointInstructionSize (if r = true then .remove a else .insert a))
    (((breakpointCall r a).make P).run s).2 := by
  have hcard : st.active.card = (activeSlots s.mBreakpoints).card := by
    rw [h.active, card_activeAddresses h.tracks.distinct]
  cases r with
  | false =>
    show Mirrors P S (if a ∈ st.active ∨ st.active.card < maxBreakpoints then _ else st) _
    rcases addSoftwareBreakpoint_cases P a s with
      ⟨hmem, -, hrun⟩ | ⟨hnew, hfull, -, hrun⟩ | ⟨hnew, e, he, -, hrun⟩
    · have hmem' : a ∈ st.active := h.active ▸ hmem
      rw [if_pos (Or.inl hmem'), Finset.insert_eq_of_mem hmem',
        show ((breakpointCall false a).make P).run s = _ from hrun]
      exact h
    · rw [if_neg, show ((breakpointCall false a).make P).run s = _ from hrun]
      · exact ⟨h.tracks.of_device rfl, h.active⟩
      · rw [hcard, hfull, Finset.card_univ, Fintype.card_fin, h.active]
        exact not_or.mpr ⟨hnew, Nat.lt_irrefl _⟩
    · have hspace : (activeSlots s.mBreakpoints).card < maxBreakpoints := by
        have hlt :=
          Finset.card_lt_univ_of_notMem (s := activeSlots s.mBreakpoints) (x := e) fun hmem => by
          rw [mem_activeSlots, he] at hmem
          cases hmem
        rwa [Fintype.card_fin] at hlt
      rw [show ((breakpointCall false a).make P).run s = _ from hrun] at hok ⊢
      rw [if_pos (Or.inr (hcard ▸ hspace))]
      refine ⟨h.tracks.plant hS ha hnew he hok, ?_⟩
      show insert a st.active = activeAddresses (Function.update s.mBreakpoints e _)
      rw [activeAddresses_plant he, h.active]
  | true =>
    show Mirrors P S { st with active := st.active.erase a } _
    rcases removeSoftwareBreakpoint_cases P a s with ⟨hnone, -, hrun⟩ | ⟨i, hi, haddr, -, hrun⟩
    · rw [show ((breakpointCall true a).make P).run s = _ from hrun,
        Finset.erase_eq_of_notMem (h.active ▸ hnone)]
      exact h
    · rw [show ((breakpointCall true a).make P).run s = _ from hrun] at hok ⊢
      refine ⟨h.tracks.restore hi haddr hok, ?_⟩
      show st.active.erase a = activeAddresses (releaseSlot s.mBreakpoints i)
      rw [activeAddresses_release h.tracks.distinct hi haddr, h.active]

/-- Breakpoint requests are at addresses in `S`. -/
def DebugRequest.At (S : Set Nat) : DebugRequest → Prop
  | .write _ _ => True
  | .insert Address => Address ∈ S
  | .remove Address => Address ∈ S

/-- One request, executed from its packet. -/
theorem Mirrors.execute {st : ShadowState} {s : Stub σ} (h : Mirrors P S st s)
    (hS : Apart (2 ^ 64) P.mArchBreakpointInstructionSize S) {p : List UInt8} {req : DebugRequest}
    (hp : Spells p req) (hreq : req.At S) (hpayload : Payload s.mRequest p)
    (hok : AccessesSucceed s ((executeGdbCommand P 1 p.length).run s).2) :
    Mirrors P S (st.step P.mArchBreakpointInstructionSize req)
      ((executeGdbCommand P 1 p.length).run s).2 := by
  have hcall : ∀ (r : Bool) (as ks : List UInt8), Digits as → (∀ c ∈ ks, isDigit c = true) →
      value as ∈ S → Payload s.mRequest ((if r = true then char 'z' else char 'Z') :: char '0' ::
        char ',' :: (as ++ char ',' :: ks)) →
      AccessesSucceed s ((executeGdbCommand P 1
        ((char '0' :: char ',' :: (as ++ char ',' :: ks)).length + 1)).run s).2 →
      Mirrors P S (st.step P.mArchBreakpointInstructionSize
          (if r = true then .remove (value as) else .insert (value as)))
        ((executeGdbCommand P 1
          ((char '0' :: char ',' :: (as ++ char ',' :: ks)).length + 1)).run s).2 := by
    intro r as ks ha hk haS hpayload hok
    obtain ⟨s', hrun, hdevice⟩ := breakpoint_run P r ha hk hpayload
    rw [hrun, changeSoftwareBreakpoint_eq, run_bind] at hok ⊢
    have hreply := device_sendBreakpointResult (((breakpointCall r (value as)).make P).run s').1
      (((breakpointCall r (value as)).make P).run s').2
    have hs' : Mirrors P S st s' :=
      ⟨h.tracks.of_device hdevice, h.active.trans (congrArg (fun d : Device σ =>
        activeAddresses d.mBreakpoints) hdevice).symm⟩
    have hmirrors := hs'.call hS r haS (hok.of_device hdevice hreply.symm)
    exact ⟨hmirrors.tracks.of_device hreply, hmirrors.active.trans (congrArg (fun d : Device σ =>
      activeAddresses d.mBreakpoints) hreply).symm⟩
  cases hp with
  | @write as ls ds ha hl hd hlen =>
    obtain ⟨v, s', hrun, hdevice, -, hheld⟩ := memoryWrite_run P ha hl hd hlen hpayload
    rw [List.length_cons, hrun, memoryWriteTransfer, run_bind] at hok ⊢
    have hreply :=
      device_writeReply ((memoryWriteLoop P (value ls) (value as) (value ls) v).run s').1
      ((memoryWriteLoop P (value ls) (value as) (value ls) v).run s').2
    obtain ⟨hview, htable⟩ := memoryWriteLoop_run P (value ls) (value as) (value ls) v ds s'
      (Nat.le_refl _) hlen hd hheld (hok.of_device hdevice hreply.symm)
    refine h.write ?_ ?_
    · rw [show s'.target = s.target from congrArg Device.target hdevice] at hview
      exact (congrArg (fun d : Device σ => P.view d.target) hreply).trans hview
    · exact (congrArg Device.mBreakpoints hreply).trans
        (htable.trans (congrArg Device.mBreakpoints hdevice))
  | insert ha hk => exact hcall false _ _ ha hk hreq hpayload hok
  | remove ha hk => exact hcall true _ _ ha hk hreq hpayload hok

/-- No session takes accesses back. -/
theorem extends_session {s t : Stub σ} {ps : List (List UInt8)} (hrun : Session P s ps t) :
    ∀ {reqs : List DebugRequest}, List.Forall₂ Spells ps reqs → s.accesses <+: t.accesses := by
  induction hrun with
  | done s => exact fun _ => List.prefix_refl _
  | @execute s s' t p ps delivered rest ih =>
    intro reqs hsp
    cases hsp with
    | cons hp hps =>
      have haccesses : s'.accesses = s.accesses := congrArg Device.accesses delivered.device
      exact (haccesses ▸ extends_request P hp delivered.payload).trans (ih hps)

/-- A session of requests mirrors the abstract run. -/
theorem Mirrors.session (hS : Apart (2 ^ 64) P.mArchBreakpointInstructionSize S) {s t : Stub σ}
    {ps : List (List UInt8)} (hrun : Session P s ps t) :
    ∀ {reqs : List DebugRequest} {st : ShadowState}, List.Forall₂ Spells ps reqs →
      (∀ req ∈ reqs, req.At S) → AccessesSucceed s t → Mirrors P S st s →
      Mirrors P S (reqs.foldl (ShadowState.step P.mArchBreakpointInstructionSize) st) t := by
  induction hrun with
  | done s =>
    intro reqs st hsp _ _ h
    cases hsp
    exact h
  | @execute s s' t p ps delivered rest ih =>
    intro reqs st hsp hat hok h
    cases hsp with
    | @cons _ req _ reqs hp hps =>
      have hdevice := delivered.device
      have hs' : Mirrors P S st s' :=
        ⟨h.tracks.of_device hdevice, h.active.trans (congrArg (fun d : Device σ =>
          activeAddresses d.mBreakpoints) hdevice).symm⟩
      obtain ⟨hfirst, hrest⟩ := (hok.of_device hdevice rfl).split
        (extends_request P hp delivered.payload) (extends_session rest hps)
      have hstep := hs'.execute hS hp (hat req (List.mem_cons_self ..)) delivered.payload hfirst
      have hend := ih hps (fun r hr => hat r (List.mem_cons_of_mem _ hr)) hrest hstep
      exact hend

end Mirrors

/-! ## Sessions of requests -/

/-- The addresses of the breakpoint requests. -/
def breakpointAddresses (reqs : List DebugRequest) : Set Nat :=
  {a | .insert a ∈ reqs ∨ .remove a ∈ reqs}

/-- What the requests make each cell hold under the breakpoints: the last value written to it while
no breakpoint covered it. -/
def shadowAfter (n : Nat) (M₀ : Nat → UInt8) (reqs : List DebugRequest) : Nat → UInt8 :=
  (reqs.foldl (ShadowState.step n) ⟨∅, M₀⟩).memory

/-- What each cell would hold if breakpoints did not matter: the last value written to it. -/
def writesAfter (M₀ : Nat → UInt8) (reqs : List DebugRequest) : Nat → UInt8 :=
  reqs.foldl (fun m req => match req with
    | .write Address Data => writeBlock (2 ^ 64) m Address Data
    | _ => m) M₀

/-- **A removed breakpoint undoes the writes made under it.**  After any session of memory writes
and breakpoints set and removed at addresses that do not overlap, from an empty table and with every
access successful, every cell that no breakpoint covers holds the value last written to it while no
breakpoint covered it, or its first value; when no breakpoint is left, that is every cell. -/
theorem session_shadow (P : Platform σ) {s t : Stub σ} {ps : List (List UInt8)}
    {reqs : List DebugRequest} (hsp : List.Forall₂ Spells ps reqs) (hrun : Session P s ps t)
    (hempty : ∀ i, (s.mBreakpoints i).active = false)
    (hapart : Apart (2 ^ 64) P.mArchBreakpointInstructionSize (breakpointAddresses reqs))
    (hok : AccessesSucceed s t) :
    AgreeOff (2 ^ 64) P.mArchBreakpointInstructionSize (activeAddresses t.mBreakpoints)
        (P.view t.target)
        (shadowAfter P.mArchBreakpointInstructionSize (P.view s.target) reqs) ∧
      ((∀ i, (t.mBreakpoints i).active = false) →
        P.view t.target =
          shadowAfter P.mArchBreakpointInstructionSize (P.view s.target) reqs) := by
  have hstart : Mirrors P (breakpointAddresses reqs) ⟨∅, P.view s.target⟩ s :=
    ⟨tracks_empty _ hempty, (activeAddresses_eq_empty hempty).symm⟩
  have hat : ∀ req ∈ reqs, req.At (breakpointAddresses reqs) := by
    intro req hreq
    cases req with
    | write a bs => trivial
    | insert a => exact Or.inl hreq
    | remove a => exact Or.inr hreq
  have hend := Mirrors.session hapart hrun hsp hat hok hstart
  have hagree := hend.tracks.agree
  refine ⟨hagree, fun hgone => ?_⟩
  rw [activeAddresses_eq_empty hgone] at hagree
  exact agreeOff_empty.mp hagree

/-! ## A write under a breakpoint -/

/-- A breakpoint at `0x10` is set, the byte there is written, and the breakpoint is removed. -/
def writeUnderBreakpoint : List (List UInt8) := [text "Z0,10,1", text "M10,1:55", text "z0,10,1"]

def writeUnderBreakpointRequests : List DebugRequest :=
  [.insert 0x10, .write 0x10 [0x55], .remove 0x10]

theorem writeUnderBreakpoint_spells :
    List.Forall₂ Spells writeUnderBreakpoint writeUnderBreakpointRequests := by
  have hten : Digits (text "10") := .of_all (by decide)
  have hone : Digits (text "1") := .of_all (by decide)
  have hdata : ∀ c ∈ text "55", isDigit c = true := List.all_eq_true.mp (by decide)
  exact .cons (.insert hten hone.digits) (.cons (.write hten hone hdata (by decide))
    (.cons (.remove hten hone.digits) .nil))

/-- The stub before the session. -/
def quietStub : Stub FlatMachine := Stub.initial ⟨fun _ => 0x90, []⟩

theorem writeUnderBreakpoint_session : Session flatPlatform quietStub writeUnderBreakpoint
    (executeAll flatPlatform quietStub writeUnderBreakpoint) :=
  session_executeAll _ _ _ (by decide)

theorem writeUnderBreakpoint_succeeds : AccessesSucceed quietStub
    (executeAll flatPlatform quietStub writeUnderBreakpoint) :=
  ⟨_, (List.nil_append _).symm, List.all_eq_true.mp (by decide +kernel)⟩

theorem writeUnderBreakpoint_gone (i : Fin maxBreakpoints) :
    ((executeAll flatPlatform quietStub writeUnderBreakpoint).mBreakpoints i).active = false := by
  revert i
  decide +kernel

theorem writeUnderBreakpoint_apart : Apart (2 ^ 64) flatPlatform.mArchBreakpointInstructionSize
    (breakpointAddresses writeUnderBreakpointRequests) := by
  have hsame : ∀ a ∈ breakpointAddresses writeUnderBreakpointRequests, a = 0x10 := by
    intro a ha
    simpa [breakpointAddresses, writeUnderBreakpointRequests] using ha
  intro a ha b hb hne
  exact absurd ((hsame a ha).trans (hsame b hb).symm) hne

/-- Not every write survives: the byte written under the breakpoint is the one from before. -/
theorem write_under_breakpoint_lost :
    ¬ ∀ (s t : Stub FlatMachine) (ps : List (List UInt8)) (reqs : List DebugRequest),
      List.Forall₂ Spells ps reqs → Session flatPlatform s ps t →
      (∀ i, (s.mBreakpoints i).active = false) →
      Apart (2 ^ 64) flatPlatform.mArchBreakpointInstructionSize (breakpointAddresses reqs) →
      AccessesSucceed s t → (∀ i, (t.mBreakpoints i).active = false) →
        flatPlatform.view t.target = writesAfter (flatPlatform.view s.target) reqs := by
  intro h
  have hlast := congrFun (h quietStub _ _ _ writeUnderBreakpoint_spells writeUnderBreakpoint_session
    (fun _ => rfl) writeUnderBreakpoint_apart writeUnderBreakpoint_succeeds
    writeUnderBreakpoint_gone) 0x10
  have hkept : flatPlatform.view (executeAll flatPlatform quietStub writeUnderBreakpoint).target
      0x10 =
      0x90 := by decide +kernel
  have hwritten : writesAfter (flatPlatform.view quietStub.target)
      writeUnderBreakpointRequests 0x10 =
      0x55 := by decide +kernel
  rw [hkept, hwritten] at hlast
  exact absurd hlast (by decide)

/-- The same, and a second breakpoint at `0x20` that stays, with three bytes written from `0x1f`
on. -/
def writeAcrossBreakpoint : List (List UInt8) :=
  writeUnderBreakpoint ++ [text "Z0,20,1", text "M1f,3:a1a2a3"]

def writeAcrossBreakpointRequests : List DebugRequest :=
  writeUnderBreakpointRequests ++ [.insert 0x20, .write 0x1f [0xa1, 0xa2, 0xa3]]

theorem writeAcrossBreakpoint_spells :
    List.Forall₂ Spells writeAcrossBreakpoint writeAcrossBreakpointRequests := by
  have htwenty : Digits (text "20") := .of_all (by decide)
  have hone : Digits (text "1") := .of_all (by decide)
  have hstart : Digits (text "1f") := .of_all (by decide)
  have hthree : Digits (text "3") := .of_all (by decide)
  have hdata : ∀ c ∈ text "a1a2a3", isDigit c = true := List.all_eq_true.mp (by decide)
  exact List.rel_append writeUnderBreakpoint_spells
    (.cons (.insert htwenty hone.digits) (.cons (.write hstart hthree hdata (by decide)) .nil))

theorem writeAcrossBreakpoint_apart : Apart (2 ^ 64) flatPlatform.mArchBreakpointInstructionSize
    (breakpointAddresses writeAcrossBreakpointRequests) := by
  have hsome : ∀ a ∈ breakpointAddresses writeAcrossBreakpointRequests, a = 0x10 ∨ a = 0x20 := by
    intro a ha
    simpa [breakpointAddresses, writeAcrossBreakpointRequests, writeUnderBreakpointRequests,
      or_comm] using ha
  have hsize : flatPlatform.mArchBreakpointInstructionSize = 1 := rfl
  refine apart_of_le (fun a ha => ?_) fun a ha b hb hne => ?_
  · have := hsome a ha
    omega
  · have := hsome a ha
    have := hsome b hb
    omega

theorem writeAcrossBreakpoint_session : Session flatPlatform quietStub writeAcrossBreakpoint
    (executeAll flatPlatform quietStub writeAcrossBreakpoint) :=
  session_executeAll _ _ _ (by decide)

theorem writeAcrossBreakpoint_succeeds : AccessesSucceed quietStub
    (executeAll flatPlatform quietStub writeAcrossBreakpoint) :=
  ⟨_, (List.nil_append _).symm, List.all_eq_true.mp (by decide +kernel)⟩

/-- A session that ends with a breakpoint set, and one that ends with none. -/
theorem session_shadow_across_breakpoint :
    AgreeOff (2 ^ 64) flatPlatform.mArchBreakpointInstructionSize
        (activeAddresses (executeAll flatPlatform quietStub writeAcrossBreakpoint).mBreakpoints)
        (flatPlatform.view (executeAll flatPlatform quietStub writeAcrossBreakpoint).target)
        (shadowAfter flatPlatform.mArchBreakpointInstructionSize
          (flatPlatform.view quietStub.target) writeAcrossBreakpointRequests) ∧
      flatPlatform.view (executeAll flatPlatform quietStub writeUnderBreakpoint).target =
        shadowAfter flatPlatform.mArchBreakpointInstructionSize (flatPlatform.view quietStub.target)
          writeUnderBreakpointRequests :=
  ⟨(session_shadow flatPlatform writeAcrossBreakpoint_spells writeAcrossBreakpoint_session
      (fun _ => rfl) writeAcrossBreakpoint_apart writeAcrossBreakpoint_succeeds).1,
    (session_shadow flatPlatform writeUnderBreakpoint_spells writeUnderBreakpoint_session
      (fun _ => rfl) writeUnderBreakpoint_apart writeUnderBreakpoint_succeeds).2
      writeUnderBreakpoint_gone⟩

end UefiDebugger
