import UefiDebugger.DebugRegisters
import UefiDebugger.CommandSession

/-!
# Watchpoint requests

`Z2` to `Z4` and `z2` to `z4` packets on a platform with debug registers.  The registers know a
watchpoint by what it is encoded as, and several requests share an encoding: X64 has no condition
for reads alone and four lengths, AArch64 cuts a length to eight.  A watchpoint stays armed as long
as no request removes its encoding.
-/
namespace UefiDebugger
open HexText ByteString StateEffect SlotTable

variable {σ ρ : Type}

/-! ## Requests -/

/-- The types of watchpoint a packet can name. -/
inductive WatchType where
  | write | read | access
  deriving DecidableEq

/-- The digit behind the `Z`. -/
def WatchType.number : WatchType → Nat
  | .write => 2
  | .read => 3
  | .access => 4

/-- A watchpoint as the debugger names it. -/
structure Watchpoint where
  type : WatchType
  address : Nat
  length : Nat
  deriving DecidableEq

/-- A watchpoint to be inserted, or to be removed. -/
structure WatchRequest where
  remove : Bool
  watchpoint : Watchpoint
  deriving DecidableEq

/-- The payload spells the request. -/
inductive Asks : List UInt8 → WatchRequest → Prop
  | request {ts as ls : List UInt8} {type : WatchType} (remove : Bool) (ht : Digits ts)
      (ha : Digits as) (hl : Digits ls) (htype : value ts = type.number) :
      Asks
      ((if remove = true then char 'z' else char 'Z') :: (ts ++ char ',' :: (as ++ char ',' :: ls)))
      ⟨remove, type, value as, value ls⟩

/-- `ProcessBreakpoint`'s `Read`. -/
def Watchpoint.reads (w : Watchpoint) : Bool := decide (w.type.number = 3 ∨ w.type.number = 4)

/-- `ProcessBreakpoint`'s `Write`. -/
def Watchpoint.writes (w : Watchpoint) : Bool := decide (w.type.number = 2 ∨ w.type.number = 4)

/-- What the registers encode a watchpoint as. -/
def Watchpoint.key (w : Watchpoint) (U : DebugUnit ρ) : WatchKey :=
  U.key (.ofNat w.address) (.ofNat w.length) w.reads w.writes

/-! ## Sessions -/

/-- The platform's watchpoint calls are those of the debug registers of its machine. -/
structure Debugs (P : Platform σ) (U : DebugUnit ρ) (registers : σ → ρ) : Prop where
  add : ∀ a l r w t, ((P.addWatchpoint a l r w t).1, registers (P.addWatchpoint a l r w t).2) =
    U.addWatchpoint (.ofNat a) (.ofNat l) r w (registers t)
  remove : ∀ a l r w t,
    ((P.removeWatchpoint a l r w t).1, registers (P.removeWatchpoint a l r w t).2) =
    U.removeWatchpoint (.ofNat a) (.ofNat l) r w (registers t)

/-- From `s'` to `t` the reply was OK. -/
def RepliedOk (s' t : Stub σ) : Prop := t.output = s'.output ++ [.packet (gdbFrame (text "OK"))]

instance (s' t : Stub σ) : Decidable (RepliedOk s' t) := inferInstanceAs (Decidable (_ = _))

/-- A sequence of watchpoint packets, each with whether it was answered with OK. -/
inductive WatchSession (P : Platform σ) : Stub σ → List (WatchRequest × Bool) → Stub σ → Prop
  | done (s : Stub σ) : WatchSession P s [] s
  | exchange {s s' t : Stub σ} {p : List UInt8} {q : WatchRequest} {qs : List (WatchRequest × Bool)}
      (ok : Bool) (asks : Asks p q) (delivered : Delivered s p s')
      (answer : ok = true ↔ RepliedOk s' ((executeGdbCommand P 1 p.length).run s').2)
      (rest : WatchSession P ((executeGdbCommand P 1 p.length).run s').2 qs t) :
      WatchSession P s ((q, ok) :: qs) t

/-! ## One packet -/

section Packet
variable {P : Platform σ} {U : DebugUnit ρ} {registers : σ → ρ} {p : List UInt8} {q : WatchRequest}
  {s : Stub σ}

/-- The call a request makes on the registers. -/
def WatchRequest.call (q : WatchRequest) (U : DebugUnit ρ) (d : ρ) : Bool × ρ :=
  if q.remove = true then
    U.removeWatchpoint (.ofNat q.watchpoint.address) (.ofNat q.watchpoint.length) q.watchpoint.reads
    q.watchpoint.writes d
  else
    U.addWatchpoint (.ofNat q.watchpoint.address) (.ofNat q.watchpoint.length) q.watchpoint.reads
    q.watchpoint.writes d

/-- A watchpoint packet is its call and the reply. -/
theorem watchpoint_run (h : Payload s.mRequest p) (hasks : Asks p q) :
    ∃ s', (executeGdbCommand P 1 p.length).run s = (do
        let Result ← changeWatchpoint P q.remove q.watchpoint.address q.watchpoint.length
          q.watchpoint.reads q.watchpoint.writes
        sendBreakpointResult Result : StubM σ Unit).run s' ∧ s'.target = s.target ∧
        s'.output = s.output := by
  cases hasks with
  | @request ts as ls type remove ht ha hl htype =>
    obtain ⟨s1, hrun1, h1⟩ := executeGdbCommand_run P h
    obtain ⟨z, s2, hrun2, h2⟩ := h1.processBreakpoint P remove
    rw [parseBreakpoint_digits P ht ha hl.digits,
      P.baseLib.uintn_digits ls hl.nonempty hl.digits hl.fits, finishBreakpoint, breakpointAction,
      htype] at hrun2
    have hbounds : type.number ≠ 0 ∧ 2 ≤ type.number ∧ type.number ≤ 4 := by cases type <;> decide
    rw [if_neg hbounds.1, if_pos hbounds.2] at hrun2
    refine ⟨s2, Eq.trans ?_ hrun2, by rw [h2.same], by rw [h2.same]⟩
    rw [List.length_cons, hrun1]
    cases remove <;> rfl

theorem ok_ne_error : gdbFrame (text "OK") ≠ gdbFrame (errorString gdbErrorInternal) := by decide

/-- **One packet.**  The registers are what the call leaves, and the reply is OK when it
succeeds. -/
theorem watchpoint_packet (hP : Debugs P U registers) (h : Payload s.mRequest p)
    (hasks : Asks p q) :
    registers ((executeGdbCommand P 1 p.length).run s).2.target =
    (q.call U (registers s.target)).2 ∧
      (RepliedOk s ((executeGdbCommand P 1 p.length).run s).2 ↔
        (q.call U (registers s.target)).1 = true) := by
  obtain ⟨s', hrun, htarget, hout⟩ := watchpoint_run (P := P) h hasks
  rw [hrun, run_bind, ← htarget]
  set r := (changeWatchpoint P q.remove q.watchpoint.address q.watchpoint.length q.watchpoint.reads
    q.watchpoint.writes).run s' with hr
  have hcall : (r.1, registers r.2.target) = q.call U (registers s'.target) := by
    rw [hr, changeWatchpoint, run_modifyGet, WatchRequest.call]
    cases q.remove with
    | true => exact hP.remove ..
    | false => exact hP.add ..
  have hsame : r.2.output = s.output := hout
  have hresult : ∀ b : Bool, (((sendBreakpointResult b).run r.2).2.target = r.2.target) ∧
      (RepliedOk s ((sendBreakpointResult b).run r.2).2 ↔ b = true) := by
    intro b
    cases b with
    | true => exact ⟨rfl, fun _ => rfl, fun _ => by rw [RepliedOk, ← hsame]; rfl⟩
    | false =>
      refine ⟨rfl, fun hok => ?_, fun hb => by cases hb⟩
      have herror : ((sendBreakpointResult false).run r.2).2.output =
          s.output ++ [.packet (gdbFrame (errorString gdbErrorInternal))] := by rw [← hsame]; rfl
      rw [RepliedOk, herror] at hok
      have hsingle := List.append_cancel_left hok
      simp only [List.cons.injEq, Output.packet.injEq, and_true] at hsingle
      exact absurd hsingle.symm ok_ne_error
  obtain ⟨hkept, hreply⟩ := hresult r.1
  rw [hkept, hreply, ← hcall]
  exact ⟨rfl, Iff.rfl⟩

end Packet

/-! ## Armed watchpoints -/

section Armed
variable {P : Platform σ} {U : DebugUnit ρ} {registers : σ → ρ} {k : WatchKey} {d : ρ}
  {q : WatchRequest}

/-- An insertion that succeeds arms its key. -/
theorem armed_of_inserted (hinsert : q.remove = false) (h : (q.call U d).1 = true) :
    U.Armed (q.call U d).2 (q.watchpoint.key U) := by
  rw [WatchRequest.call, hinsert, if_neg Bool.false_ne_true] at h ⊢
  cases hl : U.accepts (.ofNat q.watchpoint.length) with
  | false =>
    rw [(U.refused _ _ _ _ d hl).1] at h
    cases h
  | true =>
    have hrefines := DebugUnit.addWatchpoint_refines (s := d) (a := .ofNat q.watchpoint.address)
      (r := q.watchpoint.reads) (w := q.watchpoint.writes) hl
    have harmed :=
      holds_insert (t := U.table d) (k := q.watchpoint.key U)
      (by rw [Watchpoint.key, hrefines]; exact h)
    rwa [Watchpoint.key, hrefines] at harmed

/-- A call that does not remove the key leaves it armed. -/
theorem armed_of_call (h : U.Armed d k) (hkept : q.remove = true → q.watchpoint.key U ≠ k) :
    U.Armed (q.call U d).2 k := by
  rw [WatchRequest.call]
  cases hl : U.accepts (.ofNat q.watchpoint.length) with
  | false =>
    obtain ⟨hadd, hremove⟩ :=
      U.refused (.ofNat q.watchpoint.address) _ q.watchpoint.reads q.watchpoint.writes d hl
    rw [hadd, hremove]
    split <;> exact h
  | true =>
    split
    · rename_i hr
      have herase := Holds.erase h (hkept hr).symm
      rwa [Watchpoint.key, DebugUnit.removeWatchpoint_refines hl] at herase
    · have hinsert := Holds.insert h (q.watchpoint.key U)
      rwa [Watchpoint.key, DebugUnit.addWatchpoint_refines hl] at hinsert

/-- The middle of a session. -/
theorem WatchSession.split {s t : Stub σ} {qs rs : List (WatchRequest × Bool)}
    (h : WatchSession P s (qs ++ rs) t) : ∃ u, WatchSession P u rs t := by
  induction qs generalizing s with
  | nil => exact ⟨s, h⟩
  | cons q qs ih =>
    cases h with
    | exchange ok asks delivered answer rest => exact ih rest

/-- A session that does not remove the key leaves it armed. -/
theorem WatchSession.armed (hP : Debugs P U registers) {s t : Stub σ}
    {qs : List (WatchRequest × Bool)} (hrun : WatchSession P s qs t)
    (h : U.Armed (registers s.target) k)
    (hkept : ∀ q ∈ qs, q.1.remove = true → q.1.watchpoint.key U ≠ k) :
    U.Armed (registers t.target) k := by
  induction hrun with
  | done s => exact h
  | @exchange s s' t p q qs ok asks delivered answer rest ih =>
    have hpacket := (watchpoint_packet hP delivered.payload asks).1
    refine ih ?_ fun q' hq' => hkept q' (List.mem_cons_of_mem _ hq')
    rw [hpacket, delivered.target]
    exact armed_of_call h (hkept (q, ok) (List.mem_cons_self ..))

/-- **A watchpoint stays armed as long as its encoding is not removed.**  Inserted with an OK reply,
it is armed at the end of any session of watchpoint packets in which no later packet removes a
watchpoint that is encoded as it is. -/
theorem watchpoint_stays_armed (hP : Debugs P U registers) {s t : Stub σ} {w : Watchpoint}
    {before after : List (WatchRequest × Bool)}
    (hrun : WatchSession P s (before ++ (⟨false, w⟩, true) :: after) t)
    (hkept : ∀ q ∈ after, q.1.remove = true → q.1.watchpoint.key U ≠ w.key U) :
    U.Armed (registers t.target) (w.key U) := by
  obtain ⟨u, hinsert⟩ := hrun.split
  cases hinsert with
  | exchange ok asks delivered answer rest =>
    obtain ⟨hregisters, hreply⟩ := watchpoint_packet hP delivered.payload asks
    have hresult := hreply.mp (answer.mp rfl)
    refine rest.armed hP ?_ hkept
    rw [hregisters]
    exact armed_of_inserted rfl hresult

end Armed

/-! ## Two watchpoints with one encoding -/

/-- Debug registers and nothing else: no memory can be accessed. -/
def debugPlatform (U : DebugUnit ρ) : Platform ρ where
  view _ _ := 0
  dbgReadMemory _ _ t := (false, [], t)
  dbgWriteMemory _ _ t := (false, t)
  read_true _ _ _ h := Bool.noConfusion h
  read_false _ n _ _ := ⟨0, Nat.zero_le n, rfl⟩
  read_view _ _ _ := rfl
  write_true _ _ _ h := Bool.noConfusion h
  write_false _ _ _ _ := ⟨0, Nat.zero_le _, rfl⟩
  baseLib := documentedBaseLib
  mArchBreakpointInstruction := [0xCC]
  instruction_size := flatPlatform.instruction_size
  gDebuggerInfo := text "DXE UEFI Debugger"
  gRegisterOffsets := []
  gdbTargetInfo := ⟨text "i386:x86-64", text "org.gnu.gdb.i386.core"⟩
  pcdEnableWindbgWorkarounds := false
  addSingleStep c t := (c, t)
  addWatchpoint a l r w t := U.addWatchpoint (.ofNat a) (.ofNat l) r w t
  removeWatchpoint a l r w t := U.removeWatchpoint (.ofNat a) (.ofNat l) r w t
  debugReboot t := (true, t)
  dbgSetBreakOnModuleLoad _ t := (false, t)
  gdbReadMsr _ t := ([], t)
  gdbDumpSystemRegisters _ t := ([], t)

theorem debugPlatform_debugs (U : DebugUnit ρ) : Debugs (debugPlatform U) U id where
  add _ _ _ _ _ := rfl
  remove _ _ _ _ _ := rfl

/-- The X64 stub after `DebugArchInit`. -/
def watchStub : Stub X64.DebugRegisters := Stub.initial (X64.debugArchInit ⟨fun _ => 0, 0⟩)

/-- A read watchpoint and an access watchpoint of one address are inserted, and the first is
removed. -/
def sharedEncoding : List (List UInt8) := [text "Z3,1000,4", text "Z4,1000,4", text "z3,1000,4"]

/-- The access watchpoint. -/
def accessWatchpoint : Watchpoint := ⟨.access, 0x1000, 4⟩

/-- The read watchpoint. -/
def readWatchpoint : Watchpoint := ⟨.read, 0x1000, 4⟩

/-- The stub after the session. -/
def watchStubAfter : Stub X64.DebugRegisters :=
  executeAll (debugPlatform X64.debugUnit) watchStub sharedEncoding

theorem asks_of_eq {p ts as ls : List UInt8} {remove : Bool} {w : Watchpoint}
    (h : Digits ts ∧ Digits as ∧ Digits ls)
    (hp : p = (if remove = true then char 'z' else char 'Z') ::
      (ts ++ char ',' :: (as ++ char ',' :: ls)))
    (hw : value ts = w.type.number ∧ value as = w.address ∧ value ls = w.length) :
    Asks p ⟨remove, w⟩ := by
  obtain ⟨ht, ha, hl⟩ := h
  obtain ⟨type, address, length⟩ := w
  obtain ⟨htype, rfl, rfl⟩ := hw
  subst hp
  exact .request remove ht ha hl htype

/-- Which of the packets, executed one after the other, are answered with OK. -/
def answers (P : Platform σ) (s : Stub σ) : List (List UInt8) → List Bool
  | [] => []
  | p :: ps =>
      let s' := { s with mRequest := requestOf p }
      let t := ((executeGdbCommand P 1 p.length).run s').2
      decide (RepliedOk s' t) :: answers P t ps

/-- Packets executed one after the other are a session. -/
theorem watchSession_executeAll (P : Platform σ) {ps : List (List UInt8)} {reqs : List WatchRequest}
    (hasks : List.Forall₂ Asks ps reqs) (hlen : ∀ p ∈ ps, p.length + 4 ≤ maxRequestSize)
    (s : Stub σ) :
    WatchSession P s (reqs.zip (answers P s ps)) (executeAll P s ps) := by
  induction hasks generalizing s with
  | nil => exact .done s
  | cons hp _ ih =>
    exact .exchange _ hp (delivered_requestOf s (hlen _ (List.mem_cons_self ..))) decide_eq_true_iff
      (ih (fun p hp => hlen p (List.mem_cons_of_mem _ hp)) _)

theorem sharedEncoding_digits : Digits (text "3") ∧ Digits (text "4") ∧ Digits (text "1000") :=
  ⟨.of_all (by decide), .of_all (by decide), .of_all (by decide)⟩

theorem asks_read (remove : Bool) (p : List UInt8)
    (hp : p = (if remove = true then char 'z' else char 'Z') :: text "3,1000,4") :
    Asks p ⟨remove, readWatchpoint⟩ := by
  obtain ⟨h3, h4, h1000⟩ := sharedEncoding_digits
  refine asks_of_eq ⟨h3, h1000, h4⟩ ?_ (by decide)
  rw [hp]
  rfl

theorem sharedEncoding_session : WatchSession (debugPlatform X64.debugUnit) watchStub
    [(⟨false, readWatchpoint⟩, true), (⟨false, accessWatchpoint⟩, true),
      (⟨true, readWatchpoint⟩, true)]
    watchStubAfter := by
  obtain ⟨h3, h4, h1000⟩ := sharedEncoding_digits
  have haccess : Asks (text "Z4,1000,4") ⟨false, accessWatchpoint⟩ :=
    asks_of_eq ⟨h4, h1000, h4⟩ (by decide) (by decide)
  have hanswers : answers (debugPlatform X64.debugUnit) watchStub sharedEncoding =
      [true, true, true] := by
    decide +kernel
  have hasks : List.Forall₂ Asks sharedEncoding
      [⟨false, readWatchpoint⟩, ⟨false, accessWatchpoint⟩, ⟨true, readWatchpoint⟩] :=
    .cons (asks_read false _ (by decide))
    (.cons haccess (.cons (asks_read true _ (by decide)) .nil))
  have hsession := watchSession_executeAll (debugPlatform X64.debugUnit) hasks (by decide) watchStub
  rwa [hanswers] at hsession

theorem accessWatchpoint_disarmed :
    ¬ X64.debugUnit.Armed watchStubAfter.target (accessWatchpoint.key X64.debugUnit) := by
  rintro ⟨i, hi⟩
  revert i
  decide +kernel

/-- Named by its type, address and length, a watchpoint does not stay armed until it is removed:
removing the read watchpoint disarms the access watchpoint of the same address and length. -/
theorem read_removal_disarms_access :
    ¬ ∀ (s t : Stub X64.DebugRegisters) (w : Watchpoint)
        (before after : List (WatchRequest × Bool)),
      X64.debugUnit.Reachable s.target →
      WatchSession (debugPlatform X64.debugUnit) s (before ++ (⟨false, w⟩, true) :: after) t →
      (∀ q ∈ after, q.1 ≠ ⟨true, w⟩) → X64.debugUnit.Armed t.target (w.key X64.debugUnit) := by
  intro h
  refine accessWatchpoint_disarmed
    (h watchStub watchStubAfter accessWatchpoint [(⟨false, readWatchpoint⟩, true)]
    [(⟨true, readWatchpoint⟩, true)] (.init _) sharedEncoding_session ?_)
  intro q hq
  obtain rfl := List.mem_singleton.mp hq
  decide

/-- The read watchpoint is inserted behind an access watchpoint of another address; then a write
watchpoint of its own address and length comes and goes. -/
def passingWatchpoint : List (List UInt8) :=
  [text "Z4,2000,2", text "Z3,1000,4", text "Z2,1000,4", text "z2,1000,4"]

/-- The write watchpoint that comes and goes. -/
def writeWatchpoint : Watchpoint := ⟨.write, 0x1000, 4⟩

/-- The stub after that session. -/
def passedStub : Stub X64.DebugRegisters :=
  executeAll (debugPlatform X64.debugUnit) watchStub passingWatchpoint

theorem passingWatchpoint_session : WatchSession (debugPlatform X64.debugUnit) watchStub
    ([(⟨false, .access, 0x2000, 2⟩, true)] ++ (⟨false, readWatchpoint⟩, true) ::
      [(⟨false, writeWatchpoint⟩, true), (⟨true, writeWatchpoint⟩, true)]) passedStub := by
  obtain ⟨-, h4, h1000⟩ := sharedEncoding_digits
  have h2 : Digits (text "2") := .of_all (by decide)
  have h2000 : Digits (text "2000") := .of_all (by decide)
  have hasks : List.Forall₂ Asks passingWatchpoint [⟨false, .access, 0x2000, 2⟩,
      ⟨false, readWatchpoint⟩, ⟨false, writeWatchpoint⟩, ⟨true, writeWatchpoint⟩] :=
    .cons (asks_of_eq ⟨h4, h2000, h2⟩ (by decide) (by decide))
      (.cons (asks_read false _ (by decide))
        (.cons (asks_of_eq ⟨h2, h1000, h4⟩ (by decide) (by decide))
          (.cons (asks_of_eq ⟨h2, h1000, h4⟩ (by decide) (by decide)) .nil)))
  have hanswers : answers (debugPlatform X64.debugUnit) watchStub passingWatchpoint =
      [true, true, true, true] := by decide +kernel
  have hsession := watchSession_executeAll (debugPlatform X64.debugUnit) hasks (by decide) watchStub
  rwa [hanswers] at hsession

theorem watchpoint_stays_armed_passing :
    X64.debugUnit.Armed passedStub.target (readWatchpoint.key X64.debugUnit) := by
  refine watchpoint_stays_armed (debugPlatform_debugs X64.debugUnit) passingWatchpoint_session ?_
  have hother : writeWatchpoint.key X64.debugUnit ≠ readWatchpoint.key X64.debugUnit := by
    decide +kernel
  intro q hq hremove
  rcases List.mem_pair.mp hq with rfl | rfl
  · cases hremove
  · exact hother

end UefiDebugger
