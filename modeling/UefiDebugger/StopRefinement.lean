import UefiDebugger.StopReasons
import UefiDebugger.QueuedRun

/-!
# The stop and the plain loop

`Machine` cuts a stop at every call of the transport and of the clock; `receiveAll` is the plain
loop over the outcomes of the reads.  Two theorems connect them.  Whatever the clock says and
whenever bytes arrive, a stop is where the plain loop is on the outcomes it has read, and no byte is
lost, read twice or overtaken (`stop_refines_loop`).  And bytes that wait are read without a
timeout, in a bounded number of steps (`queued_input`).  What is proved of the plain loop is thereby
proved of the machine.
-/
namespace UefiDebugger
open HexText ByteString StateEffect QueuedRun

variable {σ : Type}

/-- Where an activation is that waits at a place of `ProcessInputData`. -/
def standsAt : InputPoint → StopPoint σ
  | .returned => .poll
  | point => .readStart point

/-- What arrives during ticks. -/
def arriving (ts : List (Nat × List UInt8)) : List UInt8 := ts.flatMap Prod.snd

theorem arriving_cons (t : Nat × List UInt8) (ts : List (Nat × List UInt8)) :
    arriving (t :: ts) = t.2 ++ arriving ts := List.flatMap_cons

/-! ## One read in the two models -/

instance : Unmoved (Stub.halted (σ := σ)) where
  request _ _ := rfl
  buffers _ _ _ _ _ _ _ := rfl
  packet _ _ := rfl
  asked _ _ := rfl
  output _ _ := rfl
  connected _ _ := rfl

/-- What the plain loop has done after a read, `r`, and where the machine is: in the same place, or
with the command of the packet still to be executed. -/
inductive KeepsPace (s : Stub σ) (r : InputPoint × Stub σ) : StopPoint σ × Stub σ → Prop
  | waits : KeepsPace s r (standsAt r.1, r.2)
  | executes (rest : Remainder σ) (t : Stub σ) (alive : t.halted = s.halted)
      (executed : r = (.first, (rest.program.run t).2)) : KeepsPace s r (.execute rest, t)

theorem afterRead_keepsPace (P : Platform σ) (input : InputPoint) (e : Receive) (s : Stub σ) :
    KeepsPace s ((receive P input e).run s) ((afterRead P input e).run s) := by
  have halive : ((afterRead P input e).run s).2.halted = s.halted := keeps_afterRead P input e s
  rw [afterRead, run_bind] at halive ⊢
  rw [receive, run_bind]
  generalize ((collect input e).run s).1 = next at *
  generalize ((collect input e).run s).2 = t at *
  cases next with
  | first => exact .waits
  | next n => exact .waits
  | returned => exact .waits
  | packet n =>
    dsimp only [finishPacket, processGdbPacket] at halive ⊢
    simp only [run_bind] at halive ⊢
    generalize ((validateGdbPacket P n).run t).1 = valid at *
    generalize ((validateGdbPacket P n).run t).2 = u at *
    cases valid with
    | none => exact .waits
    | some ChecksumIndex => exact .executes _ u halive rfl

/-! ## Ticks -/

namespace Machine
variable {P : Platform σ}

theorem ticks_append : ∀ (ts us : List (Nat × List UInt8)) (m : Machine σ),
    m.ticks P (ts ++ us) = (m.ticks P ts).ticks P us
  | [], _, _ => rfl
  | t :: ts, us, m => ticks_append ts us (m.tick P t.1 t.2)

theorem tick_alive {m : Machine σ} {f : Frame σ} {fs : List (Frame σ)}
    (halive : m.stub.halted = false) (hframes : m.frames = f :: fs) (now : Nat)
    (arrived : List UInt8) : m.tick P now arrived = (m.arrive arrived).advance P f fs now := by
  rcases tick_cases P m now arrived with ⟨hhalted | hnone, -⟩ | ⟨-, g, gs, hcons, htick⟩
  · rw [halive] at hhalted
    cases hhalted
  · rw [hframes] at hnone
    cases hnone
  · rw [hframes] at hcons
    cases hcons
    exact htick

/-! ## Every stop is a run of the plain loop -/

/-- A timeout that is not over leaves the stub alone. -/
theorem checkTimeout_goes_on {T now : Nat} {s : Stub σ}
    (h : ¬ ((checkTimeout T now).run s).2.gRunning = true) :
    ((checkTimeout T now).run s).2 = s := by
  have hfalse : (s.gRunning || (!s.mConnectionOccurred && T != 0 && decide (T ≤ now))) = false :=
    Bool.eq_false_of_not_eq_true h
  have hrunning : s.gRunning = false := (Bool.or_eq_false_iff.mp hfalse).1
  show { s with gRunning := s.gRunning || (!s.mConnectionOccurred && T != 0 && decide (T ≤ now)) } =
    s
  rw [hfalse, ← hrunning]

/-- The bytes among the outcomes. -/
def bytesRead (es : List Receive) : List UInt8 := es.filterMap fun
  | .byte b => some b
  | .timeout => none

theorem bytesRead_snoc (es : List Receive) (e : Receive) :
    bytesRead (es ++ [e]) = bytesRead es ++ bytesRead [e] :=
  List.filterMap_append

theorem receiveAll_snoc (P : Platform σ) :
    ∀ (es : List Receive) (point : InputPoint) (e : Receive) (s : Stub σ),
    (receiveAll P point (es ++ [e])).run s = (receive P ((receiveAll P point es).run s).1 e).run
    ((receiveAll P point es).run s).2
  | [], _, _, _ => rfl
  | _ :: es, _, e, _ => receiveAll_snoc P es _ e _

/-- The places of a stop at which the plain loop waits at an input point. -/
inductive Awaits : InputPoint → StopPoint σ → Prop
  | poll : Awaits .returned .poll
  | clock : Awaits .returned .clock
  | readStart (input : InputPoint) : Awaits input (.readStart input)
  | readPoll (input : InputPoint) (EndTime : Nat) : Awaits input (.readPoll input EndTime)
  | readClock (input : InputPoint) (EndTime : Nat) : Awaits input (.readClock input EndTime)

theorem awaits_standsAt (point : InputPoint) : Awaits point (standsAt (σ := σ) point) := by
  cases point with
  | returned => exact .poll
  | first => exact .readStart _
  | next n => exact .readStart _
  | packet n => exact .readStart _

/-- The stub and its place in a stop, against what the plain loop has made of the same outcomes: the
same, or the command of the last packet has still to be executed. -/
inductive Mirrors (r : InputPoint × Stub σ) : StopPoint σ → Stub σ → Prop
  | waits {point : StopPoint σ} {t : Stub σ} (awaits : Awaits r.1 point)
      (same : t = r.2) : Mirrors r point t
  | executes {rest : Remainder σ} {t : Stub σ} (executed : r = (.first, (rest.program.run t).2)) :
      Mirrors r (.execute rest) t

/-- A stop that was at an input point with stub `s`, with `fs` behind it: since then it has read
`es`, and `arrived` has arrived. -/
structure Read (P : Platform σ) (m₀ : Machine σ) (point : InputPoint) (T : Nat)
    (fs : List (Frame σ)) (arrived : List UInt8) (m : Machine σ) (es : List Receive) : Prop where
  trace : m.trace = m₀.trace ++ es.map .read
  bytes : bytesRead es ++ m.pending = m₀.pending ++ arrived
  frames : ∃ at', m.frames = ⟨T, at'⟩ :: fs ∧
    Mirrors ((receiveAll P point es).run m₀.stub) at' m.stub

section Refinement
variable {m₀ m : Machine σ} {point : InputPoint} {T : Nat} {fs : List (Frame σ)}
  {arrived : List UInt8} {es : List Receive}

/-- Bytes arrive. -/
theorem Read.arrive (h : Read P m₀ point T fs arrived m es) (bs : List UInt8) :
    Read P m₀ point T fs (arrived ++ bs) (m.arrive bs) es :=
  ⟨h.trace, by rw [arrive_pending, ← List.append_assoc, h.bytes, List.append_assoc], h.frames⟩

/-- The activation only moves on. -/
theorem Read.goto (h : Read P m₀ point T fs arrived m es) {f : Frame σ} (hT : f.EndTime = T)
    {next : StopPoint σ} (hmirrors : Mirrors ((receiveAll P point es).run m₀.stub) next m.stub) :
    Read P m₀ point T fs arrived (m.goto f fs next) es :=
  ⟨h.trace, h.bytes, next, hT ▸ rfl, hmirrors⟩

/-- One more read. -/
theorem Read.snoc (h : Read P m₀ point T fs arrived m es) {input : InputPoint} {e : Receive}
    {pending : List UInt8} {at' : StopPoint σ} (hpending : m.pending = bytesRead [e] ++ pending)
    (hstub : m.stub = ((receiveAll P point es).run m₀.stub).2)
    (hinput : ((receiveAll P point es).run m₀.stub).1 = input) :
    Read P m₀ point T fs arrived ({ m with pending := pending }.readDone P ⟨T, at'⟩ fs input e)
    (es ++ [e]) := by
  refine ⟨?_, ?_, _, rfl, ?_⟩
  · rw [List.map_append, ← List.append_assoc, ← h.trace]
    rfl
  · rw [bytesRead_snoc, List.append_assoc, ← h.bytes, hpending]
    rfl
  · rw [receiveAll_snoc, hinput, ← hstub]
    have hpace := afterRead_keepsPace P input e m.stub
    dsimp only [readDone]
    generalize (receive P input e).run m.stub = r at hpace ⊢
    generalize (afterRead P input e).run m.stub = p at hpace ⊢
    cases hpace with
    | waits => exact .waits (awaits_standsAt r.1) rfl
    | executes rest t alive executed => exact .executes executed

/-- One advance that does not end the stop. -/
theorem Read.advance (h : Read P m₀ point T fs arrived m es) {f : Frame σ}
    (hframes : m.frames = f :: fs) {now : Nat}
    (hinside : fs.length < (m.advance P f fs now).frames.length) :
    ∃ es', Read P m₀ point T fs arrived (m.advance P f fs now) es' := by
  obtain ⟨at', hat, hmirrors⟩ := h.frames
  rw [hframes] at hat
  obtain ⟨rfl, -⟩ := List.cons.inj hat
  -- A command is executed at once in the plain loop, and by a tick of its own here.
  cases hmirrors with
  | @executes rest t executed =>
    refine ⟨es, ⟨h.trace, h.bytes, .readStart .first, rfl, ?_⟩⟩
    refine .waits ?_ ?_
    · rw [executed]
      exact .readStart .first
    · rw [executed]
      rfl
  | waits awaits same =>
    generalize hinput : ((receiveAll P point es).run m₀.stub).1 = input at awaits
    have hstays : ∀ {next : StopPoint σ}, Awaits input next →
        Mirrors ((receiveAll P point es).run m₀.stub) next m.stub :=
      fun hnext => .waits (hinput.symm ▸ hnext) same
    cases awaits with
    | poll =>
      rw [advance_poll]
      refine ⟨es, h.goto rfl (hstays ?_)⟩
      by_cases hnone : m.pending = []
      · rw [if_pos hnone]
        exact .clock
      · rw [if_neg hnone]
        exact .readStart _
    | readStart => exact ⟨es, h.goto rfl (hstays (.readPoll _ _))⟩
    | readPoll input E =>
      cases hpending : m.pending with
      | nil =>
        rw [advance_readPoll_nil hpending]
        exact ⟨es, h.goto rfl (hstays (.readClock _ _))⟩
      | cons b bs =>
        rw [advance_readPoll_cons hpending]
        -- The byte is what the plain loop is given next.
        exact ⟨_, h.snoc hpending same hinput⟩
    | readClock input E =>
      by_cases hnow : now < E
      · rw [advance_readClock_lt hnow]
        exact ⟨es, h.goto rfl (hstays (.readPoll _ _))⟩
      · rw [advance_readClock_ge hnow]
        exact ⟨_, h.snoc (e := .timeout) rfl same hinput⟩
    | clock =>
      by_cases hends : ((checkTimeout T now).run m.stub).2.gRunning = true
      · rw [advance_clock_ends hends] at hinside
        exact absurd hinside (Nat.lt_irrefl _)
      · rw [advance_clock_goes_on hends]
        have hsame : ((checkTimeout T now).run m.stub).2 = m.stub := checkTimeout_goes_on hends
        refine ⟨es, ⟨h.trace, h.bytes, .poll, rfl, ?_⟩⟩
        dsimp only
        rw [hsame]
        exact hstays .poll

/-- One tick that does not end the stop. -/
theorem Read.tick (h : Read P m₀ point T fs arrived m es) {now : Nat} {bs : List UInt8}
    (hinside : fs.length < (m.tick P now bs).frames.length) :
    ∃ es', Read P m₀ point T fs (arrived ++ bs) (m.tick P now bs) es' := by
  rcases tick_cases P m now bs with ⟨-, htick⟩ | ⟨-, f, gs, hcons, htick⟩
  · rw [htick]
    exact ⟨es, h.arrive bs⟩
  · rw [htick] at hinside ⊢
    obtain ⟨at', hat, -⟩ := h.frames
    rw [hat] at hcons
    obtain ⟨rfl, rfl⟩ := List.cons.inj hcons
    exact (h.arrive bs).advance hat hinside

end Refinement

/-- The ticks of a stop. -/
theorem read_ticks {m₀ : Machine σ} {point : InputPoint} {T : Nat} {fs : List (Frame σ)}
    (ts : List (Nat × List UInt8)) : ∀ {m : Machine σ} {arrived : List UInt8} {es : List Receive},
    Read P m₀ point T fs arrived m es → m.ticksInside P fs.length ts = true →
      fs.length < (m.ticks P ts).frames.length →
      ∃ es', Read P m₀ point T fs (arrived ++ arriving ts) (m.ticks P ts) es' := by
  induction ts with
  | nil =>
    intro m arrived es h _ _
    exact ⟨es, by rwa [arriving, List.flatMap_nil, List.append_nil]⟩
  | cons t ts ih =>
    intro m arrived es h hinside hend
    obtain ⟨-, hrest⟩ := Bool.and_eq_true_iff.mp hinside
    have hnext : fs.length < (m.tick P t.1 t.2).frames.length := by
      cases ts with
      | nil => exact hend
      | cons u us => exact of_decide_eq_true (Bool.and_eq_true_iff.mp hrest).1
    obtain ⟨es', h'⟩ := h.tick hnext
    rw [arriving_cons, ← List.append_assoc]
    exact ih h' hrest hend

/-- **A stop is the plain loop, cut into pieces.**  As long as a stop lasts, whatever the clock says
and whenever bytes arrive, there are outcomes `es` such that exactly they were read; their bytes and
the waiting ones are those that waited before and those that arrived, in order; and the stub is what
the plain loop makes of `es`, except that the command of the last packet may have still to be
executed. -/
theorem stop_refines_loop (P : Platform σ) {m : Machine σ} {T : Nat} {fs : List (Frame σ)}
    {point : InputPoint} (hframes : m.frames = ⟨T, standsAt point⟩ :: fs)
    (ts : List (Nat × List UInt8)) (hinside : m.ticksInside P fs.length ts = true)
    (hend : fs.length < (m.ticks P ts).frames.length) : ∃ es : List Receive,
    (m.ticks P ts).trace = m.trace ++ es.map .read ∧
      bytesRead es ++ (m.ticks P ts).pending = m.pending ++ arriving ts ∧
      ∃ at', (m.ticks P ts).frames = ⟨T, at'⟩ :: fs ∧
        Mirrors ((receiveAll P point es).run m.stub) at' (m.ticks P ts).stub := by
  have hstart : Read P m point T fs [] m [] :=
    ⟨(List.append_nil _).symm, (List.append_nil _).symm, _, hframes,
      .waits (awaits_standsAt point) rfl⟩
  obtain ⟨es, h⟩ := read_ticks ts hstart hinside hend
  exact ⟨es, h.trace, h.bytes, h.frames⟩

/-- A stop at a breakpoint; the query for the reason waits in the transport. -/
def queriedStop : Machine FlatMachine :=
  { (initial (Stub.initial ⟨fun _ => 0x90, []⟩)).enter 1 2 ⟨.breakpoint, 0, 3⟩ (fun _ => 0) 100 with
    pending := text "$?#3f" }

/-- Four ticks of it. -/
theorem stop_refines_loop_query :
    ∃ es : List Receive,
    (queriedStop.ticks flatPlatform [(101, []), (102, [3]), (103, []), (104, [])]).trace =
    queriedStop.trace ++ es.map .read ∧
      bytesRead es ++
      (queriedStop.ticks flatPlatform [(101, []), (102, [3]), (103, []), (104, [])]).pending =
      queriedStop.pending ++ arriving [(101, []), (102, [3]), (103, []), (104, [])] ∧
      ∃ at', (queriedStop.ticks flatPlatform [(101, []), (102, [3]), (103, []), (104, [])]).frames =
      [⟨0, at'⟩] ∧
        Mirrors ((receiveAll flatPlatform .returned es).run queriedStop.stub) at'
          (queriedStop.ticks flatPlatform [(101, []), (102, [3]), (103, []), (104, [])]).stub :=
  have hframes : queriedStop.frames = [⟨0, standsAt .returned⟩] := rfl
  stop_refines_loop flatPlatform hframes _ (by decide +kernel) (by decide +kernel)

/-! ## Waiting bytes are read -/

theorem arrive_arrive (m : Machine σ) (bs cs : List UInt8) :
    (m.arrive bs).arrive cs = m.arrive (bs ++ cs) := by
  simp [arrive]

/-- The machine, one tick at a time, with the transport as its queue. -/
def queued (P : Platform σ) : System (Machine σ) (Nat × List UInt8) UInt8 where
  step m t := m.tick P t.1 t.2
  arrived := Prod.snd
  arrive := arrive
  arrive_nil m := by simp [arrive]
  arrive_arrive := arrive_arrive

theorem ticks_eq_run (P : Platform σ) : ∀ (ts : List (Nat × List UInt8)) (m : Machine σ),
    m.ticks P ts = (queued P).run m ts
  | [], _ => rfl
  | _ :: ts, _ => ticks_eq_run P ts _

section Bytes
variable {m : Machine σ} {T : Nat} {fs : List (Frame σ)} {b : UInt8} {rest : List UInt8}

/-- The loop of `ReportEntryToDebugger` finds a byte. -/
theorem settles_poll (halive : m.stub.halted = false) (hframes : m.frames = ⟨T, .poll⟩ :: fs)
    (hpending : m.pending ≠ []) :
    Settles (queued P) 1 m { m with frames := ⟨T, .readStart .returned⟩ :: fs } :=
  settles_one fun more t => by
    have hwaits : (m.pending ++ more) ++ t.2 ≠ [] := by simp [hpending]
    show (m.arrive more).tick P t.1 t.2 = _
    rw [tick_alive (m := m.arrive more) halive hframes, advance_poll, arrive_arrive]
    simp only [← List.append_assoc, if_neg hwaits, goto, queued, arrive]

/-- `DebugReadByte` finds a byte at its first poll. -/
theorem settles_read (halive : m.stub.halted = false) {input : InputPoint}
    (hframes : m.frames = ⟨T, .readStart input⟩ :: fs) (hpending : m.pending = b :: rest) :
    Settles (queued P) 2 m { m with
      stub := ((afterRead P input (.byte b)).run m.stub).2
      pending := rest
      frames := ⟨T, ((afterRead P input (.byte b)).run m.stub).1⟩ :: fs
      trace := m.trace ++ [.read (.byte b)] } := fun more ts hts => by
  obtain ⟨t, u, rfl⟩ := List.length_eq_two.mp hts
  show ((m.arrive more).tick P t.1 t.2).tick P u.1 u.2 = _
  rw [tick_alive (m := m.arrive more) halive hframes, advance_readStart]
  generalize (t.1 + readTimeout input) % 2 ^ 64 = E
  let start := ((m.arrive more).arrive t.2).goto ⟨T, .readStart input⟩ fs (.readPoll input E)
  have hbyte : (start.arrive u.2).pending = b :: (rest ++ more ++ t.2 ++ u.2) := by
    simp [start, goto, hpending]
  rw [tick_alive (m := start) halive rfl, advance_readPoll_cons hbyte, readDone]
  simp [start, goto, queued, System.stream, arrive]

/-- The command of a packet is executed. -/
theorem settles_execute (halive : m.stub.halted = false) {command : Remainder σ}
    (hframes : m.frames = ⟨T, .execute command⟩ :: fs) :
    Settles (queued P) 1 m { m with
      stub := (command.program.run m.stub).2
      frames := ⟨T, .readStart .first⟩ :: fs } :=
  settles_one fun more t => by
    show (m.arrive more).tick P t.1 t.2 = _
    rw [tick_alive (m := m.arrive more) halive hframes, arrive_arrive]
    rfl

/-- Where the plain loop takes the machine with one byte. -/
theorem settles_byte (halive : m.stub.halted = false) (point : InputPoint)
    (hframes : m.frames = ⟨T, standsAt point⟩ :: fs) (hpending : m.pending = b :: rest) :
    ∃ n ≤ 4, Settles (queued P) n m {
      stub := ((receive P point (.byte b)).run m.stub).2
      pending := rest
      frames := ⟨T, standsAt ((receive P point (.byte b)).run m.stub).1⟩ :: fs
      trace := m.trace ++ [.read (.byte b)] } := by
  have hstart : ∃ n ≤ 1,
      Settles (queued P) n m { m with frames := ⟨T, .readStart point⟩ :: fs } := by
    cases point with
    | returned => exact ⟨1, Nat.le_refl 1, settles_poll halive hframes (by simp [hpending])⟩
    | first => exact ⟨0, Nat.zero_le 1, hframes ▸ settles_refl (queued P) m⟩
    | next k => exact ⟨0, Nat.zero_le 1, hframes ▸ settles_refl (queued P) m⟩
    | packet k => exact ⟨0, Nat.zero_le 1, hframes ▸ settles_refl (queued P) m⟩
  obtain ⟨n, hn, hstart⟩ := hstart
  have hread := hstart.trans (settles_read (P := P)
    (m := { m with frames := ⟨T, .readStart point⟩ :: fs }) halive rfl hpending)
  have hpace := afterRead_keepsPace P point (.byte b) m.stub
  dsimp only at hread
  generalize (receive P point (.byte b)).run m.stub = r at hpace ⊢
  generalize (afterRead P point (.byte b)).run m.stub = p at hpace hread
  cases hpace with
  | waits => exact ⟨n + 2, by omega, hread⟩
  | executes command t hsame executed =>
    subst executed
    refine ⟨n + 2 + 1, by omega, hread.trans ?_⟩
    exact settles_execute (hsame.trans halive) rfl

end Bytes

/-- The bytes taken one after the other. -/
theorem settles_bytes (rest : List UInt8) (T : Nat) (fs : List (Frame σ)) (w : List UInt8) :
    ∀ {m : Machine σ} {point : InputPoint},
      m.frames = ⟨T, standsAt point⟩ :: fs → m.pending = w ++ rest →
      (∀ done left, w = done ++ left → left ≠ [] →
        ((receiveAll P point (done.map .byte)).run m.stub).2.halted = false) →
      ∃ n ≤ 4 * w.length, Settles (queued P) n m {
        stub := ((receiveAll P point (w.map .byte)).run m.stub).2
        pending := rest
        frames := ⟨T, standsAt ((receiveAll P point (w.map .byte)).run m.stub).1⟩ :: fs
        trace := m.trace ++ w.map fun b => .read (.byte b) } := by
  induction w with
  | nil =>
    intro m point hframes hpending _
    refine ⟨0, Nat.le_refl 0, ?_⟩
    have hsame : m =
        { m with
          pending := rest, frames := ⟨T, standsAt point⟩ :: fs, trace := m.trace ++ [] } := by
      rw [List.append_nil, ← hframes, ← show m.pending = rest from hpending]
    exact hsame ▸ settles_refl (queued P) m
  | cons b w ih =>
    intro m point hframes hpending halive
    obtain ⟨n, hn, hbyte⟩ :=
      settles_byte (P := P) (halive [] (b :: w) rfl (List.cons_ne_nil b w)) point hframes hpending
    obtain ⟨k, hk, hrest⟩ := ih (m := {
      stub := ((receive P point (.byte b)).run m.stub).2
      pending := w ++ rest
      frames := ⟨T, standsAt ((receive P point (.byte b)).run m.stub).1⟩ :: fs
      trace := m.trace ++ [.read (.byte b)] }) rfl rfl fun done left hsplit hleft =>
        halive (b :: done) left (congrArg (b :: ·) hsplit) hleft
    refine ⟨n + k, by rw [List.length_cons]; omega, ?_⟩
    have hboth := hbyte.trans hrest
    rw [List.append_assoc] at hboth
    exact hboth

/-- **Waiting input is taken as the plain loop takes it.**  Whatever the clock says and whatever
else arrives, a bounded number of ticks takes the waiting bytes `w`, each once and in order, leaves
what is behind them and what arrived meanwhile, and leaves the stub as `ProcessInputData` leaves it
that reads these bytes without a pause. -/
theorem queued_input (P : Platform σ) {m : Machine σ} {T : Nat} {fs : List (Frame σ)}
    {point : InputPoint} (w rest : List UInt8) (hframes : m.frames = ⟨T, standsAt point⟩ :: fs)
    (hpending : m.pending = w ++ rest) (halive : ∀ done left, w = done ++ left → left ≠ [] →
      ((receiveAll P point (done.map .byte)).run m.stub).2.halted = false) :
    ∃ n ≤ 4 * w.length, ∀ ts : List (Nat × List UInt8), ts.length = n → m.ticks P ts = {
      stub := ((receiveAll P point (w.map .byte)).run m.stub).2
      pending := rest ++ arriving ts
      frames := ⟨T, standsAt ((receiveAll P point (w.map .byte)).run m.stub).1⟩ :: fs
      trace := m.trace ++ w.map fun b => .read (.byte b) } := by
  obtain ⟨n, hn, hsettles⟩ := settles_bytes (P := P) rest T fs w hframes hpending halive
  exact ⟨n, hn, fun ts hts => (ticks_eq_run P ts m).trans (hsettles.run hts)⟩

/-- The query is read and answered in at most 20 ticks. -/
theorem queued_input_query :
    ∃ n ≤ 4 * (text "$?#3f").length, ∀ ts : List (Nat × List UInt8), ts.length = n →
      queriedStop.ticks flatPlatform ts = {
        stub :=
          ((receiveAll flatPlatform .returned ((text "$?#3f").map .byte)).run queriedStop.stub).2
        pending := [] ++ arriving ts
        frames := [⟨0, standsAt
          ((receiveAll flatPlatform .returned ((text "$?#3f").map .byte)).run queriedStop.stub).1⟩]
        trace := queriedStop.trace ++ (text "$?#3f").map fun b => .read (.byte b) } := by
  have halive : ∀ k < 5,
      ((receiveAll flatPlatform .returned (((text "$?#3f").take k).map .byte)).run
      queriedStop.stub).2.halted = false := by decide +kernel
  refine queued_input flatPlatform (text "$?#3f") [] rfl (List.append_nil _).symm
    fun done left hsplit hleft => ?_
  have hdone : done = (text "$?#3f").take done.length := by rw [hsplit, List.take_left]
  have hshort : done.length < 5 := by
    have hlength := congrArg List.length hsplit
    rw [List.length_append, show (text "$?#3f").length = 5 from rfl] at hlength
    have := List.length_pos_iff.mpr hleft
    omega
  rw [hdone]
  exact halive _ hshort

end Machine
end UefiDebugger
