import UefiDebugger.PacketDecoding
import UefiDebugger.CommandRuns

/-!
# Sessions of commands

A session is a sequence of packets executed one after the other.  Between two commands the input
loop refills the request buffer and touches the acknowledgement state, the output and the records
(`Delivered`); `processGdbPacket_delivers` is where that comes from.
-/
namespace UefiDebugger
open HexText ByteString StateEffect

variable {σ : Type}

/-- From `s` to `s'` a packet with payload `p` was received, and is about to be executed. -/
structure Delivered (s : Stub σ) (p : List UInt8) (s' : Stub σ) : Prop where
  payload : Payload s'.mRequest p
  same : s' = { s with
    mRequest := s'.mRequest
    mResponseAcknowledged := s'.mResponseAcknowledged
    mConnectionOccurred := s'.mConnectionOccurred
    failedAsserts := s'.failedAsserts
    output := s'.output }

/-- The input loop leaves the machine alone. -/
theorem Delivered.target {s s' : Stub σ} {p : List UInt8} (h : Delivered s p s') :
    s'.target = s.target := by
  rw [h.same]

/-- The packets `ps` are executed one after the other, from `s` to `t`. -/
inductive Session (P : Platform σ) : Stub σ → List (List UInt8) → Stub σ → Prop
  | done (s : Stub σ) : Session P s [] s
  | execute {s s' t : Stub σ} {p : List UInt8} {ps : List (List UInt8)}
      (delivered : Delivered s p s')
      (rest : Session P ((executeGdbCommand P 1 p.length).run s').2 ps t) : Session P s (p :: ps) t

/-- A payload put into the request buffer is delivered. -/
theorem delivered_requestOf (s : Stub σ) {p : List UInt8} (h : p.length + 4 ≤ maxRequestSize) :
    Delivered s p { s with mRequest := requestOf p } := ⟨payload_requestOf h, rfl⟩

/-- A packet with payload `p` is received in `s` and executed; the command starts in `s₁` and leaves
`t`. -/
structure Executes (P : Platform σ) (s : Stub σ) (p : List UInt8) (s₁ t : Stub σ) : Prop where
  delivered : Delivered s p s₁
  executed : t = ((executeGdbCommand P 1 p.length).run s₁).2

theorem executes_requestOf (P : Platform σ) (s : Stub σ) {p : List UInt8}
    (h : p.length + 4 ≤ maxRequestSize) :
    Executes P s p { s with mRequest := requestOf p }
      ((executeGdbCommand P 1 p.length).run { s with mRequest := requestOf p }).2 :=
      ⟨delivered_requestOf s h, rfl⟩

/-- The command answered with `reply`. -/
def RepliedWith (reply : List UInt8) (s₁ t : Stub σ) : Prop :=
  t.output = s₁.output ++ [.packet (gdbFrame reply)]

/-- The packets executed from `s`. -/
def executeAll (P : Platform σ) (s : Stub σ) (ps : List (List UInt8)) : Stub σ :=
  ps.foldl (fun s p => ((executeGdbCommand P 1 p.length).run { s with mRequest := requestOf p }).2)
  s

theorem session_executeAll (P : Platform σ) : ∀ (ps : List (List UInt8)) (s : Stub σ),
    (∀ p ∈ ps, p.length + 4 ≤ maxRequestSize) → Session P s ps (executeAll P s ps)
  | [], s, _ => .done s
  | p :: ps, s, h =>
      .execute (delivered_requestOf s (h p (List.mem_cons_self ..)))
        (session_executeAll P ps _ fun q hq => h q (List.mem_cons_of_mem _ hq))

/-- The payload of a complete packet once the terminator replaced its `#`. -/
theorem Complete.terminated {b : ByteBuffer} {n : Nat} {p : List UInt8} {c d : UInt8}
    (h : Complete b n p c d) (top : Nat) : Payload ((b.mark top).write (p.length + 1) 0) p := by
  refine ⟨?_, ?_⟩
  · have hheld := (holds_append.mp h.held.2).1
    have hset := holds_snoc hheld 0
    rwa [Nat.zero_add, Nat.add_comm 1] at hset
  · have := h.length
    have := h.fits
    omega

/-- **A packet judged valid is executed as a session step.** -/
theorem processGdbPacket_delivers (P : Platform σ) {s : Stub σ} {n : Nat} {p : List UInt8}
    {c d : UInt8} (h : Complete s.mRequest n p c d) (hj : judge p c d = .executed p) :
    ∃ s', Delivered s p s' ∧
    ((processGdbPacket P n).run s).2 = ((executeGdbCommand P 1 p.length).run s').2 := by
  obtain ⟨top, hrun⟩ := validateGdbPacket_run P h
  rw [hj] at hrun
  rw [processGdbPacket, run_bind, hrun]
  exact ⟨_, ⟨h.terminated top, rfl⟩, rfl⟩

end UefiDebugger
