import Mathlib.Data.List.Basic

/-!
# Progress while input arrives

A machine reads its input from a queue, and with each of its steps more input may join the queue,
behind what waits.  `Settles n s t` says that `n` steps take the machine from `s` to `t` whatever
they are and whatever arrives, except that what arrives waits behind the queue of `t`.  Such
stretches compose, so the time that a machine needs for waiting input is found one piece at a time.
-/
namespace QueuedRun

/-- A machine that takes a step for each event, and the input that arrives with an event. -/
structure System (S E β : Type) where
  step : S → E → S
  arrived : E → List β
  arrive : S → List β → S
  arrive_nil : ∀ s, arrive s [] = s
  arrive_arrive : ∀ s bs cs, arrive (arrive s bs) cs = arrive s (bs ++ cs)

variable {S E β : Type} {Q : System S E β} {s t u : S} {n k : Nat}

/-- The steps for a list of events. -/
def System.run (Q : System S E β) (s : S) (es : List E) : S := es.foldl Q.step s

/-- All the input that arrives. -/
def System.stream (Q : System S E β) (es : List E) : List β := es.flatMap Q.arrived

/-- In `n` steps, whatever they are, whatever arrives with them and has arrived before, `s` becomes
`t`. -/
def Settles (Q : System S E β) (n : Nat) (s t : S) : Prop :=
  ∀ (more : List β) (es : List E), es.length = n →
  Q.run (Q.arrive s more) es = Q.arrive t (more ++ Q.stream es)

theorem settles_refl (Q : System S E β) (s : S) : Settles Q 0 s s := fun more es hes => by
  rw [List.length_eq_zero_iff.mp hes, System.stream, List.flatMap_nil, List.append_nil]
  rfl

theorem Settles.trans (h : Settles Q n s t) (h' : Settles Q k t u) : Settles Q (n + k) s u :=
  fun more es hes => by
    have hfirst : (es.take n).length = n := by
      rw [List.length_take, hes]
      exact Nat.min_eq_left (Nat.le_add_right n k)
    have hrest : (es.drop n).length = k := by
      rw [List.length_drop, hes]
      exact Nat.add_sub_cancel_left n k
    calc Q.run (Q.arrive s more) es
        = Q.run (Q.run (Q.arrive s more) (es.take n)) (es.drop n) := by
          rw [System.run, System.run, System.run, ← List.foldl_append, List.take_append_drop]
      _ = Q.run (Q.arrive t (more ++ Q.stream (es.take n))) (es.drop n) := by rw [h more _ hfirst]
      _ = Q.arrive u (more ++ Q.stream (es.take n) ++ Q.stream (es.drop n)) := h' _ _ hrest
      _ = Q.arrive u (more ++ Q.stream es) := by
          rw [List.append_assoc, System.stream, System.stream, ← List.flatMap_append,
            List.take_append_drop]
          rfl

theorem settles_one (h : ∀ more e, Q.step (Q.arrive s more) e = Q.arrive t (more ++ Q.arrived e)) :
    Settles Q 1 s t := fun more es hes => by
  obtain ⟨e, rfl⟩ := List.length_eq_one_iff.mp hes
  rw [System.stream, List.flatMap_singleton]
  exact h more e

/-- With nothing arrived before. -/
theorem Settles.run (h : Settles Q n s t) {es : List E} (hes : es.length = n) :
    Q.run s es = Q.arrive t (Q.stream es) := by
  have hrun := h [] es hes
  rwa [Q.arrive_nil] at hrun

end QueuedRun
