import Mathlib.Logic.Basic

/-! # What a state program touches

Programs are `StateM σ` actions.  Two judgements about them are enough for a large stub: `Keeps π m`
says that `m` leaves the projection `π` of the state alone, and `Ensures pre m post` is the ordinary
pre- and postcondition triple.  Both are closed under the constructions a `do` block is made of, so
a fact about a long program is assembled from the facts about its parts, without running it.

-/
namespace StateEffect

variable {σ α β γ δ : Type}

/-! ## Running the constructions of a `do` block -/

@[simp high] theorem run_bind (m : StateM σ α) (f : α → StateM σ β) (s : σ) :
    (m >>= f).run s = (f (m.run s).1).run (m.run s).2 := rfl

@[simp high] theorem run_pure (a : α) (s : σ) : (pure a : StateM σ α).run s = (a, s) := rfl

@[simp high] theorem run_map (f : α → β) (m : StateM σ α) (s : σ) :
    (f <$> m).run s = (f (m.run s).1, (m.run s).2) := rfl

@[simp high] theorem run_get (s : σ) : (get : StateM σ σ).run s = (s, s) := rfl

@[simp high] theorem run_modify (g : σ → σ) (s : σ) :
    (modify g : StateM σ PUnit).run s = (⟨⟩, g s) := rfl

@[simp high] theorem run_modifyGet (g : σ → α × σ) (s : σ) :
    (modifyGet g : StateM σ α).run s = g s := rfl

@[simp high] theorem run_ite (c : Prop) [Decidable c] (m n : StateM σ α) (s : σ) :
    (if c then m else n).run s = if c then m.run s else n.run s := by
  split <;> rfl

/-! ## Frames -/

/-- `m` leaves `π` of the state as it was. -/
def Keeps (π : σ → γ) (m : StateM σ α) : Prop := ∀ s, π (m.run s).2 = π s

section Frames
variable {π : σ → γ}

theorem keeps_pure (a : α) : Keeps π (pure a : StateM σ α) := fun _ => rfl

theorem keeps_bind {m : StateM σ α} {f : α → StateM σ β} (hm : Keeps π m)
    (hf : ∀ a, Keeps π (f a)) : Keeps π (m >>= f) := fun s => (hf _ _).trans (hm s)

theorem keeps_ite {c : Prop} [Decidable c] {m n : StateM σ α} (hm : Keeps π m)
    (hn : Keeps π n) : Keeps π (if c then m else n) := by
  split
  · exact hm
  · exact hn

/-- The branches may be looked at under their conditions. -/
theorem keeps_dite {c : Prop} [Decidable c] {m n : StateM σ α} (hm : c → Keeps π m)
    (hn : ¬ c → Keeps π n) : Keeps π (if c then m else n) := by
  split
  · exact hm ‹_›
  · exact hn ‹_›

theorem keeps_get : Keeps π (get : StateM σ σ) := fun _ => rfl

theorem keeps_modify {g : σ → σ} (h : ∀ s, π (g s) = π s) :
    Keeps π (modify g : StateM σ PUnit) := h

theorem keeps_modifyGet {g : σ → α × σ} (h : ∀ s, π (g s).2 = π s) :
    Keeps π (modifyGet g : StateM σ α) := h

/-- What is computed from a kept projection is kept. -/
theorem Keeps.map {m : StateM σ α} (f : γ → δ) (h : Keeps π m) : Keeps (fun s => f (π s)) m :=
  fun s => congrArg f (h s)

end Frames

/-! ## Triples -/

/-- From a state satisfying `pre`, `m` returns a value and a state related by `post`.  A property
that `m` maintains is one with `pre` as its `post`. -/
def Ensures (pre : σ → Prop) (m : StateM σ α) (post : α → σ → Prop) : Prop :=
  ∀ s, pre s → post (m.run s).1 (m.run s).2

section Triples
variable {pre : σ → Prop}

theorem ensures_pure {a : α} {post : α → σ → Prop} (h : ∀ s, pre s → post a s) :
    Ensures pre (pure a : StateM σ α) post := h

theorem ensures_get : Ensures pre (get : StateM σ σ) fun _ => pre := fun _ hs => hs

theorem ensures_bind {m : StateM σ α} {f : α → StateM σ β} {mid : α → σ → Prop}
    {post : β → σ → Prop} (hm : Ensures pre m mid) (hf : ∀ a, Ensures (mid a) (f a) post) :
    Ensures pre (m >>= f) post := fun s hs => hf _ _ (hm s hs)

theorem ensures_ite {c : Prop} [Decidable c] {m n : StateM σ α} {post : α → σ → Prop}
    (hm : c → Ensures pre m post) (hn : ¬ c → Ensures pre n post) :
    Ensures pre (if c then m else n) post := by
  split
  · exact hm ‹_›
  · exact hn ‹_›

/-- A fact that does not depend on the state is a hypothesis of the rest. -/
theorem ensures_fact {p : Prop} {m : StateM σ α} {post : α → σ → Prop}
    (h : p → Ensures pre m post) : Ensures (fun s => pre s ∧ p) m post := fun s hs => h hs.2 s hs.1

/-- An invariant that only looks at a kept projection survives. -/
theorem Keeps.ensures {π : σ → γ} {m : StateM σ α} (h : Keeps π m) (I : γ → Prop) :
    Ensures (fun s => I (π s)) m (fun _ s => I (π s)) := fun s hs => by
  show I (π (m.run s).2)
  rw [h s]
  exact hs

end Triples

/-! ## Every step of a run

A system takes one step for each event; a step need not be possible, and may go several ways. -/

section Every
variable {ε : Type} {step : ε → σ → σ → Prop} {Q Q' : ε → σ → Prop}

/-- On every way through the events from a state, each step that is reached has the property `Q`
where it is taken. -/
def Every (step : ε → σ → σ → Prop) (Q : ε → σ → Prop) : σ → List ε → Prop
  | _, [] => True
  | s, e :: events => Q e s ∧ ∀ s', step e s s' → Every step Q s' events

/-- Properties that agree at every step agree on every run. -/
theorem every_congr (h : ∀ e s, Q e s ↔ Q' e s) : ∀ (events : List ε) (s : σ),
    Every step Q s events ↔ Every step Q' s events := by
  intro events
  induction events with
  | nil => exact fun _ => Iff.rfl
  | cons e events ih =>
    exact fun s => and_congr (h e s) (forall_congr' fun s' => imp_congr Iff.rfl (ih s'))

end Every

end StateEffect
