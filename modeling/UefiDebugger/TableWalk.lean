import Mathlib.Data.List.Infix

/-!
# Walks over tables of tables

A walk starts at a table and reads one entry on each level: the entry says that nothing is mapped,
names the table of the next level, or is a leaf.  A `Scheme` says where the entry of a level is and
how it is decoded; a scheme may also refuse to look at all.  `walk` keeps what it visited, so that
statements about the entries read and about the answer are statements about one value.

Two schemes that decode alike but look in different places agree on a walk exactly when they look in
the same place on every level they reach (`walk_agrees_iff`).
-/
namespace TableWalk

/-- What an entry says. -/
inductive Outcome (β : Type) where
  | absent
  | next (table : β)
  | leaf

/-- How the levels `ι` are walked: tables are named by a `β`, entries of type `ε` are found at a
`π`. -/
structure Scheme (ι β π ε : Type) where
  place : ι → β → Option π
  decode : ι → ε → Outcome β

/-- One entry read. -/
structure Visit (ι β π ε : Type) where
  level : ι
  table : β
  place : π
  entry : ε
deriving DecidableEq

/-- The entries read, in order, and the leaf, if the last of them is one. -/
structure Trail (ι β π ε : Type) where
  visits : List (Visit ι β π ε)
  leaf : Option ε

/-! ## Tables in a byte memory -/

/-- The eight bytes at `p`, the lowest first. -/
def load64 (memory : Nat → UInt8) (p : Nat) : UInt64 :=
  (List.range 8).foldr (fun i rest => rest <<< 8 ||| (memory (p + i)).toUInt64) 0

/-- Memory that holds the given entries, as eight bytes each, and zeros. -/
def holding (entries : List (Nat × UInt64)) (p : Nat) : UInt8 :=
  match entries.find? fun e => e.1 ≤ p ∧ p < e.1 + 8 with
  | some e => (e.2 >>> (8 * (p - e.1)).toUInt64).toUInt8
  | none => 0

/-! ## The walk -/

variable {ι β π ε : Type}

namespace Trail

/-- The trail of a walk that reads `v` before it goes on as `t`. -/
def after (v : Visit ι β π ε) (t : Trail ι β π ε) : Trail ι β π ε := ⟨v :: t.visits, t.leaf⟩

/-- Where entries were read. -/
def places (t : Trail ι β π ε) : List π := t.visits.map Visit.place

/-- The walk ended at a leaf. -/
def found (t : Trail ι β π ε) : Bool := t.leaf.isSome

@[simp] theorem leaf_after (v : Visit ι β π ε) (t : Trail ι β π ε) : (t.after v).leaf = t.leaf :=
  rfl

@[simp] theorem found_after (v : Visit ι β π ε) (t : Trail ι β π ε) : (t.after v).found = t.found :=
  rfl

@[simp] theorem visits_after (v : Visit ι β π ε) (t : Trail ι β π ε) :
    (t.after v).visits = v :: t.visits := rfl

@[simp] theorem places_after (v : Visit ι β π ε) (t : Trail ι β π ε) :
    (t.after v).places = v.place :: t.places := rfl

end Trail

/-- The walk over `levels` from `table` in a memory read by `fetch`. -/
def walk (S : Scheme ι β π ε) (fetch : π → ε) : List ι → β → Trail ι β π ε
  | [], _ => ⟨[], none⟩
  | level :: rest, table =>
    match S.place level table with
    | none => ⟨[], none⟩
    | some p =>
      match S.decode level (fetch p) with
      | .absent => ⟨[⟨level, table, p, fetch p⟩], none⟩
      | .leaf => ⟨[⟨level, table, p, fetch p⟩], some (fetch p)⟩
      | .next table' => (walk S fetch rest table').after ⟨level, table, p, fetch p⟩

section Equations
variable {S : Scheme ι β π ε} {fetch : π → ε} {level : ι} {rest : List ι} {table table' : β} {p : π}

theorem walk_refused (h : S.place level table = none) :
    walk S fetch (level :: rest) table = ⟨[], none⟩ := by
  simp [walk, h]

theorem walk_absent (h : S.place level table = some p) (hd : S.decode level (fetch p) = .absent) :
    walk S fetch (level :: rest) table = ⟨[⟨level, table, p, fetch p⟩], none⟩ := by
  simp [walk, h, hd]

theorem walk_leaf (h : S.place level table = some p) (hd : S.decode level (fetch p) = .leaf) :
    walk S fetch (level :: rest) table = ⟨[⟨level, table, p, fetch p⟩], some (fetch p)⟩ := by
  simp [walk, h, hd]

theorem walk_next (h : S.place level table = some p)
    (hd : S.decode level (fetch p) = .next table') :
    walk S fetch (level :: rest) table =
      (walk S fetch rest table').after ⟨level, table, p, fetch p⟩ := by
  simp [walk, h, hd]

end Equations

/-! ## What a walk visits -/

/-- Every entry is read where the scheme puts it. -/
theorem mem_walk {S : Scheme ι β π ε} {fetch : π → ε} {levels : List ι} {table : β}
    {v : Visit ι β π ε} (hv : v ∈ (walk S fetch levels table).visits) :
    v.level ∈ levels ∧ S.place v.level v.table = some v.place ∧ v.entry = fetch v.place := by
  induction levels generalizing table with
  | nil => simp [walk] at hv
  | cons level rest ih =>
    cases hp : S.place level table with
    | none => simp [walk_refused hp] at hv
    | some p =>
      have head : v = ⟨level, table, p, fetch p⟩ → v.level ∈ level :: rest ∧
          S.place v.level v.table = some v.place ∧ v.entry = fetch v.place := by
        rintro rfl
        exact ⟨List.mem_cons_self, hp, rfl⟩
      cases hd : S.decode level (fetch p) with
      | absent =>
        rw [walk_absent hp hd] at hv
        exact head (List.mem_singleton.mp hv)
      | leaf =>
        rw [walk_leaf hp hd] at hv
        exact head (List.mem_singleton.mp hv)
      | next table' =>
        rw [walk_next hp hd, Trail.visits_after] at hv
        rcases List.mem_cons.mp hv with rfl | hv
        · exact head rfl
        · obtain ⟨hl, hrest⟩ := ih hv
          exact ⟨List.mem_cons_of_mem _ hl, hrest⟩

/-- The first place is the one the scheme gives. -/
theorem head_places {S : Scheme ι β π ε} (fetch : π → ε) {level : ι} (rest : List ι)
    {table : β} {p : π} (hp : S.place level table = some p) :
    (walk S fetch (level :: rest) table).places.head? = some p := by
  cases hd : S.decode level (fetch p) with
  | absent => simp [walk_absent hp hd, Trail.places]
  | leaf => simp [walk_leaf hp hd, Trail.places]
  | next table' => simp [walk_next hp hd, Trail.places]

/-- The first level is visited, in the table the walk was given. -/
theorem head_mem_walk {S : Scheme ι β π ε} (fetch : π → ε) {level : ι} (rest : List ι)
    {table : β} {p : π} (hp : S.place level table = some p) :
    ⟨level, table, p, fetch p⟩ ∈ (walk S fetch (level :: rest) table).visits := by
  cases hd : S.decode level (fetch p) with
  | absent => simp [walk_absent hp hd]
  | leaf => simp [walk_leaf hp hd]
  | next table' => simp [walk_next hp hd]

/-- What holds of the first table and of every table an entry names holds of all tables visited. -/
theorem forall_table {S : Scheme ι β π ε} {fetch : π → ε} {levels : List ι} {table : β}
    {P : β → Prop} (hfirst : P table)
    (hnext : ∀ level e table', S.decode level e = .next table' → P table') {v : Visit ι β π ε}
    (hv : v ∈ (walk S fetch levels table).visits) : P v.table := by
  induction levels generalizing table with
  | nil => simp [walk] at hv
  | cons level rest ih =>
    cases hp : S.place level table with
    | none => simp [walk_refused hp] at hv
    | some p =>
      cases hd : S.decode level (fetch p) with
      | absent =>
        rw [walk_absent hp hd] at hv
        rw [List.mem_singleton.mp hv]
        exact hfirst
      | leaf =>
        rw [walk_leaf hp hd] at hv
        rw [List.mem_singleton.mp hv]
        exact hfirst
      | next table' =>
        rw [walk_next hp hd, Trail.visits_after] at hv
        rcases List.mem_cons.mp hv with rfl | hv
        · exact hfirst
        · exact ih (hnext _ _ _ hd) hv

/-- A walk only depends on where its scheme looks on the levels it is given. -/
theorem walk_congr {S T : Scheme ι β π ε} (hdecode : S.decode = T.decode) {fetch : π → ε}
    {levels : List ι} (h : ∀ level ∈ levels, S.place level = T.place level) (table : β) :
    walk S fetch levels table = walk T fetch levels table := by
  induction levels generalizing table with
  | nil => rfl
  | cons level rest ih =>
    have hrest := ih fun l hl => h l (List.mem_cons_of_mem _ hl)
    simp only [walk, hdecode, h level List.mem_cons_self, hrest]

/-- Two schemes that place and decode alike what the walk of `T` visits make the same walk, if `T`
looks everywhere. -/
theorem walk_eq_of_visits {S T : Scheme ι β π ε} (hT : ∀ level table, (T.place level table).isSome)
    {fetch : π → ε} {levels : List ι} {table : β}
    (hplace : ∀ v ∈ (walk T fetch levels table).visits, S.place v.level v.table = some v.place)
    (hdecode : ∀ v ∈ (walk T fetch levels table).visits,
      S.decode v.level v.entry = T.decode v.level v.entry) :
    walk S fetch levels table = walk T fetch levels table := by
  induction levels generalizing table with
  | nil => rfl
  | cons level rest ih =>
    obtain ⟨p, hp⟩ := Option.isSome_iff_exists.mp (hT level table)
    have hfirst := head_mem_walk fetch rest hp
    have hS : S.place level table = some p := hplace _ hfirst
    have hSd : S.decode level (fetch p) = T.decode level (fetch p) := hdecode _ hfirst
    cases hd : T.decode level (fetch p) with
    | absent => rw [walk_absent hp hd, walk_absent hS (hSd.trans hd)]
    | leaf => rw [walk_leaf hp hd, walk_leaf hS (hSd.trans hd)]
    | next table' =>
      have hvisits : (walk T fetch (level :: rest) table).visits =
          ⟨level, table, p, fetch p⟩ :: (walk T fetch rest table').visits := by
        rw [walk_next hp hd, Trail.visits_after]
      rw [hvisits] at hplace hdecode
      rw [walk_next hp hd, walk_next hS (hSd.trans hd),
        ih (fun v hv => hplace v (List.mem_cons_of_mem _ hv))
          fun v hv => hdecode v (List.mem_cons_of_mem _ hv)]

/-! ## Walks over changing memory -/

section Changing
variable {S : Scheme ι β π ε} {fetch fetch' : π → ε}

/-- A walk only depends on the entries it reads. -/
theorem walk_fetch_congr {levels : List ι} {table : β}
    (h : ∀ v ∈ (walk S fetch levels table).visits, fetch' v.place = fetch v.place) :
    walk S fetch' levels table = walk S fetch levels table := by
  induction levels generalizing table with
  | nil => rfl
  | cons level rest ih =>
    cases hp : S.place level table with
    | none => rw [walk_refused hp, walk_refused hp]
    | some p =>
      have hhead : fetch' p = fetch p := h _ (head_mem_walk fetch rest hp)
      cases hd : S.decode level (fetch p) with
      | absent => rw [walk_absent hp hd, walk_absent hp (hhead ▸ hd), hhead]
      | leaf => rw [walk_leaf hp hd, walk_leaf hp (hhead ▸ hd), hhead]
      | next table' =>
        rw [walk_next hp hd, walk_next hp (hhead ▸ hd), hhead, ih]
        intro v hv
        refine h v ?_
        rw [walk_next hp hd]
        exact List.mem_cons_of_mem _ hv

/-- The leaf is the entry of the last visit. -/
theorem visits_of_leaf {levels : List ι} {table : β} {e : ε}
    (h : (walk S fetch levels table).leaf = some e) :
    ∃ v, (walk S fetch levels table).visits = (walk S fetch levels table).visits.dropLast ++ [v] ∧
    v.entry = e := by
  induction levels generalizing table with
  | nil => cases h
  | cons level rest ih =>
    cases hp : S.place level table with
    | none =>
      rw [walk_refused hp] at h
      cases h
    | some p =>
      cases hd : S.decode level (fetch p) with
      | absent =>
        rw [walk_absent hp hd] at h
        cases h
      | leaf =>
        rw [walk_leaf hp hd] at h ⊢
        exact ⟨_, rfl, Option.some.inj h⟩
      | next table' =>
        rw [walk_next hp hd] at h ⊢
        obtain ⟨v, hvisits, hv⟩ := ih h
        refine ⟨v, ?_, hv⟩
        rw [Trail.visits_after, hvisits, ← List.cons_append, List.dropLast_concat]

theorem load64_congr {m m' : Nat → UInt8} {p : Nat} (h : ∀ i < 8, m' (p + i) = m (p + i)) :
    load64 m' p = load64 m p := by
  have hall : ∀ is : List Nat, (∀ i ∈ is, i < 8) →
      is.foldr (fun i (rest : UInt64) => rest <<< 8 ||| (m' (p + i)).toUInt64) 0 =
        is.foldr (fun i (rest : UInt64) => rest <<< 8 ||| (m (p + i)).toUInt64) 0 := by
    intro is
    induction is with
    | nil => exact fun _ => rfl
    | cons i is ih =>
      intro hlt
      rw [List.foldr_cons, List.foldr_cons, ih fun j hj => hlt j (List.mem_cons_of_mem _ hj),
        h i (hlt i (List.mem_cons_self ..))]
  exact hall (List.range 8) fun i hi => List.mem_range.mp hi

end Changing

/-! ## Two schemes -/

/-- `S` looks where `T` looks, on every level the walk reaches; where `S` refuses to look, `T` finds
nothing. -/
def Agree (S T : Scheme ι β π ε) (fetch : π → ε) : List ι → β → Prop
  | [], _ => True
  | level :: rest, table =>
    match S.place level table with
    | none => (walk T fetch (level :: rest) table).found = false
    | some p => T.place level table = some p ∧
        ∀ table', S.decode level (fetch p) = .next table' → Agree S T fetch rest table'

/-- The answers are the same, and nothing is read that the other walk does not read in its turn. -/
def Follows (t u : Trail ι β π ε) : Prop := t.found = u.found ∧ t.places <+: u.places

/-- Schemes with the same entries agree on a walk exactly when they look in the same places. -/
theorem walk_agrees_iff {S T : Scheme ι β π ε} (hdecode : S.decode = T.decode) {fetch : π → ε}
    {levels : List ι} {table : β} :
    Follows (walk S fetch levels table) (walk T fetch levels table) ↔
    Agree S T fetch levels table := by
  induction levels generalizing table with
  | nil => simp [walk, Agree, Follows]
  | cons level rest ih =>
    cases hp : S.place level table with
    | none =>
      simp only [walk_refused hp, Agree, hp, Follows]
      exact ⟨fun h => h.1.symm, fun h => ⟨h.symm, List.nil_prefix⟩⟩
    | some p =>
      simp only [Agree, hp]
      by_cases hT : T.place level table = some p
      · cases hd : S.decode level (fetch p) with
        | absent => simp [walk_absent hp hd, walk_absent hT (hdecode ▸ hd), hT, Follows]
        | leaf => simp [walk_leaf hp hd, walk_leaf hT (hdecode ▸ hd), hT, Follows]
        | next table' =>
          have step : Follows (walk S fetch (level :: rest) table)
              (walk T fetch (level :: rest) table) ↔
              Follows (walk S fetch rest table') (walk T fetch rest table') := by
            rw [walk_next hp hd, walk_next hT (hdecode ▸ hd)]
            simp [Follows]
          rw [step, ih]
          refine ⟨fun h => ⟨hT, ?_⟩, fun h => h.2 table' rfl⟩
          rintro _ ⟨⟩
          exact h
      · -- the first place differs, so the reads of `S` are no prefix
        refine iff_of_false ?_ fun h => hT h.1
        rintro ⟨-, hprefix⟩
        obtain ⟨places, hS⟩ := List.head?_eq_some_iff.mp (head_places fetch rest hp)
        obtain ⟨more, hmore⟩ := hprefix
        rw [hS, List.cons_append] at hmore
        have hhead := congrArg List.head? hmore
        cases hq : T.place level table with
        | none => simp [walk_refused hq, Trail.places] at hhead
        | some q =>
          rw [head_places fetch rest hq, List.head?_cons] at hhead
          exact hT (hq.trans hhead.symm)

/-- The visits before the first one that `S` refuses. -/
def accepted (S : Scheme ι β π ε) (visits : List (Visit ι β π ε)) : List (Visit ι β π ε) :=
  visits.takeWhile fun v => (S.place v.level v.table).isSome

/-- Seen from the walk of `T`, which looks everywhere: `S` looks in the same places up to its first
refusal, and a walk it refuses to go on with finds nothing. -/
theorem agree_iff_visits {S T : Scheme ι β π ε} (hdecode : S.decode = T.decode)
    (hT : ∀ level table, (T.place level table).isSome) {fetch : π → ε} {levels : List ι}
    {table : β} : Agree S T fetch levels table ↔
      (∀ v ∈ accepted S (walk T fetch levels table).visits,
        S.place v.level v.table = some v.place) ∧
      (accepted S (walk T fetch levels table).visits = (walk T fetch levels table).visits ∨
        (walk T fetch levels table).found = false) := by
  induction levels generalizing table with
  | nil => simp [Agree, walk, accepted]
  | cons level rest ih =>
    obtain ⟨q, hq⟩ := Option.isSome_iff_exists.mp (hT level table)
    cases hp : S.place level table with
    | none =>
      simp only [Agree, hp]
      cases hd : T.decode level (fetch q) with
      | absent => simp [walk_absent hq hd, accepted, hp]
      | leaf => simp [walk_leaf hq hd, accepted, hp]
      | next table' => simp [walk_next hq hd, accepted, hp]
    | some p =>
      simp only [Agree, hp, hq, Option.some.injEq]
      by_cases hpq : p = q
      · subst hpq
        cases hd : T.decode level (fetch p) with
        | absent => simp [walk_absent hq hd, accepted, hp, hdecode, hd]
        | leaf => simp [walk_leaf hq hd, accepted, hp, hdecode, hd]
        | next table' => simp [walk_next hq hd, accepted, hp, hdecode, hd, ih]
      · refine iff_of_false (fun h => hpq h.1.symm) fun h => ?_
        have first := h.1 ⟨level, table, q, fetch q⟩ ?_
        · exact hpq (Option.some.inj (hp.symm.trans first))
        · cases hd : T.decode level (fetch q) with
          | absent => simp [walk_absent hq hd, accepted, hp]
          | leaf => simp [walk_leaf hq hd, accepted, hp]
          | next table' => simp [walk_next hq hd, accepted, hp]

/-- Where `S` refuses or looks in the same place, its walk is that of `T` up to the first
refusal. -/
theorem walk_eq_accepted {S T : Scheme ι β π ε} (hdecode : S.decode = T.decode) {fetch : π → ε}
    {levels : List ι} {table : β}
    (h : ∀ v ∈ (walk T fetch levels table).visits,
      S.place v.level v.table = none ∨ S.place v.level v.table = some v.place)
    (hT : ∀ level table, (T.place level table).isSome) :
    walk S fetch levels table = ⟨accepted S (walk T fetch levels table).visits,
      if ∀ v ∈ (walk T fetch levels table).visits, (S.place v.level v.table).isSome
      then (walk T fetch levels table).leaf else none⟩ := by
  induction levels generalizing table with
  | nil => simp [walk, accepted]
  | cons level rest ih =>
    obtain ⟨q, hq⟩ := Option.isSome_iff_exists.mp (hT level table)
    cases hd : T.decode level (fetch q) with
    | absent =>
      rw [walk_absent hq hd] at h ⊢
      rcases h _ List.mem_cons_self with hp | hp
      · simp [walk_refused hp, accepted, hp]
      · simp [walk_absent hp (hdecode ▸ hd), accepted, hp]
    | leaf =>
      rw [walk_leaf hq hd] at h ⊢
      rcases h _ List.mem_cons_self with hp | hp
      · simp [walk_refused hp, accepted, hp]
      · simp [walk_leaf hp (hdecode ▸ hd), accepted, hp]
    | next table' =>
      rw [walk_next hq hd] at h ⊢
      rcases h _ List.mem_cons_self with hp | hp
      · simp [walk_refused hp, accepted, hp]
      · rw [walk_next hp (hdecode ▸ hd), ih fun v hv => h v (List.mem_cons_of_mem _ hv)]
        simp [accepted, hp, Trail.after]

end TableWalk
