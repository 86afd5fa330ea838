import UefiDebugger.PageTransfer

/-!
# Page attributes

The attribute services keep a set of attributes for each page, as the bits of a word.  Opening a
page may weaken its set; closing it puts back what was read.  Whatever fails on the way, an access
leaves every page with the attributes it had.
-/
namespace UefiDebugger
open StateEffect

variable {τ : Type}

/-! ## Services over sets of attributes -/

/-- What the services do with the attributes of the pages: getting returns the set of the page,
clearing removes bits from it and setting adds them.  Getting and clearing may fail, and then change
nothing; setting bits that were read back succeeds. -/
structure AttributeSets (A : AttributeService τ) where
  attributes : τ → Nat → UInt64
  /-- The bits were read of the page before. -/
  ReadBack : τ → Nat → UInt64 → Prop
  get_keeps : ∀ p t, attributes (A.getMemoryAttributes p t).2 = attributes t
  get_returns : ∀ p t b, (A.getMemoryAttributes p t).1 = some b → b = attributes t p
  get_readBack : ∀ p t b, (A.getMemoryAttributes p t).1 = some b →
    ReadBack (A.getMemoryAttributes p t).2 p b
  clear_fails : ∀ p m t, (A.clearMemoryAttributes p m t).1 = false →
    attributes (A.clearMemoryAttributes p m t).2 = attributes t
  clear_removes : ∀ p m t, (A.clearMemoryAttributes p m t).1 = true →
    attributes (A.clearMemoryAttributes p m t).2 = Function.update (attributes t) p
    (attributes t p &&& ~~~m)
  clear_readBack : ∀ p m t b, ReadBack t p b → ReadBack (A.clearMemoryAttributes p m t).2 p b
  set_adds : ∀ p t b, ReadBack t p b →
    attributes (A.setMemoryAttributes p b t).2 = Function.update (attributes t) p
    (attributes t p ||| b)

/-- Removing some of the bits of a set and adding the set gives it back. -/
theorem clear_then_set (b m : UInt64) : (b &&& ~~~m) ||| b = b := by
  apply UInt64.eq_of_toBitVec_eq
  apply BitVec.eq_of_getLsbD_eq
  intro i hi
  simp only [UInt64.toBitVec_or, UInt64.toBitVec_and, BitVec.getLsbD_or, BitVec.getLsbD_and]
  cases b.toBitVec.getLsbD i <;> simp

/-! ## One page -/

section Page
variable {A : AttributeService τ} (L : AttributeSets A)

/-- After a page was opened: unless it says otherwise, its attributes are as they were; else they
were weakened, and putting back what it says gives them back. -/
def Weakened (page : Nat) (t t' : τ) : Option (Option UInt64) → Prop
  | some (some b) => L.ReadBack t' page b ∧ b = L.attributes t page ∧
      ∃ m, L.attributes t' = Function.update (L.attributes t) page (b &&& ~~~m)
  | _ => L.attributes t' = L.attributes t

variable {L}

/-- Clearing bits of a set just read. -/
theorem weakened_clear {page : Nat} {t : τ} {b m : UInt64}
    (hread : (A.getMemoryAttributes page t).1 = some b) :
    let r := A.clearMemoryAttributes page m (A.getMemoryAttributes page t).2
    Weakened L page t r.2 (if r.1 = true then some (some b) else none) := by
  intro r
  have hkeeps := L.get_keeps page t
  cases hr : r.1 with
  | true =>
    have hremoves := L.clear_removes page m _ hr
    have hb := L.get_returns page t b hread
    rw [if_pos rfl]
    refine ⟨L.clear_readBack page m _ b (L.get_readBack page t b hread), hb, m, ?_⟩
    rw [hremoves, hkeeps, hb]
  | false =>
    have hfails := L.clear_fails page m _ hr
    rw [if_neg Bool.false_ne_true]
    exact hfails.trans hkeeps

/-- A page that is opened and closed again has its attributes. -/
theorem attributes_closePage {a : Nat} {t : τ} {s : PagedMachine τ} {changed : Option UInt64}
    (h : Weakened L (pageBase a) t s.world (some changed)) :
    L.attributes ((closePage (some A) a changed).run s).2.world = L.attributes t := by
  cases changed with
  | none => exact h
  | some b =>
    obtain ⟨hread, rfl, m, hweak⟩ := h
    have hset := L.set_adds (pageBase a) s.world _ hread
    show L.attributes (A.setMemoryAttributes (pageBase a) _ s.world).2 = _
    rw [hset, hweak, Function.update_self, Function.update_idem, clear_then_set,
      Function.update_eq_self]

end Page

/-! ## The phases -/

section Phases
variable {A : AttributeService τ} {L : AttributeSets A}

/-- Opening a page weakens at most its attributes. -/
def OpensWeakened (L : AttributeSets A) (openPage : OpenPage τ) : Prop := ∀ a s,
  Weakened L (pageBase a) s.world ((openPage a).run s).2.world ((openPage a).run s).1

theorem opensWeakened_recorded {check : OpenPage τ} (h : OpensWeakened L check) :
    OpensWeakened L (recorded check) :=
  fun a s => h a s

/-- A page of which `mask` is cleared, or that is left as it is. -/
theorem weakened_check {a : Nat} {s : PagedMachine τ} {b mask : UInt64}
    (hread : (A.getMemoryAttributes (pageBase a) s.world).1 = some b) :
    let s₁ : PagedMachine τ := { s with world := (A.getMemoryAttributes (pageBase a) s.world).2 }
    let r := (do
      let cleared ← callService (A.clearMemoryAttributes (pageBase a) mask)
      if cleared = true then pure (some (some b))
      else pure none : PagedM τ (Option (Option UInt64))).run s₁
    Weakened L (pageBase a) s.world r.2.world r.1 := by
  intro s₁ r
  have hclear := weakened_clear (L := L) (m := mask) hread
  have hr : r = (if (A.clearMemoryAttributes (pageBase a) mask s₁.world).1 = true then some (some b)
      else none, { s₁ with world := (A.clearMemoryAttributes (pageBase a) mask s₁.world).2 }) := by
    show (if _ then pure _ else pure _ : PagedM τ _).run _ = _
    split
    · rfl
    · rfl
  rw [hr]
  exact hclear

theorem Dxe.opensWeakened (C : PageChecks τ) (Write : Bool) :
    OpensWeakened L (Dxe.openPage ⟨C, some A⟩ Write) := by
  refine opensWeakened_recorded fun a s => ?_
  have hkeeps := L.get_keeps (pageBase a) s.world
  show Weakened L (pageBase a) s.world ((Dxe.openByAttributes A Write a).run s).2.world
    ((Dxe.openByAttributes A Write a).run s).1
  rw [Dxe.openByAttributes, run_bind]
  cases hread : (A.getMemoryAttributes (pageBase a) s.world).1 with
  | none =>
    rw [show ((callService (A.getMemoryAttributes (pageBase a))).run s).1 = none from hread]
    exact hkeeps
  | some b =>
    rw [show ((callService (A.getMemoryAttributes (pageBase a))).run s).1 = some b from hread]
    dsimp only
    rw [run_ite, run_ite]
    split
    · exact hkeeps
    · split
      · exact weakened_check hread
      · exact hkeeps

theorem Mm.opensWeakened (Write : Bool) : OpensWeakened L (Mm.openPage A Write) := by
  refine opensWeakened_recorded fun a s => ?_
  have hkeeps := L.get_keeps (pageBase a) s.world
  rw [Mm.openByAttributes, run_bind]
  cases hread : (A.getMemoryAttributes (pageBase a) s.world).1 with
  | none =>
    rw [show ((callService (A.getMemoryAttributes (pageBase a))).run s).1 = none from hread]
    exact hkeeps
  | some b =>
    rw [show ((callService (A.getMemoryAttributes (pageBase a))).run s).1 = some b from hread]
    dsimp only
    rw [run_ite, run_ite]
    split
    · exact weakened_check hread
    · split
      · exact weakened_check hread
      · exact hkeeps

/-- One round leaves the attributes as they were, and so does the loop. -/
theorem attributes_accessLoop {openPage : OpenPage τ} (hopen : OpensWeakened L openPage)
    (Write : Bool) : ∀ fuel a d l, Keeps (fun s : PagedMachine τ => L.attributes s.world)
      (accessLoop (some A) openPage Write fuel a d l) := by
  intro fuel
  induction fuel with
  | zero => exact fun _ _ _ => keeps_pure _
  | succ fuel ih =>
    intro a d l
    refine keeps_ite (keeps_pure _) fun s => ?_
    rw [run_bind]
    have hweak := hopen a s
    cases hopened : ((openPage a).run s).1 with
    | none =>
      rw [hopened] at hweak
      exact hweak
    | some changed =>
      rw [hopened] at hweak
      dsimp only
      rw [run_bind, run_bind]
      refine (ih _ _ _ _).trans ?_
      exact attributes_closePage
        (s := ((copyMem Write a d (lengthInPage a l)).run ((openPage a).run s).2).2) hweak

/-- **Page attributes survive a debugger access**, successful or not, in DXE with the protocol and
in MM. -/
theorem attributes_survive_access (A : AttributeService τ) (L : AttributeSets A) (C : PageChecks τ)
    (Write : Bool) (Address Length : Nat) (s : PagedMachine τ) :
    L.attributes ((Dxe.accessMemory ⟨C, some A⟩ Write Address Length).run s).2.world =
    L.attributes s.world ∧ L.attributes ((Mm.accessMemory A Write Address Length).run s).2.world =
    L.attributes s.world :=
  ⟨attributes_accessLoop (Dxe.opensWeakened C Write) Write _ _ _ _ s,
    attributes_accessLoop (Mm.opensWeakened Write) Write _ _ _ _ s⟩

end Phases
/-! ## A service that fails as it is told -/

/-- The attributes of the pages, and of each call to come whether it fails. -/
structure PageSets where
  attributes : Nat → UInt64
  faults : List Bool

/-- The service on them. -/
def pageSetService : AttributeService PageSets where
  getMemoryAttributes p t :=
    (if t.faults.headD false = true then none else some (t.attributes p),
      { t with faults := t.faults.tail })
  clearMemoryAttributes p m t :=
    if t.faults.headD false = true then (false, { t with faults := t.faults.tail })
    else (true, ⟨Function.update t.attributes p (t.attributes p &&& ~~~m), t.faults.tail⟩)
  setMemoryAttributes p m t :=
    (true, { t with attributes := Function.update t.attributes p (t.attributes p ||| m) })

/-- It is one over sets of attributes. -/
def pageSets : AttributeSets pageSetService where
  attributes := PageSets.attributes
  ReadBack _ _ _ := True
  get_keeps _ _ := rfl
  get_returns p t b h := by
    unfold pageSetService at h
    dsimp only at h
    split at h
    · cases h
    · exact (Option.some.inj h).symm
  get_readBack _ _ _ _ := trivial
  clear_fails p m t h := by
    unfold pageSetService at h ⊢
    dsimp only at h ⊢
    split at h
    · rw [if_pos ‹_›]
    · cases h
  clear_removes p m t h := by
    unfold pageSetService at h ⊢
    dsimp only at h ⊢
    split at h
    · cases h
    · rw [if_neg ‹_›]
  clear_readBack _ _ _ _ _ := trivial
  set_adds _ _ _ _ := rfl

/-- The page at `0x1000` is read-only. -/
def readOnlyPage : PagedMachine PageSets :=
  ⟨fun _ => 0, ⟨fun p => if p = 0x1000 then efiMemoryRo else 0, [false, false, true]⟩,
    fun _ => 1, []⟩

/-- A write into it and the next page is made in the first page, and fails at the second. -/
theorem attributes_survive_access_failed (C : PageChecks PageSets) :
    ((Dxe.accessMemory ⟨C, some pageSetService⟩ true 0x1FFE 4).run
      readOnlyPage).2.world.attributes = readOnlyPage.world.attributes :=
  (attributes_survive_access pageSetService pageSets C true 0x1FFE 4 readOnlyPage).1

end UefiDebugger
