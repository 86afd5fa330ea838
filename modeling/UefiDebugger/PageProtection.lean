import UefiDebugger.FaultFreeAccess
import UefiDebugger.PageAttributes

/-!
# Pages and their protection

`AccessMemory` where the attributes of a page decide: in DXE with the Memory Attribute Protocol, and
in MM.  DXE takes a read-protected page for one that is not there and lifts the protection from
writes; MM lifts both.  What an access may do is the same in both: a byte is copied only while the
attributes of its page permit it, at most that one page has other attributes than before, and in the
end none has.
-/
namespace UefiDebugger
open StateEffect

variable {τ : Type}

/-! ## Permission -/

section Permission
variable {A : AttributeService τ} (L : AttributeSets A) {Write : Bool}

/-- The attributes of a page permit an access. -/
def Permits (Write : Bool) (t : τ) (page : Nat) : Prop :=
  L.attributes t page &&& efiMemoryRp = 0 ∧ (Write = true → L.attributes t page &&& efiMemoryRo = 0)

/-- A page that was opened permits the access. -/
def OpensPermitted (Write : Bool) (openPage : OpenPage τ) : Prop := ∀ a s,
  ((openPage a).run s).1.isSome = true → Permits L Write ((openPage a).run s).2.world (pageBase a)

/-- A bit is clear when it was cleared, or was clear before. -/
theorem cleared_bits {b m k : UInt64} (h : k &&& ~~~m = 0 ∨ b &&& k = 0) :
    b &&& ~~~m &&& k = 0 := by
  rcases h with h | h
  · rw [UInt64.and_assoc, UInt64.and_comm (~~~m), h, UInt64.and_zero]
  · rw [UInt64.and_assoc, UInt64.and_comm (~~~m), ← UInt64.and_assoc, h, UInt64.zero_and]

variable {L}

theorem permits_of_attributes {t t' : τ} {page : Nat} (h : L.attributes t = L.attributes t') :
    Permits L Write t page ↔ Permits L Write t' page := by
  rw [Permits, Permits, h]

/-- A page of which `mask` was cleared. -/
theorem permits_cleared {page : Nat} {s : PagedMachine τ} {b mask : UInt64}
    (hread : efiMemoryRp &&& ~~~mask = 0 ∨ L.attributes s.world page &&& efiMemoryRp = 0)
    (hwrite : Write = true → efiMemoryRo &&& ~~~mask = 0 ∨
      L.attributes s.world page &&& efiMemoryRo = 0) :
    let r := (do
      let cleared ← callService (A.clearMemoryAttributes page mask)
      if cleared = true then pure (some (some b))
      else pure none : PagedM τ (Option (Option UInt64))).run s
    r.1.isSome = true → Permits L Write r.2.world page := by
  intro r hsome
  have hr : r = (if (A.clearMemoryAttributes page mask s.world).1 = true then some (some b)
      else none, { s with world := (A.clearMemoryAttributes page mask s.world).2 }) := by
    show (if _ then pure _ else pure _ : PagedM τ _).run _ = _
    split
    · rfl
    · rfl
  cases hcleared : (A.clearMemoryAttributes page mask s.world).1 with
  | false =>
    rw [hr, hcleared] at hsome
    cases hsome
  | true =>
    have hremoves := L.clear_removes page mask s.world hcleared
    rw [Permits, hr, hremoves, Function.update_self]
    exact ⟨cleared_bits hread, fun h => cleared_bits (hwrite h)⟩

/-- What DXE opens, with the protocol. -/
theorem Dxe.opensPermitted (C : PageChecks τ) (Write : Bool) :
    OpensPermitted L Write (Dxe.openPage ⟨C, some A⟩ Write) := by
  intro a s
  show ((Dxe.openByAttributes A Write a).run s).1.isSome = true →
    Permits L Write ((Dxe.openByAttributes A Write a).run s).2.world (pageBase a)
  have hkeeps := L.get_keeps (pageBase a) s.world
  rw [Dxe.openByAttributes, run_bind]
  cases hread : (A.getMemoryAttributes (pageBase a) s.world).1 with
  | none =>
    rw [show ((callService (A.getMemoryAttributes (pageBase a))).run s).1 = none from hread]
    exact fun h => absurd h Bool.false_ne_true
  | some b =>
    rw [show ((callService (A.getMemoryAttributes (pageBase a))).run s).1 = some b from hread]
    obtain rfl := L.get_returns _ _ _ hread
    dsimp only
    rw [run_ite, run_ite]
    split
    · exact fun h => absurd h Bool.false_ne_true
    · rename_i hrp
      rw [not_not] at hrp
      split
      · rw [← hkeeps] at hrp
        exact permits_cleared (.inr hrp) fun _ => .inl (by decide)
      · rename_i hro
        exact fun _ =>
          (permits_of_attributes hkeeps).mpr ⟨hrp, fun hw => by_contra fun h => hro ⟨hw, h⟩⟩

/-- What MM opens. -/
theorem Mm.opensPermitted (Write : Bool) : OpensPermitted L Write (Mm.openPage A Write) := by
  intro a s
  show ((Mm.openByAttributes A Write a).run s).1.isSome = true →
    Permits L Write ((Mm.openByAttributes A Write a).run s).2.world (pageBase a)
  have hkeeps := L.get_keeps (pageBase a) s.world
  rw [Mm.openByAttributes, run_bind]
  cases hread : (A.getMemoryAttributes (pageBase a) s.world).1 with
  | none =>
    rw [show ((callService (A.getMemoryAttributes (pageBase a))).run s).1 = none from hread]
    exact fun h => absurd h Bool.false_ne_true
  | some b =>
    rw [show ((callService (A.getMemoryAttributes (pageBase a))).run s).1 = some b from hread]
    obtain rfl := L.get_returns _ _ _ hread
    dsimp only
    rw [run_ite, run_ite]
    split
    · exact permits_cleared (.inl (by decide)) fun _ => .inl (by decide)
    · rename_i hro
      have hwritable : Write = true → L.attributes s.world (pageBase a) &&& efiMemoryRo = 0 :=
        fun hw =>
        by_contra fun h => hro ⟨hw, h⟩
      split
      · -- Only the protection from reads is lifted; there was none from writes that matters.
        rw [← hkeeps] at hwritable
        exact permits_cleared (.inl (by decide)) fun hw => .inr (hwritable hw)
      · rename_i hrp
        rw [not_not] at hrp
        exact fun _ => (permits_of_attributes hkeeps).mpr ⟨hrp, hwritable⟩

end Permission

/-! ## The copies -/

section Copies
variable {A : AttributeService τ} {L : AttributeSets A} {openPage : OpenPage τ} {Write : Bool}

/-- A round gives the page its attributes back. -/
theorem attributes_afterCopy (hweak : OpensWeakened L openPage) {a d k : Nat} {s : PagedMachine τ}
    {changed : Option UInt64} (hopened : ((openPage a).run s).1 = some changed) :
    L.attributes (afterCopy (some A) Write a d k changed ((openPage a).run s).2).world =
    L.attributes s.world := by
  have hweakened := hweak a s
  rw [hopened] at hweakened
  exact attributes_closePage (s := ((copyMem Write a d k).run ((openPage a).run s).2).2) hweakened

/-- Each copy is made in a page that was opened for it, when all pages had the attributes they have
at first. -/
theorem opened_copiesOf (hweak : OpensWeakened L openPage) :
    ∀ (fuel a d l : Nat) (s : PagedMachine τ), ∀ c ∈ copiesOf (some A) openPage Write fuel a d l s,
    ∃ t, L.attributes t.world = L.attributes s.world ∧
    ((openPage c.address).run t).1.isSome = true ∧ c.machine = ((openPage c.address).run t).2 := by
  intro fuel
  induction fuel with
  | zero => intro a d l s c hc; cases hc
  | succ fuel ih =>
    intro a d l s c hc
    rw [copiesOf] at hc
    by_cases hl : l = 0
    · rw [if_pos hl] at hc
      cases hc
    · rw [if_neg hl] at hc
      cases hopened : ((openPage a).run s).1 with
      | none =>
        rw [hopened] at hc
        cases hc
      | some changed =>
        rw [hopened] at hc
        rcases List.mem_cons.mp hc with rfl | hc
        · exact ⟨s, rfl, by rw [hopened]; rfl, rfl⟩
        · obtain ⟨t, ht, hpassed, hmachine⟩ := ih _ _ _ _ c hc
          exact ⟨t, ht.trans (attributes_afterCopy hweak hopened), hpassed, hmachine⟩

/-- An opened page alone may have other attributes. -/
theorem attributes_opened (hweak : OpensWeakened L openPage) {a p : Nat} (s : PagedMachine τ)
    (hp : p ≠ pageBase a) :
    L.attributes ((openPage a).run s).2.world p = L.attributes s.world p := by
  have hweakened := hweak a s
  cases hopened : ((openPage a).run s).1 with
  | none =>
    rw [hopened] at hweakened
    exact congrFun hweakened p
  | some changed =>
    rw [hopened] at hweakened
    cases changed with
    | none => exact congrFun hweakened p
    | some b =>
      obtain ⟨-, -, m, hupdate⟩ := hweakened
      rw [hupdate]
      exact Function.update_of_ne hp ..

/-- A loop that can open every page runs to its end. -/
theorem accessLoop_succeeds (hopens : Opens openPage)
    (hopen : ∀ a s, ((openPage a).run s).1.isSome = true) :
    ∀ (fuel a d l : Nat) (s : PagedMachine τ), l < fuel →
    ((accessLoop (some A) openPage Write fuel a d l).run s).1 = some true := by
  intro fuel
  induction fuel with
  | zero => intro a d l s hfuel; omega
  | succ fuel ih =>
    intro a d l s hfuel
    rcases Nat.eq_zero_or_pos l with rfl | hl
    · rfl
    · obtain ⟨changed, hopened⟩ := Option.isSome_iff_exists.mp (hopen a s)
      have hk := lengthInPage_pos (a := a) hl
      rw [(accessLoop_round (A := some A) Write fuel d hopens hl hopened).1]
      exact ih _ _ _ _ (by omega)

/-- MM opens every page, if its services never fail. -/
theorem Mm.openPage_succeeds (hget : ∀ p t, (A.getMemoryAttributes p t).1.isSome = true)
    (hclear : ∀ p m t, (A.clearMemoryAttributes p m t).1 = true) (Write : Bool) (a : Nat)
    (s : PagedMachine τ) : ((Mm.openPage A Write a).run s).1.isSome = true := by
  show ((Mm.openByAttributes A Write a).run s).1.isSome = true
  obtain ⟨b, hread⟩ := Option.isSome_iff_exists.mp (hget (pageBase a) s.world)
  have hcleared : ∀ (mask : UInt64) (s₁ : PagedMachine τ), ((do
      let cleared ← callService (A.clearMemoryAttributes (pageBase a) mask)
      if cleared = true then pure (some (some b))
      else pure none : PagedM τ (Option (Option UInt64))).run s₁).1.isSome =
        true := by
    intro mask s₁
    show ((if (A.clearMemoryAttributes (pageBase a) mask s₁.world).1 = true then
      pure (some (some b)) else pure none :
      PagedM τ (Option (Option UInt64))).run _).1.isSome = true
    rw [if_pos (hclear ..)]
    rfl
  rw [Mm.openByAttributes, run_bind,
    show ((callService (A.getMemoryAttributes (pageBase a))).run s).1 = some b from hread]
  dsimp only
  rw [run_ite, run_ite]
  split
  · exact hcleared _ _
  · split
    · exact hcleared _ _
    · rfl

end Copies

/-! ## The accesses -/

section Accesses
variable {A : AttributeService τ} {L : AttributeSets A} {openPage : OpenPage τ} {Write : Bool}
  {a l : Nat} {s : PagedMachine τ}

/-- An access returns and transfers page by page; its copies are on record; each is made while its
page permits it and all other pages have their attributes; and in the end all pages have. -/
structure Guarded (L : AttributeSets A) (openPage : OpenPage τ) (Write : Bool) (a l : Nat)
    (s : PagedMachine τ) : Prop where
  outcome : ∃ ok n evs s', (accessLoop (some A) openPage Write (l + 1) a 0 l).run s =
    (some ok, s') ∧ Transferred Write a 0 l s s' ok n evs ∧ PageByPage a l ok n evs ∧
    L.attributes s'.world = L.attributes s.world
  recorded : ((accessLoop (some A) openPage Write (l + 1) a 0 l).run s).2.events.filter
    PageEvent.isCopy = s.events.filter PageEvent.isCopy ++
    (copiesOf (some A) openPage Write (l + 1) a 0 l s).map Copy.event
  permitted : ∀ c ∈ copiesOf (some A) openPage Write (l + 1) a 0 l s, ∀ x, c.address ≤ x →
    x < c.address + c.length → Permits L Write c.machine.world (pageBase x)
  others : ∀ c ∈ copiesOf (some A) openPage Write (l + 1) a 0 l s, ∀ p, p ≠ pageBase c.address →
    L.attributes c.machine.world p = L.attributes s.world p

/-- What opens pages with care guards the access. -/
theorem guarded (hopens : Opens openPage) (hweak : OpensWeakened L openPage)
    (hpermitted : OpensPermitted L Write openPage) (hwrap : a + l ≤ 2 ^ 64) (s : PagedMachine τ) :
    Guarded L openPage Write a l s where
  outcome := by
    obtain ⟨ok, n, evs, s', hrun, htransferred, hpages⟩ :
        ∃ ok n evs s', (accessLoop (some A) openPage Write (l + 1) a 0 l).run s = (some ok, s') ∧
          Transferred Write a 0 l s s' ok n evs ∧ (a + l ≤ 2 ^ 64 → PageByPage a l ok n evs) :=
      accessLoop_spec hopens (l + 1) a 0 l s (Nat.lt_succ_self l)
    refine ⟨ok, n, evs, s', hrun, htransferred, hpages hwrap, ?_⟩
    have hkeeps := attributes_accessLoop hweak Write (l + 1) a 0 l s
    rwa [hrun] at hkeeps
  recorded := copiesOf_recorded hopens (l + 1) a 0 l s (Nat.lt_succ_self l)
  permitted c hc x hx hxl := by
    obtain ⟨t, -, hpassed, hmachine⟩ := opened_copiesOf hweak _ _ _ _ _ c hc
    rw [(mem_copiesOf hopens _ _ _ _ _ hwrap c hc).page x hx hxl, hmachine]
    exact hpermitted c.address t hpassed
  others c hc p hp := by
    obtain ⟨t, ht, -, hmachine⟩ := opened_copiesOf hweak _ _ _ _ _ c hc
    rw [hmachine, attributes_opened hweak t hp, ht]

/-- DXE copies nothing of a page that is protected from reads. -/
theorem Dxe.copies_readable (C : PageChecks τ) (s : PagedMachine τ) :
    ∀ c ∈ copiesOf (some A) (Dxe.openPage ⟨C, some A⟩ Write) Write (l + 1) a 0 l s,
      L.attributes s.world (pageBase c.address) &&& efiMemoryRp = 0 := by
  intro c hc
  obtain ⟨t, ht, hpassed, -⟩ := opened_copiesOf (Dxe.opensWeakened (L := L) C Write) _ _ _ _ _ c hc
  obtain ⟨b, hread, hrp, -⟩ := (Dxe.openPage_isSome ⟨C, some A⟩ Write c.address t).mp hpassed
  rw [← ht, ← L.get_returns _ _ _ hread]
  exact hrp

/-- **Protection is lifted for one page at a time.**  Over services that hold a set of attributes
for each page, and whichever of their calls fail (setting what was read back does not), in DXE with
the protocol and in MM, an access copies the bytes of a page only while its attributes permit that,
with all other pages as they were, and leaves every page as it was.  DXE copies nothing of a page
that is protected from reads; MM, whose services do not fail, completes every access. -/
theorem protection_lifted_by_page (A : AttributeService τ) (L : AttributeSets A) (C : PageChecks τ)
    (Write : Bool) {Address Length : Nat} (hwrap : Address + Length ≤ 2 ^ 64) (s : PagedMachine τ) :
    Guarded L (Dxe.openPage ⟨C, some A⟩ Write) Write Address Length s ∧
    Guarded L (Mm.openPage A Write) Write Address Length s ∧
    (∀ c ∈ copiesOf (some A) (Dxe.openPage ⟨C, some A⟩ Write) Write (Length + 1) Address 0 Length s,
    L.attributes s.world (pageBase c.address) &&& efiMemoryRp = 0) ∧
    ((∀ p t, (A.getMemoryAttributes p t).1.isSome = true) →
      (∀ p m t, (A.clearMemoryAttributes p m t).1 = true) →
      ((Mm.accessMemory A Write Address Length).run s).1 = some true) :=
  ⟨guarded (Dxe.opens _ Write) (Dxe.opensWeakened C Write) (Dxe.opensPermitted C Write) hwrap s,
    guarded (Mm.opens A Write) (Mm.opensWeakened Write) (Mm.opensPermitted Write) hwrap s,
    Dxe.copies_readable C s,
    fun hget hclear =>
    accessLoop_succeeds (Mm.opens A Write) (Mm.openPage_succeeds hget hclear Write) _ _ _ _ _
    (Nat.lt_succ_self Length)⟩

/-- A write into a read-only page and the next one, at which a service fails. -/
theorem protection_lifted_by_page_failed :
    Guarded pageSets (Mm.openPage pageSetService true) true 0x1FFE 4 readOnlyPage :=
  (protection_lifted_by_page pageSetService pageSets ⟨fun _ _ _ => true, fun _ _ _ => true⟩ true
    (by decide) readOnlyPage).2.1

end Accesses
end UefiDebugger
