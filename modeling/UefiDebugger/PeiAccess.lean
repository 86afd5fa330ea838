import UefiDebugger.PageTransfer

/-!
# The accessors of PEI

PEI checks the page at the address of an access and then copies the whole range.  That is as careful
as DXE's loop exactly when the check fails, or every page of the range passes.
-/
namespace UefiDebugger
open ByteString PatchedMemory StateEffect

variable {τ : Type}

/-! ## Careful accesses -/

/-- The page of a byte passes: the check where the range enters the page. -/
def PagePasses (C : PageChecks τ) (Write : Bool) (Address : Nat) (s : PagedMachine τ)
    (x : Nat) : Prop :=
  C.allows Write s.memory s.world (max Address (pageBase x)) = true

/-- Every page of the range passes. -/
def RangePasses (C : PageChecks τ) (Write : Bool) (Address Length : Nat) (s : PagedMachine τ) :
    Prop :=
  ∀ x, Address ≤ x → x < Address + Length → PagePasses C Write Address s x

/-- An access copied bytes of pages that passed only, and succeeded only if every page of the range
passed. -/
structure Careful (C : PageChecks τ) (Write : Bool) (Address Length : Nat) (s : PagedMachine τ)
    (r : Bool × PagedMachine τ) : Prop where
  copies : ∃ evs, r.2.events = s.events ++ evs ∧
    ∀ b k, .copied b k ∈ evs → ∀ x, b ≤ x → x < b + k → PagePasses C Write Address s x
  result : r.1 = true → RangePasses C Write Address Length s

section Pei
variable {C : PageChecks τ} {Write : Bool} {a l : Nat} {s : PagedMachine τ}

theorem pei_run (C : PageChecks τ) (Write : Bool) (a l : Nat) (s : PagedMachine τ) :
    (Pei.accessMemory C Write a l).run s =
      if C.allows Write s.memory s.world a = true then
        (true,
          ((copyMem Write a 0 l).run
            { s with events := s.events ++ [.checked (pageBase a) true] }).2)
      else (false, { s with events := s.events ++ [.checked (pageBase a) false] }) := by
  have hcheck : (checkPage C Write a).run s = (C.allows Write s.memory s.world a, s) := rfl
  rw [Pei.accessMemory, run_bind, hcheck]
  cases C.allows Write s.memory s.world a with
  | true => rfl
  | false => rfl

/-- When one check is enough. -/
theorem pei_careful (C : PageChecks τ) (Write : Bool) (a l : Nat) (s : PagedMachine τ) :
    Careful C Write a l s ((Pei.accessMemory C Write a l).run s) ↔
      C.allows Write s.memory s.world a = false ∨ RangePasses C Write a l s := by
  rw [pei_run]
  by_cases hfirst : C.allows Write s.memory s.world a = true
  · rw [if_pos hfirst, hfirst]
    constructor
    · exact fun h => Or.inr (h.result rfl)
    · rintro (h | h)
      · cases h
      · refine ⟨⟨[.checked (pageBase a) true, .copied a l], ?_, fun b k hcopy x hbx hxk => ?_⟩,
          fun _ => h⟩
        · exact List.append_assoc ..
        · simp only [List.mem_cons, PageEvent.copied.injEq, reduceCtorEq, List.not_mem_nil,
            false_or, or_false] at hcopy
          obtain ⟨rfl, rfl⟩ := hcopy
          exact h x hbx hxk
  · rw [if_neg hfirst]
    have hfalse := Bool.eq_false_of_not_eq_true hfirst
    constructor
    · exact fun _ => Or.inl hfalse
    · intro _
      refine ⟨⟨[.checked (pageBase a) false], rfl, fun b k hcopy => ?_⟩, fun h => by cases h⟩
      simp at hcopy

end Pei

/-! ## Agreement with DXE -/

section Agreement
variable {C : PageChecks τ} {Write : Bool} {a l : Nat} {s : PagedMachine τ}

/-- What is written into the range does not alter the outcome of a check. -/
def ChecksStable (C : PageChecks τ) (Write : Bool) (Address Length : Nat) (s : PagedMachine τ) :
    Prop :=
  ∀ memory : Nat → UInt8, (∀ x, ¬ (Address ≤ x ∧ x < Address + Length) → memory x = s.memory x) →
    ∀ y, C.allows Write memory s.world y = C.allows Write s.memory s.world y

/-- The two accessors return the same and leave the same bytes. -/
def AgreesWithDxe (C : PageChecks τ) (Write : Bool) (Address Length : Nat) (s : PagedMachine τ) :
    Prop :=
  let pei := (Pei.accessMemory C Write Address Length).run s
  let dxe := (Dxe.accessMemory ⟨C, none⟩ Write Address Length).run s
  dxe.1 = some pei.1 ∧ dxe.2.memory = pei.2.memory ∧ dxe.2.data = pei.2.data

theorem openByPageTables_run (C : PageChecks τ) (Write : Bool) (a : Nat) (s : PagedMachine τ) :
    ((Dxe.openPage ⟨C, none⟩ Write a).run s).1 = if C.allows Write s.memory s.world a = true then
    some none else none := by
  have hcheck : (checkPage C Write a).run s = (C.allows Write s.memory s.world a, s) := rfl
  show ((Dxe.openByPageTables C Write a).run s).1 = _
  rw [Dxe.openByPageTables, run_bind, hcheck]
  cases C.allows Write s.memory s.world a with
  | true => rfl
  | false => rfl

/-- Behind the first page, where the range enters a page does not depend on where it starts. -/
theorem enters_behind {x : Nat} (h : lengthInPage a l < l) (hx : a + lengthInPage a l ≤ x) :
    max (a + lengthInPage a l) (pageBase x) = max a (pageBase x) := by
  have hnext := pageBase_next h
  have hmono := pageBase_mono hx
  have hle := Nat.le_add_right a (lengthInPage a l)
  omega

/-- A block written into the range changes memory there only. -/
theorem writeBlock_inside {A L x : Nat} {m : Nat → UInt8} {bs : List UInt8} (hwrap : A + L ≤ 2 ^ 64)
    (hA : A ≤ a) (hl : a + bs.length ≤ A + L) (hx : ¬ (A ≤ x ∧ x < A + L)) :
    writeBlock (2 ^ 64) m a bs x = m x := by
  refine writeBlock_of_not_covers ?_
  rw [covers_iff (by omega)]
  omega

/-- DXE's loop succeeds exactly when every page of the range passes. -/
theorem dxe_accessLoop_iff {A L : Nat} {s₀ : PagedMachine τ} (hwrap : A + L ≤ 2 ^ 64)
    (hstable : ChecksStable C Write A L s₀) : ∀ (fuel a d l : Nat) (s : PagedMachine τ),
    l < fuel → A ≤ a →
      a + l = A + L → (∀ x, ¬ (A ≤ x ∧ x < A + L) → s.memory x = s₀.memory x) → s.world = s₀.world →
      (((accessLoop none (Dxe.openPage ⟨C, none⟩ Write) Write fuel a d l).run s).1 = some true ↔
        RangePasses C Write a l s₀) := by
  intro fuel
  induction fuel with
  | zero => intro a d l s hfuel; omega
  | succ fuel ih =>
    intro a d l s hfuel hA hend hmemory hworld
    have hopen := Dxe.opens (⟨C, none⟩ : DxeServices τ) Write
    have hfirst : max a (pageBase a) = a := Nat.max_eq_left (pageBase_le a)
    have hopened := openByPageTables_run C Write a s
    rw [hworld, hstable s.memory hmemory] at hopened
    rcases Nat.eq_zero_or_pos l with rfl | hl
    · exact ⟨fun _ x hx hxl => by omega, fun _ => rfl⟩
    · by_cases hallows : C.allows Write s₀.memory s₀.world a = true
      · rw [if_pos hallows] at hopened
        obtain ⟨hrun, hround⟩ := accessLoop_round (A := none) Write fuel d hopen hl hopened
        have hk := lengthInPage_le a l
        have hkpos := lengthInPage_pos (a := a) hl
        have hpage : ∀ x, a ≤ x → x < a + lengthInPage a l → PagePasses C Write a s₀ x :=
          fun x hx hxk => by
          rw [PagePasses, pageBase_of_round hx hxk, hfirst]
          exact hallows
        rw [hrun]
        set s₁ :=
          afterCopy none Write a d (lengthInPage a l) none
          ((Dxe.openPage ⟨C, none⟩ Write a).run s).2
        have hworld₁ : s₁.world = s₀.world := (world_openPage C Write a s).trans hworld
        -- A round writes inside the range only, so that the later checks answer as at the start.
        have hmemory₁ : ∀ x, ¬ (A ≤ x ∧ x < A + L) → s₁.memory x = s₀.memory x := by
          intro x hx
          rw [hround.memory]
          split
          · rw [writeBlock_inside hwrap hA (by rw [slice_length]; omega) hx]
            exact hmemory x hx
          · exact hmemory x hx
        by_cases hlast : lengthInPage a l = l
        · rw [hlast, Nat.sub_self, accessLoop_done (by omega)]
          rw [hlast] at hpage
          exact ⟨fun _ => hpage, fun _ => rfl⟩
        · have hshort : lengthInPage a l < l := by omega
          rw [Nat.mod_eq_of_lt (by omega),
            ih (a + lengthInPage a l) _ _ s₁ (by omega) (by omega) (by omega) hmemory₁ hworld₁]
          constructor
          · intro hrest x hx hxl
            by_cases hxk : x < a + lengthInPage a l
            · exact hpage x hx hxk
            · have := hrest x (by omega) (by omega)
              rwa [PagePasses, enters_behind hshort (by omega)] at this
          · intro hall x hx hxl
            rw [PagePasses, enters_behind hshort hx]
            exact hall x (by omega) (by omega)
      · rw [if_neg hallows] at hopened
        obtain ⟨s', hrun, -⟩ := accessLoop_stops (A := none) Write fuel d hopen hl hopened
        rw [hrun]
        constructor
        · intro h
          cases h
        intro hall
        have := hall a (le_refl a) (by omega)
        rw [PagePasses, hfirst] at this
        exact absurd this hallows

/-- What DXE's accessor does, in terms of the first page and the whole range. -/
theorem dxe_result (hwrap : a + l ≤ 2 ^ 64) (hstable : ChecksStable C Write a l s) :
    ((Dxe.accessMemory ⟨C, none⟩ Write a l).run s).1 = some true ↔ RangePasses C Write a l s :=
  dxe_accessLoop_iff hwrap hstable (l + 1) a 0 l s (Nat.lt_succ_self l) (le_refl a) rfl
  (fun _ _ => rfl) rfl

/-- A complete transfer of DXE's is the copy PEI makes. -/
theorem agrees_of_rangePasses (hwrap : a + l ≤ 2 ^ 64) (hstable : ChecksStable C Write a l s)
    (hl : 0 < l) (h : RangePasses C Write a l s) : AgreesWithDxe C Write a l s := by
  have hresult := (dxe_result hwrap hstable).mpr h
  have hfirst : C.allows Write s.memory s.world a = true := by
    have := h a (le_refl a) (by omega)
    rwa [PagePasses, Nat.max_eq_left (pageBase_le a)] at this
  obtain ⟨ok, n, evs, s', hrun, htransferred, -⟩ :=
    accessLoop_spec (A := none) (Dxe.opens (⟨C, none⟩ : DxeServices τ) Write) (l + 1) a 0 l s
    (Nat.lt_succ_self l)
  have hdxe : (Dxe.accessMemory ⟨C, none⟩ Write a l).run s = (some ok, s') := hrun
  rw [hdxe] at hresult
  obtain rfl : ok = true := Option.some.inj hresult
  obtain rfl : n = l := htransferred.complete rfl
  rw [AgreesWithDxe, hdxe, pei_run, if_pos hfirst]
  exact ⟨rfl, htransferred.memory, htransferred.data⟩

/-- A range whose first page fails is left alone by both. -/
theorem agrees_of_first (hl : 0 < l) (h : C.allows Write s.memory s.world a = false) :
    AgreesWithDxe C Write a l s := by
  have hfirst : ¬ C.allows Write s.memory s.world a = true := by
    rw [h]
    exact Bool.false_ne_true
  have hopened := openByPageTables_run C Write a s
  rw [if_neg hfirst] at hopened
  obtain ⟨s', hrun, htransferred⟩ :=
    accessLoop_stops (A := none) Write l 0 (Dxe.opens (⟨C, none⟩ : DxeServices τ) Write) hl hopened
  have hdxe : (Dxe.accessMemory ⟨C, none⟩ Write a l).run s = (some false, s') := hrun
  have hmemory := htransferred.memory
  have hdata := htransferred.data
  rw [AgreesWithDxe, hdxe, pei_run, if_neg hfirst]
  refine ⟨rfl, ?_, ?_⟩
  · cases Write with
    | false => exact hmemory
    | true => exact hmemory
  · cases Write with
    | false => exact hdata
    | true => exact hdata

/-- **When PEI's accessors are as careful as DXE's.**  They copy bytes of pages that passed only,
and return `TRUE` only if all pages of the range passed, exactly when the first page fails or every
page of the range passes; and that is when they agree with DXE's loop. -/
theorem pei_careful_iff (C : PageChecks τ) (Write : Bool) (Address Length : Nat)
    (s : PagedMachine τ) :
    (Careful C Write Address Length s ((Pei.accessMemory C Write Address Length).run s) ↔
    C.allows Write s.memory s.world Address = false ∨ RangePasses C Write Address Length s) ∧
    (Address + Length ≤ 2 ^ 64 → 0 < Length → ChecksStable C Write Address Length s →
      (AgreesWithDxe C Write Address Length s ↔
        C.allows Write s.memory s.world Address = false ∨
        RangePasses C Write Address Length s)) := by
  refine ⟨pei_careful C Write Address Length s, fun hwrap hl hstable => ⟨fun hagrees => ?_, ?_⟩⟩
  · by_cases hfirst : C.allows Write s.memory s.world Address = true
    · -- PEI returned `TRUE`, so DXE did.
      refine Or.inr ((dxe_result hwrap hstable).mp ?_)
      have hresult := hagrees.1
      rwa [pei_run, if_pos hfirst] at hresult
    · exact Or.inl (Bool.eq_false_of_not_eq_true hfirst)
  · rintro (hfirst | hall)
    · exact agrees_of_first hl hfirst
    · exact agrees_of_rangePasses hwrap hstable hl hall

/-- `DbgWriteMemory` of four bytes of which two are in a page that is not writable: it returns
`TRUE` and writes all of them, where DXE's accessor writes two and returns `FALSE`. -/
theorem pei_write_straddling :
    ((Pei.dbgWriteMemory lowPages.toPageChecks 0x1FFE 4).run blankMachine).1 = true ∧
      ((Pei.dbgWriteMemory lowPages.toPageChecks 0x1FFE 4).run blankMachine).2.memory 0x2000 = 1 ∧
      ¬ PagePasses lowPages.toPageChecks true 0x1FFE blankMachine 0x2000 ∧
      ¬ Careful lowPages.toPageChecks true 0x1FFE 4 blankMachine
        ((Pei.dbgWriteMemory lowPages.toPageChecks 0x1FFE 4).run blankMachine) ∧
      ((Dxe.accessMemory lowPages true 0x1FFE 4).run blankMachine).1 = some false := by
  have hfails : ¬ PagePasses lowPages.toPageChecks true 0x1FFE blankMachine 0x2000 := by
    unfold PagePasses
    decide
  refine ⟨by decide, by decide, hfails, fun hcareful => ?_, by decide⟩
  exact hfails (hcareful.result (by decide) 0x2000 (by decide) (by decide))

theorem pei_careful_iff_page :
    Careful lowPages.toPageChecks true 0x1000 4 blankMachine
        ((Pei.accessMemory lowPages.toPageChecks true 0x1000 4).run blankMachine) ∧
      AgreesWithDxe lowPages.toPageChecks true 0x1000 4 blankMachine := by
  have hall : RangePasses lowPages.toPageChecks true 0x1000 4 blankMachine := by
    intro x hx hxl
    have hpage : pageBase x = 0x1000 := by
      unfold pageBase efiPageSize
      omega
    rw [PagePasses, hpage]
    rfl
  have h := pei_careful_iff lowPages.toPageChecks true 0x1000 4 blankMachine
  exact ⟨h.1.mpr (Or.inr hall), (h.2 (by decide) (by decide) fun _ _ _ => rfl).mpr (Or.inr hall)⟩

end Agreement
end UefiDebugger
