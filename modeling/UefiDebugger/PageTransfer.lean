import UefiDebugger.AccessMemory

/-!
# Transfers page by page

What the loop of `AccessMemory` transfers, whatever the services answer.  A round copies the bytes
of the range in one page, after the page passed its check; the run of rounds is one transfer of the
bytes in front of the first page that fails.
-/
namespace UefiDebugger
open ByteString PatchedMemory StateEffect

/-! ## Pages -/

section Pages
variable {a l x y : Nat}

theorem pageBase_le (x : Nat) : pageBase x ≤ x := Nat.div_mul_le_self ..

theorem pageBase_mono (h : x ≤ y) : pageBase x ≤ pageBase y :=
  Nat.mul_le_mul_right _ (Nat.div_le_div_right h)

theorem lengthInPage_pos (h : 0 < l) : 0 < lengthInPage a l := by
  unfold lengthInPage efiPageSize
  omega

theorem lengthInPage_le (a l : Nat) : lengthInPage a l ≤ l := Nat.min_le_left ..

/-- The bytes of a round lie in one page. -/
theorem pageBase_of_round (hax : a ≤ x) (hxk : x < a + lengthInPage a l) :
    pageBase x = pageBase a := by
  unfold lengthInPage efiPageSize at hxk
  unfold pageBase efiPageSize
  omega

/-- A round that does not end the range ends its page. -/
theorem pageBase_next (h : lengthInPage a l < l) :
    pageBase (a + lengthInPage a l) = a + lengthInPage a l := by
  unfold lengthInPage efiPageSize at *
  unfold pageBase efiPageSize
  omega

end Pages

/-! ## What a transfer does -/

/-- The bytes a copy moved. -/
def PageEvent.copiedLength : PageEvent → Nat
  | .checked _ _ => 0
  | .copied _ length => length

/-- From `s` to `s'` the first `n` of the `l` bytes at `a` were transferred, each to or from its own
offset behind `d`, and no other byte of memory or of the buffer changed. -/
structure Transferred {τ : Type} (Write : Bool) (a d l : Nat) (s s' : PagedMachine τ)
    (ok : Bool) (n : Nat) (evs : List PageEvent) : Prop where
  bound : n ≤ l
  complete : ok = true → n = l
  memory : s'.memory =
    if Write = true then writeBlock (2 ^ 64) s.memory a (slice s.data d n) else s.memory
  data : s'.data = if Write = true then s.data else store s.data d (readBlock (2 ^ 64) s.memory a n)
  events : s'.events = s.events ++ evs
  count : (evs.map PageEvent.copiedLength).sum = n

/-- What the record says of a transfer of `l` bytes at `a` of which `n` were made. -/
structure PageByPage (a l : Nat) (ok : Bool) (n : Nat) (evs : List PageEvent) : Prop where
  /-- The pages of the bytes transferred passed. -/
  front : ∀ x, a ≤ x → x < a + n → .checked (pageBase x) true ∈ evs
  /-- No other page did. -/
  passed : ∀ p, .checked p true ∈ evs → ∃ x, a ≤ x ∧ x < a + n ∧ p = pageBase x
  /-- The copies stay inside. -/
  copies : ∀ b k, .copied b k ∈ evs → a ≤ b ∧ b + k ≤ a + n
  /-- A byte is touched only after its page passed. -/
  checkedFirst : ∀ before b k after, evs = before ++ .copied b k :: after →
    ∀ x, b ≤ x → x < b + k → .checked (pageBase x) true ∈ before
  /-- If the transfer stops, it is at the start of a page that fails. -/
  stopped : ok = false → n < l ∧ .checked (pageBase (a + n)) false ∈ evs ∧
    ∀ x, a ≤ x → x < a + n → pageBase x < pageBase (a + n)
  /-- Nothing else fails. -/
  failed : ∀ p, .checked p false ∈ evs → ok = false ∧ p = pageBase (a + n)

section Record
variable {a l n : Nat} {ok : Bool} {evs : List PageEvent}

theorem pageByPage_nothing (a : Nat) : PageByPage a 0 true 0 [] where
  front x hx hxn := by omega
  passed p hp := by cases hp
  copies b k h := by cases h
  checkedFirst before b k after h := by
    have hlength := congrArg List.length h
    simp at hlength
  stopped h := by cases h
  failed p hp := by cases hp

/-- The first page fails. -/
theorem pageByPage_stop (hl : 0 < l) : PageByPage a l false 0 [.checked (pageBase a) false] where
  front x hx hxn := by omega
  passed p hp := by simp at hp
  copies b k h := by simp at h
  checkedFirst before b k after h := by
    rcases before with _ | ⟨e, before⟩
    · simp at h
    · have hlength := congrArg List.length h
      simp at hlength
  stopped _ := ⟨hl, List.mem_singleton_self _, fun x hx hxn => by omega⟩
  failed p hp := by
    obtain ⟨rfl, -⟩ := PageEvent.checked.inj (List.mem_singleton.mp hp)
    exact ⟨rfl, rfl⟩

/-- One more page in front. -/
theorem PageByPage.cons (hl : 0 < l)
    (h : PageByPage (a + lengthInPage a l) (l - lengthInPage a l) ok n evs) :
    PageByPage a l ok (lengthInPage a l + n)
      (.checked (pageBase a) true :: .copied a (lengthInPage a l) :: evs) := by
  set k := lengthInPage a l with hk
  have hkpos : 0 < k := lengthInPage_pos hl
  have hkl : k ≤ l := lengthInPage_le a l
  have hround : ∀ x, a ≤ x → x < a + k → pageBase x = pageBase a := fun x => pageBase_of_round
  refine ⟨fun x hx hxn => ?_, fun p hp => ?_, fun b j hb => ?_,
    fun before b j after heq x hbx hxj => ?_,
    fun hok => ?_, fun p hp => ?_⟩
  · by_cases hxk : x < a + k
    · rw [hround x hx hxk]
      exact List.mem_cons_self ..
    · exact List.mem_cons_of_mem _ (List.mem_cons_of_mem _ (h.front x (by omega) (by omega)))
  · simp only [List.mem_cons, PageEvent.checked.injEq, and_true, reduceCtorEq, false_or] at hp
    rcases hp with rfl | hp
    · exact ⟨a, le_refl a, by omega, rfl⟩
    · obtain ⟨x, hx, hxn, rfl⟩ := h.passed p hp
      exact ⟨x, by omega, by omega, rfl⟩
  · simp only [List.mem_cons, PageEvent.copied.injEq, reduceCtorEq, false_or] at hb
    rcases hb with ⟨rfl, rfl⟩ | hb
    · omega
    · obtain ⟨h1, h2⟩ := h.copies b j hb
      omega
  · -- The copy is the one of this page, or one behind it.
    rcases before with _ | ⟨e, before⟩
    · simp at heq
    · obtain ⟨rfl, hrest⟩ := List.cons.inj heq
      rcases before with _ | ⟨e', before⟩
      · obtain ⟨hcopy, -⟩ := List.cons.inj hrest
        obtain ⟨rfl, rfl⟩ := PageEvent.copied.inj hcopy
        rw [hround x hbx hxj]
        exact List.mem_cons_self ..
      · obtain ⟨rfl, hbehind⟩ := List.cons.inj hrest
        exact List.mem_cons_of_mem _
          (List.mem_cons_of_mem _ (h.checkedFirst before b j after hbehind x hbx hxj))
  · -- The page that failed lies behind this one.
    obtain ⟨hn, hmem, hbelow⟩ := h.stopped hok
    rw [← Nat.add_assoc]
    refine ⟨by omega, List.mem_cons_of_mem _ (List.mem_cons_of_mem _ hmem), fun x hx hxn => ?_⟩
    by_cases hxk : x < a + k
    · have hnext : pageBase (a + k) = a + k := pageBase_next (by omega)
      have hmono : pageBase (a + k) ≤ pageBase (a + k + n) := pageBase_mono (by omega)
      have hle := pageBase_le x
      omega
    · exact hbelow x (by omega) (by omega)
  · simp only [List.mem_cons, PageEvent.checked.injEq, Bool.false_eq_true, and_false, reduceCtorEq,
      false_or] at hp
    rw [← Nat.add_assoc]
    exact h.failed p hp

/-- The whole range in one page. -/
theorem pageByPage_last (hl : 0 < l) (hlast : lengthInPage a l = l) :
    PageByPage a l true l [.checked (pageBase a) true, .copied a l] := by
  have hrest : PageByPage (a + lengthInPage a l) (l - lengthInPage a l) true 0 [] := by
    rw [hlast, Nat.sub_self]
    exact pageByPage_nothing _
  have hcons := hrest.cons hl
  rwa [hlast] at hcons

/-- The transfer is complete exactly when every page of the range passed. -/
theorem PageByPage.complete_iff (h : PageByPage a l ok n evs) (hn : ok = true → n = l) :
    ok = true ↔ ∀ x, a ≤ x → x < a + l → .checked (pageBase x) true ∈ evs := by
  constructor
  · intro hok x hx hxl
    exact h.front x hx (hn hok ▸ hxl)
  · intro hall
    by_contra hfail
    obtain ⟨hnl, -, hbelow⟩ := h.stopped (Bool.eq_false_of_not_eq_true hfail)
    obtain ⟨x, hx, hxn, hpage⟩ := h.passed _ (hall (a + n) (by omega) (by omega))
    have := hbelow x hx hxn
    omega

end Record
/-! ## The loop -/

section Loop
variable {τ : Type} {A : Option (AttributeService τ)} {openPage : OpenPage τ} {Write : Bool}

/-- What opening and closing a page leaves alone. -/
def PagedMachine.bytes (s : PagedMachine τ) : (Nat → UInt8) × (Nat → UInt8) := (s.memory, s.data)

/-- Opening a page checks it, and records that. -/
structure Opens (openPage : OpenPage τ) : Prop where
  bytes : ∀ a, Keeps PagedMachine.bytes (openPage a)
  events : ∀ a s, ((openPage a).run s).2.events =
    s.events ++ [.checked (pageBase a) ((openPage a).run s).1.isSome]

theorem bytes_closePage (a : Nat) (changed : Option UInt64) :
    Keeps (fun s : PagedMachine τ => (s.bytes, s.events)) (closePage A a changed) := by
  cases changed with
  | none => exact fun _ => rfl
  | some Attributes =>
    cases A with
    | none => exact fun _ => rfl
    | some service => exact fun _ => rfl

theorem memory_of_bytes {s t : PagedMachine τ} (h : s.bytes = t.bytes) :
    s.memory = t.memory ∧ s.data = t.data :=
  Prod.mk.inj h

/-- A round that stops. -/
theorem accessLoop_stops (Write : Bool) (fuel d : Nat) (hopen : Opens openPage) {a l : Nat}
    (hl : 0 < l) {s : PagedMachine τ} (hfail : ((openPage a).run s).1 = none) :
    ∃ s', (accessLoop A openPage Write (fuel + 1) a d l).run s = (some false, s') ∧
      Transferred Write a d l s s' false 0 [.checked (pageBase a) false] := by
  obtain ⟨hmemory, hdata⟩ := memory_of_bytes (hopen.bytes a s)
  have hevents := hopen.events a s
  rw [hfail] at hevents
  refine ⟨((openPage a).run s).2, ?_, Nat.zero_le l, fun h => (Bool.false_ne_true h).elim, ?_, ?_,
    hevents, rfl⟩
  · rw [accessLoop, if_neg (by omega), run_bind, hfail]
    rfl
  · rw [hmemory]
    split
    · rfl
    · rfl
  · rw [hdata]
    split
    · rfl
    · rfl

/-- What a round leaves behind once its page is open. -/
def afterCopy (A : Option (AttributeService τ)) (Write : Bool) (a d k : Nat)
    (changed : Option UInt64) (s : PagedMachine τ) : PagedMachine τ :=
  ((closePage A a changed).run ((copyMem Write a d k).run s).2).2

/-- A round that goes on: the bytes of one page are copied. -/
theorem accessLoop_round (Write : Bool) (fuel d : Nat) (hopen : Opens openPage) {a l : Nat}
    (hl : 0 < l) {s : PagedMachine τ} {changed : Option UInt64}
    (hpass : ((openPage a).run s).1 = some changed) :
    let s₁ := afterCopy A Write a d (lengthInPage a l) changed ((openPage a).run s).2
    (accessLoop A openPage Write (fuel + 1) a d l).run s =
        (accessLoop A openPage Write fuel ((a + lengthInPage a l) % 2 ^ 64) (d + lengthInPage a l)
          (l - lengthInPage a l)).run s₁ ∧
      Transferred Write a d (lengthInPage a l) s s₁ true (lengthInPage a l)
        [.checked (pageBase a) true, .copied a (lengthInPage a l)] := by
  obtain ⟨hmemory, hdata⟩ := memory_of_bytes (hopen.bytes a s)
  have hevents := hopen.events a s
  rw [hpass] at hevents
  set k := lengthInPage a l with hk
  set s₀ := ((openPage a).run s).2 with hs₀
  intro s₁
  have hs₁ : s₁ = ((closePage A a changed).run ((copyMem Write a d k).run s₀).2).2 := rfl
  have hclose := Prod.mk.inj (bytes_closePage (A := A) a changed ((copyMem Write a d k).run s₀).2)
  obtain ⟨hmemory₁, hdata₁⟩ := memory_of_bytes hclose.1
  refine ⟨?_, le_refl k, fun _ => rfl, ?_, ?_, ?_, ?_⟩
  · rw [accessLoop, if_neg (by omega), run_bind, hpass]
    rfl
  · rw [hs₁, hmemory₁, ← hmemory, ← hdata]
    rfl
  · rw [hs₁, hdata₁, ← hmemory, ← hdata]
    rfl
  · rw [hs₁, hclose.2]
    show s₀.events ++ [.copied a k] = _
    rw [hs₀, hevents, List.append_assoc]
    rfl
  · simp [PageEvent.copiedLength]

/-- A transfer behind another one is one transfer. -/
theorem Transferred.trans {a d l k n : Nat} {s s₁ s' : PagedMachine τ} {ok : Bool}
    {evs evs' : List PageEvent} (hk : k ≤ l) (h₁ : Transferred Write a d k s s₁ true k evs)
    (h₂ : Transferred Write ((a + k) % 2 ^ 64) (d + k) (l - k) s₁ s' ok n evs') :
    Transferred Write a d l s s' ok (k + n) (evs ++ evs') := by
  have hbound := h₂.bound
  refine ⟨by omega, fun hok => ?_, ?_, ?_, ?_, ?_⟩
  · have := h₂.complete hok
    omega
  · rw [h₂.memory, h₁.memory, h₁.data]
    cases Write with
    | false => rfl
    | true =>
      simp only [if_true]
      rw [slice_add, writeBlock_append, slice_length, writeBlock_mod]
  · rw [h₂.data, h₁.data, h₁.memory]
    cases Write with
    | true => rfl
    | false =>
      simp only [Bool.false_eq_true, if_false]
      rw [readBlock_add, store_append, readBlock_length, readBlock_mod]
  · rw [h₂.events, h₁.events, List.append_assoc]
  · rw [List.map_append, List.sum_append, h₁.count, h₂.count]

theorem accessLoop_done {fuel : Nat} (hfuel : 0 < fuel) (a d : Nat) (s : PagedMachine τ) :
    (accessLoop A openPage Write fuel a d 0).run s = (some true, s) := by
  cases fuel with
  | zero => omega
  | succ fuel => rfl

theorem transferred_nothing (a d : Nat) (s : PagedMachine τ) :
    Transferred Write a d 0 s s true 0 [] := by
  refine ⟨le_refl 0, fun _ => rfl, ?_, ?_, (List.append_nil _).symm, rfl⟩
  · cases Write <;> rfl
  · cases Write <;> rfl

/-- **The loop.**  It ends, and what it did is a transfer page by page. -/
theorem accessLoop_spec (hopen : Opens openPage) : ∀ (fuel a d l : Nat) (s : PagedMachine τ),
    l < fuel → ∃ ok n evs s', (accessLoop A openPage Write fuel a d l).run s = (some ok, s') ∧
    Transferred Write a d l s s' ok n evs ∧ (a + l ≤ 2 ^ 64 → PageByPage a l ok n evs) := by
  intro fuel
  induction fuel with
  | zero => intro a d l s hfuel; omega
  | succ fuel ih =>
    intro a d l s hfuel
    rcases Nat.eq_zero_or_pos l with rfl | hl
    · exact ⟨true, 0, [], s, rfl, transferred_nothing a d s, fun _ => pageByPage_nothing a⟩
    · cases hopened : ((openPage a).run s).1 with
      | none =>
        obtain ⟨s', hrun, htransferred⟩ := accessLoop_stops (A := A) Write fuel d hopen hl hopened
        exact ⟨false, 0, _, s', hrun, htransferred, fun _ => pageByPage_stop hl⟩
      | some changed =>
        obtain ⟨hrun, hround⟩ := accessLoop_round (A := A) Write fuel d hopen hl hopened
        set s₁ := afterCopy A Write a d (lengthInPage a l) changed ((openPage a).run s).2
        have hk := lengthInPage_le a l
        have hkpos := lengthInPage_pos (a := a) hl
        by_cases hlast : lengthInPage a l = l
        · -- The range ends in this page, at whose end the address may wrap.
          rw [hlast, Nat.sub_self, accessLoop_done (by omega)] at hrun
          rw [hlast] at hround
          exact ⟨true, l, _, s₁, hrun, hround, fun _ => pageByPage_last hl hlast⟩
        · obtain ⟨ok, n, evs, s', hrest, htransferred, hpages⟩ :=
            ih ((a + lengthInPage a l) % 2 ^ 64) (d + lengthInPage a l) (l - lengthInPage a l) s₁
            (by omega)
          refine ⟨ok, lengthInPage a l + n, _, s', hrun.trans hrest, hround.trans hk htransferred,
            fun hwrap => ?_⟩
          rw [Nat.mod_eq_of_lt (by omega)] at hpages
          exact PageByPage.cons hl (hpages (by omega))

end Loop
/-! ## The phases -/

section Phases
variable {τ : Type}

theorem bytes_callService {α : Type} (call : τ → α × τ) :
    Keeps (fun s : PagedMachine τ => (s.bytes, s.events)) (callService call) := fun _ => rfl

theorem opens_recorded {check : OpenPage τ}
    (h : ∀ a, Keeps (fun s : PagedMachine τ => (s.bytes, s.events)) (check a)) :
    Opens (recorded check) where
  bytes a s := congrArg Prod.fst (h a s)
  events a s := by
    show ((check a).run s).2.events ++ _ = _
    rw [show ((check a).run s).2.events = s.events from congrArg Prod.snd (h a s)]
    rfl

theorem Dxe.opens (D : DxeServices τ) (Write : Bool) : Opens (Dxe.openPage D Write) := by
  refine opens_recorded fun a => ?_
  cases D.mMemoryAttributeProtocol with
  | none => exact keeps_bind (fun _ => rfl) fun passed => keeps_ite (keeps_pure _) (keeps_pure _)
  | some A =>
    refine keeps_bind (bytes_callService _) fun read => ?_
    cases read with
    | none => exact keeps_pure _
    | some Attributes =>
      refine keeps_ite (keeps_pure _) (keeps_ite ?_ (keeps_pure _))
      exact keeps_bind (bytes_callService _) fun cleared => keeps_ite (keeps_pure _) (keeps_pure _)

/-- The page tables are walked by the checks, and by nothing else. -/
theorem world_openPage (C : PageChecks τ) (Write : Bool) (a : Nat) :
    Keeps PagedMachine.world (Dxe.openPage ⟨C, none⟩ Write a) := by
  refine keeps_bind ?_ fun opened => keeps_bind (fun _ => rfl) fun _ => keeps_pure _
  exact keeps_bind (fun _ => rfl) fun passed => keeps_ite (keeps_pure _) (keeps_pure _)

theorem Mm.opens (A : AttributeService τ) (Write : Bool) : Opens (Mm.openPage A Write) := by
  refine opens_recorded fun a => keeps_bind (bytes_callService _) fun read => ?_
  cases read with
  | none => exact keeps_pure _
  | some Attributes =>
    have hclear : ∀ mask : UInt64, Keeps (fun s : PagedMachine τ => (s.bytes, s.events)) (do
        let cleared ← callService (A.clearMemoryAttributes (pageBase a) mask)
        if cleared = true then pure (some (some Attributes)) else pure none) := fun mask =>
      keeps_bind (bytes_callService _) fun cleared => keeps_ite (keeps_pure _) (keeps_pure _)
    exact keeps_ite (hclear _) (keeps_ite (hclear _) (keeps_pure _))

/-- When a page passes DXE's check: by its attributes where there is the protocol, else by
`IsPageWritable` or `IsPageReadable`. -/
def Dxe.Passes (D : DxeServices τ) (Write : Bool) (a : Nat) (s : PagedMachine τ) : Prop :=
  match D.mMemoryAttributeProtocol with
  | some A =>
      ∃ Attributes, (A.getMemoryAttributes (pageBase a) s.world).1 = some Attributes ∧
        Attributes &&& efiMemoryRp = 0 ∧
        (Write = true → Attributes &&& efiMemoryRo ≠ 0 →
          (A.clearMemoryAttributes (pageBase a) efiMemoryRo
            (A.getMemoryAttributes (pageBase a) s.world).2).1 = true)
  | none =>
      if Write = true then D.isPageWritable s.memory s.world a = true
      else D.isPageReadable s.memory s.world a = true

theorem PageChecks.allows_iff (C : PageChecks τ) {Write : Bool} {memory : Nat → UInt8} {world : τ}
    {a : Nat} : C.allows Write memory world a = true ↔
      if Write = true then C.isPageWritable memory world a = true
      else C.isPageReadable memory world a = true := by
  cases Write with
  | true => exact Iff.rfl
  | false => exact Iff.rfl

theorem Dxe.openByAttributes_isSome (A : AttributeService τ) (Write : Bool) (a : Nat)
    (s : PagedMachine τ) : ((Dxe.openByAttributes A Write a).run s).1.isSome = true ↔
      ∃ Attributes, (A.getMemoryAttributes (pageBase a) s.world).1 = some Attributes ∧
        Attributes &&& efiMemoryRp = 0 ∧
        (Write = true → Attributes &&& efiMemoryRo ≠ 0 →
          (A.clearMemoryAttributes (pageBase a) efiMemoryRo
            (A.getMemoryAttributes (pageBase a) s.world).2).1 = true) := by
  rw [Dxe.openByAttributes, run_bind]
  simp only [callService, run_modifyGet]
  cases hread : (A.getMemoryAttributes (pageBase a) s.world).1 with
  | none => simp
  | some Attributes =>
    by_cases hrp : Attributes &&& efiMemoryRp = 0
    · by_cases hro : Write = true ∧ Attributes &&& efiMemoryRo ≠ 0
      · cases hclear : (A.clearMemoryAttributes (pageBase a) efiMemoryRo
          (A.getMemoryAttributes (pageBase a) s.world).2).1 with
        | true => simp [hrp, hro, hclear]
        | false => simp [hrp, hro.1, hro.2, hclear]
      · have hskip : Write = true → ¬ Attributes &&& efiMemoryRo ≠ 0 :=
          fun hw hset => hro ⟨hw, hset⟩
        simp only [hrp, ne_eq, not_true_eq_false, if_false, if_neg hro, run_pure,
          Option.isSome_some, true_iff]
        exact ⟨Attributes, rfl, hrp, fun hw hset => absurd hset (hskip hw)⟩
    · simp [hrp]

/-- A page is opened exactly when it passes. -/
theorem Dxe.openPage_isSome (D : DxeServices τ) (Write : Bool) (a : Nat) (s : PagedMachine τ) :
    ((Dxe.openPage D Write a).run s).1.isSome = true ↔ Dxe.Passes D Write a s := by
  rw [Dxe.Passes]
  have hrecorded : ∀ check : OpenPage τ, ((recorded check a).run s).1 = ((check a).run s).1 :=
    fun _ => rfl
  rw [Dxe.openPage, hrecorded]
  cases D.mMemoryAttributeProtocol with
  | some A => exact Dxe.openByAttributes_isSome A Write a s
  | none =>
    refine Iff.trans ?_ D.allows_iff
    simp only [Dxe.openByPageTables, checkPage, run_bind, run_modifyGet]
    by_cases h : D.allows Write s.memory s.world a = true
    · simp [h]
    · simp [h]

/-- An access that returns, transfers the bytes in front of the first page that fails and nothing
else, touches a byte only after its page passed, and succeeds exactly when every page of the range
passed. -/
def CheckedByPage (D : DxeServices τ) (Write : Bool) (Address Length : Nat) (s : PagedMachine τ) :
    Prop :=
  ∃ ok n evs s', (Dxe.accessMemory D Write Address Length).run s = (some ok, s') ∧
    Transferred Write Address 0 Length s s' ok n evs ∧ PageByPage Address Length ok n evs ∧
    (ok = true ↔ ∀ x, Address ≤ x → x < Address + Length → .checked (pageBase x) true ∈ evs)

/-- **Memory is checked page by page before it is touched**, for every outcome of the services; and
what a page passes is the check of its attributes, or of the page tables if there are none. -/
theorem accessMemory_page_by_page (D : DxeServices τ) (Write : Bool) {Address Length : Nat}
    (hwrap : Address + Length ≤ 2 ^ 64) (s : PagedMachine τ) :
    (∀ a t, ((Dxe.openPage D Write a).run t).1.isSome = true ↔ Dxe.Passes D Write a t) ∧
      CheckedByPage D Write Address Length s := by
  refine ⟨fun a t => Dxe.openPage_isSome D Write a t, ?_⟩
  obtain ⟨ok, n, evs, s', hrun, htransferred, hpages⟩ :=
    accessLoop_spec (A := D.mMemoryAttributeProtocol) (Dxe.opens D Write) (Length + 1) Address
    0 Length s (Nat.lt_succ_self Length)
  exact ⟨ok, n, evs, s', hrun, htransferred, hpages hwrap,
    (hpages hwrap).complete_iff htransferred.complete⟩

end Phases
/-! ## A write into a page that is not writable -/

/-- No protocol, and only the pages below `0x2000` can be accessed. -/
def lowPages : DxeServices Unit := ⟨⟨fun _ _ a => a < 0x2000, fun _ _ a => a < 0x2000⟩, none⟩

/-- Memory of zeros, and a buffer of ones. -/
def blankMachine : PagedMachine Unit := ⟨fun _ => 0, (), fun _ => 1, []⟩

/-- Of four bytes from `0x1FFE` on two are written. -/
example : ((Dxe.accessMemory lowPages true 0x1FFE 4).run blankMachine).1 = some false ∧
    ((Dxe.accessMemory lowPages true 0x1FFE 4).run blankMachine).2.events =
      [.checked 0x1000 true, .copied 0x1FFE 2, .checked 0x2000 false] := by decide

theorem accessMemory_page_by_page_straddling :
    (∀ a t, ((Dxe.openPage lowPages true a).run t).1.isSome = true ↔ Dxe.Passes lowPages true a t) ∧
      CheckedByPage lowPages true 0x1FFE 4 blankMachine :=
  accessMemory_page_by_page lowPages true (by decide) blankMachine

end UefiDebugger
