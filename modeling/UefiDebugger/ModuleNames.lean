import UefiDebugger.ModuleLoadBreak

/-!
# The copy of a module's name

`OnLoadedImageNotification` copies the file name of an image to `Name[64]` and works on the copy: it
cuts it at its first dot and compares what is left.  That the copy fits is asserted only.  Here is
the function as it is built without assertions, with `Name` and what is behind it on the stack.

A round reads its answer off the copy, and the answer is that of the paths (`compareName_run`); a
call looks at images until one matches or fails, and stays in `Name` as long as their file names do.
-/
namespace UefiDebugger
open HexText ByteString StateEffect

/-! ## The code -/

/-- What the notification works on. -/
structure NamedLoads where
  loads : ModuleLoads
  name : ByteBuffer

/-- A program on it. -/
abbrev NameM := StateM NamedLoads

/-- A call that does not touch `Name`. -/
def onLoads {α : Type} (m : LoadM α) : NameM α := modifyGet fun s =>
  ((m.run s.loads).1, { s with loads := (m.run s.loads).2 })

/-- `ScanMem8 (Name, AsciiStrLen (Name), '.')`, and the terminator at what it finds.  The string in
`Name` ends within `limit` bytes. -/
def terminateName (limit : Nat) : NameM Unit := modify fun s =>
  match findByte s.name.bytes (char '.') 0 (strLen s.name.bytes limit 0) with
  | some NameEnd => { s with name := s.name.write NameEnd 0 }
  | none => s

/-- From the PDB path of an image to the comparison. -/
def compareName (PdbPointer : List UInt8) : NameM Bool := do
  let FileName := stripDirectories PdbPointer PdbPointer.length
  -- ASSERT (AsciiStrLen (PdbPointer) < sizeof (Name)) is nothing here.
  modify fun s => { s with name := s.name.writeAll 0 (FileName ++ [0]) }
  terminateName (FileName.length + 1)
  let s ← get
  let Name := cString s.name.bytes (FileName.length + 1) 0
  pure (decide (Name.length = s.loads.mDbgBreakOnModuleLoadString.length ∧
    asciiStriCmp s.loads.mDbgBreakOnModuleLoadString Name = 0))

/-- `while (TRUE)`. -/
def releasedImageLoop (fails : Nat → Bool) : (fuel : Nat) → NameM (Option Unit)
  | 0 => pure none
  | fuel + 1 => do
      let located ← onLoads locateHandle
      match located with
      | none => pure (some ())
      | some Handle => do
          let LoadedImage ← onLoads (handleProtocol fails Handle)
          match LoadedImage with
          | none => pure (some ())
          | some none => releasedImageLoop fails fuel
          | some (some PdbPointer) => do
              if ← compareName PdbPointer then do
                onLoads (debuggerBreakModuleLoad Handle)
                pure (some ())
              else releasedImageLoop fails fuel

/-- `OnLoadedImageNotification`. -/
def releasedImageNotification (fails : Nat → Bool) : NameM (Option Unit) := do
  let s ← get
  if s.loads.mDbgBreakOnModuleLoadString.length = 0 then pure (some ())
  else releasedImageLoop fails (s.loads.images.length + 1)

/-! ## The comparison -/

theorem takeWhile_cut {v : UInt8} (hv : v ≠ 0) : ∀ {bs : List UInt8}, (0 : UInt8) ∉ bs →
    (bs.set (bs.idxOf v) 0).takeWhile (· ≠ 0) = bs.takeWhile (· ≠ v)
  | [], _ => rfl
  | b :: bs, h => by
      have hb : b ≠ 0 := fun h0 => h (h0 ▸ List.mem_cons_self)
      have hbs : (0 : UInt8) ∉ bs := fun h0 => h (List.mem_cons_of_mem b h0)
      by_cases hbv : b = v
      · subst hbv
        rw [List.idxOf_cons_self, List.set_cons_zero, List.takeWhile_cons, List.takeWhile_cons]
        simp
      · rw [List.idxOf_cons_ne _ hbv, List.set_cons_succ, List.takeWhile_cons, List.takeWhile_cons,
          takeWhile_cut hv hbs]
        simp [hb, hbv]

/-- The cut leaves the base name in `Name`. -/
theorem terminateName_run {s : NamedLoads} {FileName : List UInt8}
    (h : Holds s.name.bytes 0 (FileName ++ [0])) (hstring : (0 : UInt8) ∉ FileName)
    (htop : FileName.length < s.name.writeTop) :
    ∃ name, (terminateName (FileName.length + 1)).run s = ((), { s with name := name }) ∧
      name.writeTop = s.name.writeTop ∧
      cString name.bytes (FileName.length + 1) 0 = FileName.takeWhile (· ≠ char '.') := by
  have hlength : strLen s.name.bytes (FileName.length + 1) 0 = FileName.length :=
    strLen_of_string h hstring (Nat.lt_succ_self _)
  have hfind := findByte_of_holds (v := char '.') (holds_append.mp h).1
  by_cases hdot : char '.' ∈ FileName
  · rw [if_pos hdot] at hfind
    have hindex : FileName.idxOf (char '.') < FileName.length := List.idxOf_lt_length_of_mem hdot
    refine ⟨s.name.write (0 + FileName.idxOf (char '.')) 0, ?_, ?_, ?_⟩
    · rw [terminateName, run_modify, hlength, hfind]
    · rw [ByteBuffer.write_writeTop]
      omega
    · have hcut := h.set (k := FileName.idxOf (char '.')) 0
      rw [List.set_append_left _ _ hindex] at hcut
      rw [ByteBuffer.write_bytes, cString_of_holds hcut (by simp),
        takeWhile_cut (by decide) hstring]
  · rw [if_neg hdot] at hfind
    refine ⟨s.name, ?_, rfl, ?_⟩
    · rw [terminateName, run_modify, hlength, hfind]
    · rw [cString_of_string h hstring (Nat.lt_succ_self _), takeWhile_ne hdot]

theorem fileName_subset {path : List UInt8} {c : UInt8} (h : c ∈ fileName path) : c ∈ path :=
  List.mem_reverse.mp ((List.takeWhile_sublist _).subset (List.mem_reverse.mp h))

/-- **A round's comparison** is that of the base name, and touches as much of `Name` as the file
name takes. -/
theorem compareName_run {s : NamedLoads} {path : List UInt8} (hstring : (0 : UInt8) ∉ path) :
    ∃ name, (compareName path).run s =
        (decide (SameName s.loads.mDbgBreakOnModuleLoadString (baseName path)),
          { s with name := name }) ∧
      name.writeTop = max s.name.writeTop ((fileName path).length + 1) := by
  set copied : NamedLoads :=
    { s with name := s.name.writeAll 0 (fileName path ++ [0]) } with hcopied
  have htop : copied.name.writeTop = max s.name.writeTop ((fileName path).length + 1) := by
    obtain ⟨v, vs, hcons⟩ :=
      List.exists_cons_of_ne_nil
      (List.append_ne_nil_of_right_ne_nil (fileName path) (List.cons_ne_nil 0 []))
    rw [hcopied]
    show (s.name.writeAll 0 (fileName path ++ [0])).writeTop = _
    rw [hcons, ByteBuffer.writeAll_writeTop, ← hcons, List.length_append, Nat.zero_add]
    rfl
  have hheld : Holds copied.name.bytes 0 (fileName path ++ [0]) := by
    rw [hcopied, ByteBuffer.writeAll_bytes]
    exact holds_store ..
  obtain ⟨name, hrun, hsame, htext⟩ :=
    terminateName_run hheld (fun h0 => hstring (fileName_subset h0)) (by omega)
  refine ⟨name, ?_, hsame.trans htop⟩
  rw [compareName, stripDirectories_fileName, run_bind, run_modify, run_bind, hrun, run_bind,
    run_get, htext]
  have hcompare := compare_iff s.loads.mDbgBreakOnModuleLoadString (baseName path)
  rw [run_pure]
  exact congrArg (fun b => (b, _)) (decide_eq_decide.mpr hcompare)

/-! ## The images a call looks at -/

/-- The call fetches the handle, gets to its image, and nothing in front of it ended the loop. -/
def ModuleLoads.Looked (s : ModuleLoads) (fails : Nat → Bool) (n : Nat) : Prop :=
  s.mDbgBreakOnModuleLoadString ≠ [] ∧ s.located ≤ n ∧ n < s.images.length ∧ ¬ fails n = true ∧
    ∀ m, s.located ≤ m → m < n → ¬ fails m = true ∧ ¬ s.Matches m

/-- The file name of the image, if it has one, fits into `Name` with its terminator. -/
def ModuleLoads.Fits (s : ModuleLoads) (n : Nat) : Prop :=
  ∀ path, s.images[n]? = some (some path) → (fileName path).length < moduleNameSize

/-- The call broke for the images it looked at that match, and for no others. -/
def BrokeForMatches (fails : Nat → Bool) (s s' : ModuleLoads) : Prop :=
  ∃ broke, s'.breaks = s.breaks ++ broke ∧ ∀ n, n ∈ broke ↔ s.Looked fails n ∧ s.Matches n

section Loop
variable {fails : Nat → Bool} {s : ModuleLoads} {n : Nat}

theorem matches_fetched : s.fetched.Matches n ↔ s.Matches n := Iff.rfl

/-- The next handle is looked at first, and the ones behind it unless it ends the loop. -/
theorem looked_iff (hname : s.mDbgBreakOnModuleLoadString ≠ []) (hlt : s.located < s.images.length)
    (hfails : ¬ fails s.located = true) :
    s.Looked fails n ↔ n = s.located ∨ ¬ s.Matches s.located ∧ s.fetched.Looked fails n := by
  constructor
  · rintro ⟨-, hge, hn, hn', hquiet⟩
    rcases Nat.eq_or_lt_of_le hge with heq | hbehind
    · exact Or.inl heq.symm
    · refine Or.inr ⟨(hquiet s.located (Nat.le_refl _) hbehind).2, hname, hbehind, hn, hn',
        fun m hm hmn => ?_⟩
      exact hquiet m (Nat.le_of_succ_le hm) hmn
  · rintro (rfl | ⟨hno, -, hge, hn, hn', hquiet⟩)
    · exact ⟨hname, Nat.le_refl _, hlt, hfails, fun m hm hmn => absurd hmn (Nat.not_lt.mpr hm)⟩
    · refine ⟨hname, Nat.le_of_succ_le hge, hn, hn', fun m hm hmn => ?_⟩
      rcases Nat.eq_or_lt_of_le hm with rfl | hbehind
      · exact ⟨hfails, hno⟩
      · exact hquiet m hbehind hmn

/-- Nothing is looked at when there is no next handle, or its image is not found. -/
theorem not_looked (h : ¬ s.located < s.images.length ∨ fails s.located = true) :
    ¬ s.Looked fails n := by
  rintro ⟨-, hge, hn, hn', hquiet⟩
  rcases h with hdrained | hfails
  · omega
  · rcases Nat.eq_or_lt_of_le hge with rfl | hbehind
    · exact hn' hfails
    · exact (hquiet s.located (Nat.le_refl _) hbehind).1 hfails

/-- What a call from `s` to `s'` did. -/
structure Compared (fails : Nat → Bool) (s s' : NamedLoads) : Prop where
  breaks : BrokeForMatches fails s.loads s'.loads
  inside : s'.name.writeTop ≤ moduleNameSize ↔
    s.name.writeTop ≤ moduleNameSize ∧ ∀ n, s.loads.Looked fails n → s.loads.Fits n

/-- A call that looks at nothing. -/
theorem compared_nothing {s s' : NamedLoads} (hbreaks : s'.loads.breaks = s.loads.breaks)
    (hname : s'.name = s.name) (hnothing : ∀ n, ¬ s.loads.Looked fails n) :
    Compared fails s s' where
  breaks := by
    refine ⟨[], by rw [hbreaks, List.append_nil], fun n => ?_⟩
    exact iff_of_false List.not_mem_nil fun h => hnothing n h.1
  inside := by
    rw [hname]
    exact ⟨fun h => ⟨h, fun n hn => absurd hn (hnothing n)⟩, fun h => h.1⟩

/-- The next image matches. -/
theorem compared_match {s s' : NamedLoads} (hlt : s.loads.located < s.loads.images.length)
    (hfails : ¬ fails s.loads.located = true) (hmatches : s.loads.Matches s.loads.located)
    (hbreaks : s'.loads.breaks = s.loads.breaks ++ [s.loads.located])
    (htop : s'.name.writeTop ≤ moduleNameSize ↔ s.name.writeTop ≤ moduleNameSize ∧
      s.loads.Fits s.loads.located) :
    Compared fails s s' := by
  have hlooked : ∀ n, s.loads.Looked fails n ↔ n = s.loads.located := fun n => by
    rw [looked_iff hmatches.1 hlt hfails]
    exact or_iff_left fun h => h.1 hmatches
  refine ⟨⟨_, hbreaks, fun n => ?_⟩, htop.trans (and_congr_right fun _ => ?_)⟩
  · rw [List.mem_singleton, hlooked]
    exact ⟨fun h => ⟨h, h ▸ hmatches⟩, fun h => h.1⟩
  · exact ⟨fun hfits n hn => (hlooked n).mp hn ▸ hfits, fun h => h _ ((hlooked _).mpr rfl)⟩

/-- The next image does not match, and the call goes on behind it. -/
theorem compared_behind {s s₁ s' : NamedLoads} (hlt : s.loads.located < s.loads.images.length)
    (hfails : ¬ fails s.loads.located = true) (hname : s.loads.mDbgBreakOnModuleLoadString ≠ [])
    (hother : ¬ s.loads.Matches s.loads.located) (hfetched : s₁.loads = s.loads.fetched)
    (htop : s₁.name.writeTop ≤ moduleNameSize ↔ s.name.writeTop ≤ moduleNameSize ∧
      s.loads.Fits s.loads.located)
    (h : Compared fails s₁ s') : Compared fails s s' := by
  obtain ⟨⟨broke, hbroke, hmem⟩, hinside⟩ := h
  rw [hfetched] at hbroke hinside
  have hlooked : ∀ n, s.loads.Looked fails n ↔ n = s.loads.located ∨
      s.loads.fetched.Looked fails n := fun n => by
    rw [looked_iff hname hlt hfails, and_iff_right hother]
  refine ⟨⟨broke, hbroke, fun n => ?_⟩, hinside.trans ?_⟩
  · rw [hmem n, hfetched, matches_fetched, hlooked]
    refine and_congr_left fun hn => ?_
    exact ⟨Or.inr, fun hor => hor.resolve_left fun heq => hother (heq ▸ hn)⟩
  · rw [htop, and_assoc]
    refine and_congr_right fun _ => ?_
    constructor
    · rintro ⟨hfits, hrest⟩ n hn
      rcases (hlooked n).mp hn with rfl | hn'
      · exact hfits
      · exact hrest n hn'
    · intro hall
      exact ⟨hall _ ((hlooked _).mpr (Or.inl rfl)), fun n hn =>
        hall n ((hlooked n).mpr (Or.inr hn))⟩

/-- The paths are strings. -/
def ModuleLoads.Strings (s : ModuleLoads) : Prop :=
  ∀ path, some path ∈ s.images → (0 : UInt8) ∉ path

/-! ## One round -/

/-- A round comes to the image of the next handle. -/
theorem round_image {s : NamedLoads} (fuel : Nat) (hlt : s.loads.located < s.loads.images.length)
    (hfails : ¬ fails s.loads.located = true) :
    (releasedImageLoop fails (fuel + 1)).run s =
      (s.loads.images[s.loads.located].elim (releasedImageLoop fails fuel) fun PdbPointer => do
        if ← compareName PdbPointer then do
          onLoads (debuggerBreakModuleLoad s.loads.located)
          pure (some ())
        else releasedImageLoop fails fuel).run { s with loads := s.loads.fetched } := by
  have hfetch : (onLoads locateHandle).run s =
      (some s.loads.located, { s with loads := s.loads.fetched }) := by
    rw [onLoads, run_modifyGet, locateHandle_run hlt]
  have himage : (onLoads (handleProtocol fails s.loads.located)).run
      { s with loads := s.loads.fetched } =
      (some s.loads.images[s.loads.located], { s with loads := s.loads.fetched }) := by
    have hget : s.loads.fetched.images[s.loads.located]? = some s.loads.images[s.loads.located] :=
      List.getElem?_eq_getElem hlt
    rw [onLoads, run_modifyGet, handleProtocol, run_modifyGet, if_neg hfails, List.getD, hget]
    rfl
  rw [releasedImageLoop, run_bind, hfetch, run_bind, himage]
  cases s.loads.images[s.loads.located] with
  | none => rfl
  | some path => rfl

/-- A round without a handle, or without an image. -/
theorem round_ends {s : NamedLoads} (fuel : Nat)
    (h : ¬ s.loads.located < s.loads.images.length ∨ fails s.loads.located = true) :
    ∃ s', (releasedImageLoop fails (fuel + 1)).run s = (some (), s') ∧
    s'.loads.breaks = s.loads.breaks ∧ s'.name = s.name := by
  by_cases hlt : s.loads.located < s.loads.images.length
  · have hfails : fails s.loads.located = true := h.resolve_left (not_not.mpr hlt)
    have hfetch : (onLoads locateHandle).run s =
        (some s.loads.located, { s with loads := s.loads.fetched }) := by
      rw [onLoads, run_modifyGet, locateHandle_run hlt]
    have himage : (onLoads (handleProtocol fails s.loads.located)).run
        { s with loads := s.loads.fetched } = (none, { s with loads := s.loads.fetched }) := by
      rw [onLoads, run_modifyGet, handleProtocol, run_modifyGet, if_pos hfails]
    refine ⟨{ s with loads := s.loads.fetched }, ?_, rfl, rfl⟩
    rw [releasedImageLoop, run_bind, hfetch, run_bind, himage]
    rfl
  · have hdrained : (onLoads locateHandle).run s = (none, s) := by
      rw [onLoads, run_modifyGet, locateHandle_drained hlt]
    refine ⟨s, ?_, rfl, rfl⟩
    rw [releasedImageLoop, run_bind, hdrained]
    rfl

/-- What a path at a handle says of it. -/
theorem path_iff {s : ModuleLoads} {path : List UInt8} (hname : s.mDbgBreakOnModuleLoadString ≠ [])
    (hget : s.images[n]? = some (some path)) :
    (s.Fits n ↔ (fileName path).length < moduleNameSize) ∧
      (s.Matches n ↔ SameName s.mDbgBreakOnModuleLoadString (baseName path)) := by
  have hpath : ∀ path', s.images[n]? = some (some path') → path' = path := fun path' heq =>
    Option.some.inj (Option.some.inj (heq.symm.trans hget))
  refine ⟨⟨fun h => h path hget, fun h path' heq => hpath path' heq ▸ h⟩, fun h => ?_,
    fun h => ⟨hname, path, hget, h⟩⟩
  obtain ⟨-, path', heq, hsame⟩ := h
  exact hpath path' heq ▸ hsame

/-- **The loop** returns, whatever the images are. -/
theorem releasedImageLoop_compared (fails : Nat → Bool) (fuel : Nat) (s : NamedLoads)
    (hfuel : s.loads.images.length - s.loads.located < fuel)
    (hname : s.loads.mDbgBreakOnModuleLoadString ≠ []) (hstrings : s.loads.Strings) :
    ∃ s', (releasedImageLoop fails fuel).run s = (some (), s') ∧ Compared fails s s' := by
  induction fuel generalizing s with
  | zero => omega
  | succ fuel ih =>
    by_cases hends : ¬ s.loads.located < s.loads.images.length ∨ fails s.loads.located = true
    · obtain ⟨s', hrun, hbreaks, hkept⟩ := round_ends fuel hends
      exact ⟨s', hrun, compared_nothing hbreaks hkept fun n => not_looked hends⟩
    obtain ⟨hlt, hfails⟩ : s.loads.located < s.loads.images.length ∧
      ¬ fails s.loads.located = true := by
      rwa [not_or, not_not] at hends
    have hget : s.loads.images[s.loads.located]? = some s.loads.images[s.loads.located] :=
      List.getElem?_eq_getElem hlt
    have hleft : s.loads.fetched.images.length - s.loads.fetched.located < fuel := by
      show s.loads.images.length - (s.loads.located + 1) < fuel
      omega
    rw [round_image fuel hlt hfails]
    cases hpath : s.loads.images[s.loads.located] with
    | none =>
      -- an image without a PDB path is passed over
      have hpathless : ∀ path, s.loads.images[s.loads.located]? ≠ some (some path) :=
        fun path heq => by
        rw [hget, hpath] at heq
        cases heq
      have hother : ¬ s.loads.Matches s.loads.located := fun ⟨_, path, heq, _⟩ => hpathless path heq
      have hfits : s.loads.Fits s.loads.located := fun path heq => absurd heq (hpathless path)
      obtain ⟨s', hrun, hcompared⟩ := ih { s with loads := s.loads.fetched } hleft hname hstrings
      refine ⟨s', hrun, compared_behind hlt hfails hname hother ?_ ?_ hcompared⟩
      · rfl
      · exact (and_iff_left hfits).symm
    | some path =>
      rw [hpath] at hget
      obtain ⟨hfits, hmatches⟩ := path_iff hname hget
      have hstring : (0 : UInt8) ∉ path := hstrings path (List.mem_of_getElem? hget)
      obtain ⟨name, hcompare, htop⟩ :=
        compareName_run (s := { s with loads := s.loads.fetched }) hstring
      have hinside : name.writeTop ≤ moduleNameSize ↔
          s.name.writeTop ≤ moduleNameSize ∧ s.loads.Fits s.loads.located := by
        rw [htop, hfits]
        exact max_le_iff
      have hset : SameName s.loads.fetched.mDbgBreakOnModuleLoadString (baseName path) ↔
          s.loads.Matches s.loads.located := hmatches.symm
      rw [Option.elim_some, run_bind, hcompare, run_ite]
      dsimp only
      by_cases hsame : s.loads.Matches s.loads.located
      · rw [if_pos (decide_eq_true (hset.mpr hsame))]
        exact ⟨_, rfl, compared_match hlt hfails hsame rfl hinside⟩
      · rw [if_neg fun hdecide => hsame (hset.mp (of_decide_eq_true hdecide))]
        obtain ⟨s', hrun, hcompared⟩ := ih ⟨s.loads.fetched, name⟩ hleft hname hstrings
        refine ⟨s', hrun, compared_behind hlt hfails hname hsame ?_ ?_ hcompared⟩
        · rfl
        · exact hinside

end Loop

/-! ## When names are matched exactly and in bounds -/

/-- The call from `s` to `s'` stayed in `Name`, and broke for the images that match. -/
structure NamesExact (fails : Nat → Bool) (s s' : NamedLoads) : Prop where
  inside : s'.name.writeTop ≤ moduleNameSize
  breaks : BrokeForMatches fails s.loads s'.loads

/-- A call on a stack that nothing was written to yet. -/
def NamedLoads.entered (s : ModuleLoads) (stack : Nat → UInt8) : NamedLoads := ⟨s, ⟨stack, 0, 0⟩⟩

/-- **When a notification stays in `Name` and matches names exactly**: when the file names of all
images that it looks at fit, in a build without assertions, whatever was on the stack. -/
theorem module_names_exact_iff (fails : Nat → Bool) (s : ModuleLoads) (stack : Nat → UInt8)
    (hstrings : s.Strings) :
    ∃ s', (releasedImageNotification fails).run (.entered s stack) = (some (), s') ∧
    (NamesExact fails (.entered s stack) s' ↔ ∀ n, s.Looked fails n → s.Fits n) := by
  have hempty : (NamedLoads.entered s stack).name.writeTop ≤ moduleNameSize := Nat.zero_le _
  have hexact : ∀ s', Compared fails (.entered s stack) s' →
      (NamesExact fails (.entered s stack) s' ↔ ∀ n, s.Looked fails n → s.Fits n) := fun s' h => by
    have hinside := h.inside.trans (and_iff_right hempty)
    exact ⟨fun hexact => hinside.mp hexact.inside, fun hfits => ⟨hinside.mpr hfits, h.breaks⟩⟩
  rw [releasedImageNotification, run_bind, run_get]
  by_cases hname : s.mDbgBreakOnModuleLoadString = []
  · refine ⟨.entered s stack, ?_,
      hexact _ (compared_nothing rfl rfl fun n hlooked => hlooked.1 hname)⟩
    have hlength : (NamedLoads.entered s stack).loads.mDbgBreakOnModuleLoadString.length = 0 :=
      List.length_eq_zero_iff.mpr hname
    rw [if_pos hlength]
    rfl
  · have hfuel : s.images.length - s.located < s.images.length + 1 := by omega
    obtain ⟨s', hrun, hcompared⟩ :=
      releasedImageLoop_compared fails _ (.entered s stack) hfuel hname hstrings
    have hlength : ¬ (NamedLoads.entered s stack).loads.mDbgBreakOnModuleLoadString.length = 0 :=
      mt List.length_eq_zero_iff.mp hname
    rw [if_neg hlength]
    exact ⟨s', hrun, hexact s' hcompared⟩

/-! ## One image -/

/-- One image was loaded since the registration, and a name is set. -/
def oneImage (Module PdbPointer : List UInt8) : ModuleLoads :=
  ⟨Module, [some PdbPointer], 0, 0, [], []⟩

theorem oneImage_strings {Module PdbPointer : List UInt8} (h : (0 : UInt8) ∉ PdbPointer) :
    (oneImage Module PdbPointer).Strings := fun path hmem => by
  obtain rfl := Option.some.inj (List.mem_singleton.mp hmem)
  exact h

theorem module_names_exact_iff_shell :
    ∃ s', (releasedImageNotification fun _ => false).run
        (.entered (oneImage (text "shell") (text "X:/Build\\Shell.dll.pdb")) fun _ => 0) =
        (some (), s') ∧
      NamesExact (fun _ => false)
      (.entered (oneImage (text "shell") (text "X:/Build\\Shell.dll.pdb")) fun _ => 0)
        s' := by
  obtain ⟨s', hrun, hexact⟩ := module_names_exact_iff (fun _ => false)
    (oneImage (text "shell") (text "X:/Build\\Shell.dll.pdb")) (fun _ => 0)
    (oneImage_strings (by decide +kernel))
  refine ⟨s', hrun, hexact.mpr fun n _ path hget => ?_⟩
  have hmem : some path ∈ [some (text "X:/Build\\Shell.dll.pdb")] := List.mem_of_getElem? hget
  obtain rfl := Option.some.inj (List.mem_singleton.mp hmem)
  decide +kernel

/-- A file name of 64 characters is copied with its terminator behind the end of `Name`. -/
theorem long_file_name_overruns :
    (oneImage (text "a") (List.replicate 64 (char 'a'))).Strings ∧
      ((releasedImageNotification fun _ => false).run
        (.entered (oneImage (text "a") (List.replicate 64 (char 'a'))) fun _ =>
          0)).2.name.writeTop = 65 ∧
      ¬ NamesExact (fun _ => false)
      (.entered (oneImage (text "a") (List.replicate 64 (char 'a'))) fun _ => 0)
        ((releasedImageNotification fun _ => false).run
          (.entered (oneImage (text "a") (List.replicate 64 (char 'a'))) fun _ => 0)).2 := by
  have htop : ((releasedImageNotification fun _ => false).run
      (.entered (oneImage (text "a") (List.replicate 64 (char 'a'))) fun _ => 0)).2.name.writeTop =
      65 := by
    decide +kernel
  have hstring : (0 : UInt8) ∉ List.replicate 64 (char 'a') :=
    fun h0 => absurd (List.eq_of_mem_replicate h0) (by decide)
  refine ⟨oneImage_strings hstring, htop, fun hexact => ?_⟩
  have hinside := hexact.inside
  rw [htop] at hinside
  exact absurd hinside (by decide)

end UefiDebugger
