import UefiDebugger.MemoryWriteEffect
import UefiDebugger.PacketReplies

/-!
# Breaking on a module load

`OnLoadedImageNotification` and `DbgSetBreakOnModuleLoad` of `DebugAgentDxe.c`.  An image load
installs a handle and signals an event; the notification function fetches the handles installed
since the registration one after the other and compares each image's name with the one that was set.
Boot services keep, for the registration, which handles were fetched already.

The function fetches nothing while no name is set and stops fetching at a match or an error, so a
notification may find the handles of earlier loads in front of its own.  The name comes from the
monitor command `b` of the stub.
-/
namespace UefiDebugger
open HexText ByteString StateEffect

/-! ## Names -/

/-- `AsciiStriCmp`, of strings without their terminator. -/
def asciiStriCmp : (FirstString SecondString : List UInt8) → Int
  | [], [] => 0
  | [], d :: _ => - (asciiCharToUpper d).toNat
  | c :: _, [] => (asciiCharToUpper c).toNat
  | c :: cs, d :: ds =>
      if asciiCharToUpper c = asciiCharToUpper d then asciiStriCmp cs ds
      else (asciiCharToUpper c).toNat - (asciiCharToUpper d).toNat

/-- A character that ends a directory. -/
def isSeparator (c : UInt8) : Bool := c = char '\\' || c = char '/'

/-- The loop that strips off the directories, downwards from `Index`. -/
def stripDirectories (PdbPointer : List UInt8) : (Index : Nat) → List UInt8
  | 0 => PdbPointer
  | Index + 1 =>
      if isSeparator (PdbPointer.getD Index 0) = true then PdbPointer.drop (Index + 1)
      else stripDirectories PdbPointer Index

/-- `ScanMem8 (Name, AsciiStrLen (Name), '.')` and the cut at what it finds. -/
def cutExtension (Name : List UInt8) : List UInt8 :=
  match Name.findIdx? (· = char '.') with
  | some NameEnd => Name.take NameEnd
  | none => Name

/-- `sizeof (Name)` and `sizeof (mDbgBreakOnModuleLoadString)`. -/
def moduleNameSize : Nat := 64

/-! ## The state -/

/-- The string and boot services.  A handle is the position of its image in the order of
installation, and an image is its PDB path, if it has one.  `located` handles were fetched, and
`delivered` notifications returned: the next one is that of handle `delivered`.  `breaks` has the
images `DebuggerBreak` was called for. -/
structure ModuleLoads where
  mDbgBreakOnModuleLoadString : List UInt8
  images : List (Option (List UInt8))
  located : Nat
  delivered : Nat
  breaks : List Nat
  failedAsserts : List String

/-- Before the first load. -/
def ModuleLoads.initial : ModuleLoads := ⟨[], [], 0, 0, [], []⟩

/-- A program on it. -/
abbrev LoadM := StateM ModuleLoads

/-- `LocateHandle (ByRegisterNotify, NULL, mLoadedImageRegistration, …)`. -/
def locateHandle : LoadM (Option Nat) := modifyGet fun s =>
  if s.located < s.images.length then (some s.located, { s with located := s.located + 1 })
  else (none, s)

/-- `HandleProtocol` and `PeCoffLoaderGetPdbPointer`; the call fails for the handles in `fails`. -/
def handleProtocol (fails : Nat → Bool) (Handle : Nat) : LoadM (Option (Option (List UInt8))) :=
  modifyGet fun s => (if fails Handle = true then none else some (s.images.getD Handle none), s)

/-- `DebuggerBreak (BreakpointReasonModuleLoad)`.  What the debugger sets in the stop is set behind
the loop, which the caller leaves. -/
def debuggerBreakModuleLoad (Handle : Nat) : LoadM Unit :=
  modify fun s => { s with breaks := s.breaks ++ [Handle] }

/-- `while (TRUE)`.  Nothing follows a failed ASSERT.  Without a result the loop is still running
when the rounds are used up. -/
def onLoadedImageLoop (fails : Nat → Bool) : (fuel : Nat) → LoadM (Option Unit)
  | 0 => pure none
  | fuel + 1 => do
      let located ← locateHandle
      match located with
      | none => pure (some ())
      | some Handle => do
          let LoadedImage ← handleProtocol fails Handle
          match LoadedImage with
          | none => pure (some ())
          | some none => onLoadedImageLoop fails fuel
          | some (some PdbPointer) => do
              let FileName := stripDirectories PdbPointer PdbPointer.length
              if FileName.length < moduleNameSize then do
                let Name := cutExtension FileName
                let s ← get
                if Name.length = s.mDbgBreakOnModuleLoadString.length ∧
                    asciiStriCmp s.mDbgBreakOnModuleLoadString Name = 0 then do
                  debuggerBreakModuleLoad Handle
                  pure (some ())
                else onLoadedImageLoop fails fuel
              else do
                modify fun s =>
                  { s with failedAsserts := s.failedAsserts ++
                    ["AsciiStrLen (PdbPointer) < sizeof (Name)"] }
                pure (some ())

/-- `OnLoadedImageNotification`. -/
def onLoadedImageNotification (fails : Nat → Bool) : LoadM (Option Unit) := do
  let s ← get
  if s.mDbgBreakOnModuleLoadString.length = 0 then pure (some ())
  else onLoadedImageLoop fails (s.images.length + 1)

/-- `DbgSetBreakOnModuleLoad`. -/
def dbgSetBreakOnModuleLoad (Module : List UInt8) : LoadM Bool :=
  if moduleNameSize ≤ Module.length then pure false
  else do
    modify fun s => { s with mDbgBreakOnModuleLoadString := Module }
    pure true

/-- What happens: an image is loaded, a notification is delivered, the debugger sets a name. -/
inductive LoadEvent where
  | installed (PdbPointer : Option (List UInt8))
  | notified (fails : Nat → Bool)
  | monitor (Module : List UInt8)

/-- An event. -/
def loadStep : LoadEvent → LoadM Unit
  | .installed PdbPointer => modify fun s => { s with images := s.images ++ [PdbPointer] }
  | .notified fails => do
      let _ ← onLoadedImageNotification fails
      modify fun s => { s with delivered := s.delivered + 1 }
  | .monitor Module => do
      let _ ← dbgSetBreakOnModuleLoad Module
      pure ()

/-! ## What a name is -/

/-- The file name of a path: what is behind its last separator. -/
def fileName (path : List UInt8) : List UInt8 :=
  (path.reverse.takeWhile fun c => ! isSeparator c).reverse

/-- The base name: the file name up to its first dot. -/
def baseName (path : List UInt8) : List UInt8 := (fileName path).takeWhile (· ≠ char '.')

/-- Two names are the same up to the case of their letters. -/
def SameName (a b : List UInt8) : Prop := a.map asciiCharToUpper = b.map asciiCharToUpper

instance (a b : List UInt8) : Decidable (SameName a b) := inferInstanceAs (Decidable (_ = _))

theorem stripDirectories_eq (path : List UInt8) : ∀ Index ≤ path.length,
    stripDirectories path Index =
    ((path.take Index).reverse.takeWhile fun c => ! isSeparator c).reverse ++ path.drop Index := by
  intro Index
  induction Index with
  | zero => intro _; simp [stripDirectories]
  | succ Index ih =>
    intro h
    have hget : path.getD Index 0 = path[Index] := by
      simp [List.getD, List.getElem?_eq_getElem (by omega : Index < path.length)]
    rw [stripDirectories, hget, List.take_succ_eq_append_getElem (by omega), List.reverse_append,
      List.reverse_singleton, List.singleton_append, List.takeWhile_cons]
    by_cases hsep : isSeparator path[Index] = true
    · simp [hsep]
    · rw [if_neg hsep, ih (by omega), if_pos (by simpa using hsep), List.reverse_cons,
        List.append_assoc, List.singleton_append,
        List.drop_eq_getElem_cons (by omega : Index < path.length)]

/-- The loop finds the file name. -/
theorem stripDirectories_fileName (path : List UInt8) :
    stripDirectories path path.length = fileName path := by
  rw [stripDirectories_eq path _ (le_refl _), List.take_length, List.drop_length,
    List.append_nil, fileName]

/-- The cut finds the base name. -/
theorem cutExtension_eq (Name : List UInt8) :
    cutExtension Name = Name.takeWhile (· ≠ char '.') := by
  rw [cutExtension]
  induction Name with
  | nil => rfl
  | cons c cs ih =>
    rw [List.findIdx?_cons, List.takeWhile_cons]
    by_cases hc : c = char '.'
    · simp [hc]
    · simp only [hc, decide_false, Bool.false_eq_true, if_false, ne_eq, not_false_eq_true,
        decide_true, if_true]
      rw [← ih]
      cases cs.findIdx? (· = char '.') with
      | none => rfl
      | some NameEnd => rfl

theorem asciiStriCmp_iff : ∀ {a b : List UInt8}, a.length = b.length →
    (asciiStriCmp a b = 0 ↔ SameName a b)
  | [], [], _ => by simp [asciiStriCmp, SameName]
  | c :: cs, d :: ds, h => by
    have ih := asciiStriCmp_iff (a := cs) (b := ds) (by simpa using h)
    rw [asciiStriCmp, SameName, List.map_cons, List.map_cons, List.cons.injEq]
    by_cases hcd : asciiCharToUpper c = asciiCharToUpper d
    · rw [if_pos hcd]
      exact ih.trans ⟨fun hs => ⟨hcd, hs⟩, fun hs => hs.2⟩
    · rw [if_neg hcd]
      have hne : (asciiCharToUpper c).toNat ≠ (asciiCharToUpper d).toNat :=
        fun heq => hcd (UInt8.toNat_inj.mp heq)
      constructor
      · intro hzero
        omega
      · exact fun hs => absurd hs.1 hcd

/-- The comparison of the loop. -/
theorem compare_iff (a b : List UInt8) : (b.length = a.length ∧ asciiStriCmp a b = 0) ↔
    SameName a b := by
  constructor
  · rintro ⟨hlength, hcmp⟩
    exact (asciiStriCmp_iff hlength.symm).mp hcmp
  · intro h
    have hlength : a.length = b.length := by
      have := congrArg List.length h
      simpa using this
    exact ⟨hlength.symm, (asciiStriCmp_iff hlength).mpr h⟩

/-! ## One notification -/

section Notification
variable {fails : Nat → Bool} {s : ModuleLoads} {n : Nat}

/-- The image of a handle has the name that is set. -/
def ModuleLoads.Matches (s : ModuleLoads) (n : Nat) : Prop :=
  s.mDbgBreakOnModuleLoadString ≠ [] ∧
    ∃ path, s.images[n]? = some (some path) ∧ SameName s.mDbgBreakOnModuleLoadString (baseName path)

instance (s : ModuleLoads) (n : Nat) : Decidable (s.Matches n) :=
  decidable_of_iff (s.mDbgBreakOnModuleLoadString ≠ [] ∧
    ((s.images[n]?).join.any fun path =>
      decide (SameName s.mDbgBreakOnModuleLoadString (baseName path))) = true) <| by
    rw [ModuleLoads.Matches]
    refine and_congr_right fun _ => ?_
    cases s.images[n]? with
    | none => simp
    | some image => cases image <;> simp

/-- The handle ends the loop without a comparison: `HandleProtocol` fails, or the file name does not
fit. -/
def ModuleLoads.Blocks (s : ModuleLoads) (fails : Nat → Bool) (n : Nat) : Prop :=
  fails n = true ∨ ∃ path, s.images[n]? = some (some path) ∧ moduleNameSize ≤ (fileName path).length

/-- The handle ends the loop. -/
def ModuleLoads.Stops (s : ModuleLoads) (fails : Nat → Bool) (n : Nat) : Prop :=
  s.Blocks fails n ∨ s.Matches n

/-- How the loop ends: nothing that is left stops it, or it stops at the first handle that does. -/
inductive LoopEnds (fails : Nat → Bool) (s s' : ModuleLoads) : Prop
  | drained (quiet : ∀ m, s.located ≤ m → m < s.images.length → ¬ s.Stops fails m)
      (breaks : s'.breaks = s.breaks)
  | blocked (n : Nat) (here : s.located ≤ n ∧ n < s.images.length)
      (quiet : ∀ m, s.located ≤ m → m < n → ¬ s.Stops fails m) (blocks : s.Blocks fails n)
      (breaks : s'.breaks = s.breaks)
  | found (n : Nat) (here : s.located ≤ n ∧ n < s.images.length)
      (quiet : ∀ m, s.located ≤ m → m < n → ¬ s.Stops fails m) (named : s.Matches n)
      (passes : ¬ s.Blocks fails n) (breaks : s'.breaks = s.breaks ++ [n])

/-- What a round looks at is not changed by fetching a handle. -/
def ModuleLoads.fetched (s : ModuleLoads) : ModuleLoads := { s with located := s.located + 1 }

/-- A handle that does not stop the loop. -/
theorem LoopEnds.behind {s' : ModuleLoads} (hquiet : ¬ s.Stops fails s.located)
    (h : LoopEnds fails s.fetched s') :
    LoopEnds fails s s' := by
  have hbehind : ∀ m b, (∀ m, s.located + 1 ≤ m → m < b → ¬ s.Stops fails m) →
      s.located ≤ m → m < b → ¬ s.Stops fails m := by
    intro m b hrest hm hmb
    rcases Nat.eq_or_lt_of_le hm with rfl | hlt
    · exact hquiet
    · exact hrest m hlt hmb
  cases h with
  | drained quiet breaks => exact .drained (fun m => hbehind m _ quiet) breaks
  | blocked n here quiet blocks breaks =>
    exact .blocked n ⟨Nat.le_of_succ_le here.1, here.2⟩ (fun m => hbehind m _ quiet) blocks breaks
  | found n here quiet named passes breaks =>
    exact .found n ⟨Nat.le_of_succ_le here.1, here.2⟩ (fun m => hbehind m _ quiet) named
      passes breaks

/-- What a notification leaves alone. -/
def ModuleLoads.loaded (s : ModuleLoads) : List UInt8 × List (Option (List UInt8)) × Nat :=
  (s.mDbgBreakOnModuleLoadString, s.images, s.delivered)

/-- A handle that is fetched. -/
theorem locateHandle_run (h : s.located < s.images.length) :
    locateHandle.run s = (some s.located, s.fetched) := by
  rw [locateHandle, run_modifyGet, if_pos h]
  rfl

theorem locateHandle_drained (h : ¬ s.located < s.images.length) :
    locateHandle.run s = (none, s) := by
  rw [locateHandle, run_modifyGet, if_neg h]

/-- A round whose handle is the next one and has a PDB path. -/
theorem round_path {path : List UInt8} (fuel : Nat) (h : s.images[s.located]? = some (some path))
    (hfails : ¬ fails s.located = true) (hfits : (fileName path).length < moduleNameSize) :
    (onLoadedImageLoop fails (fuel + 1)).run s =
      if SameName s.mDbgBreakOnModuleLoadString (baseName path) then
        (some (), { s.fetched with breaks := s.breaks ++ [s.located] })
      else (onLoadedImageLoop fails fuel).run s.fetched := by
  obtain ⟨hlt, hget⟩ := List.getElem?_eq_some_iff.mp h
  have hprotocol : (handleProtocol fails s.located).run s.fetched =
      (some (some path), s.fetched) := by
    rw [handleProtocol, run_modifyGet, if_neg hfails, List.getD,
      show s.fetched.images[s.located]? = _ from h]
    rfl
  rw [onLoadedImageLoop, run_bind, locateHandle_run hlt]
  simp only [run_bind, hprotocol]
  rw [stripDirectories_fileName, if_pos hfits, run_bind, run_get, cutExtension_eq]
  simp only []
  rw [show List.takeWhile (· ≠ char '.') (fileName path) = baseName path from rfl]
  by_cases hsame : SameName s.mDbgBreakOnModuleLoadString (baseName path)
  · rw [if_pos hsame, if_pos ((compare_iff s.fetched.mDbgBreakOnModuleLoadString _).mpr hsame)]
    rfl
  · rw [if_neg hsame, if_neg fun hcompare =>
      hsame ((compare_iff s.fetched.mDbgBreakOnModuleLoadString _).mp hcompare)]

/-- **The loop.**  It ends, in one of the three ways. -/
theorem onLoadedImageLoop_spec (fails : Nat → Bool) : ∀ (fuel : Nat) (s : ModuleLoads),
    s.images.length - s.located < fuel → s.mDbgBreakOnModuleLoadString ≠ [] →
    ∃ s', (onLoadedImageLoop fails fuel).run s = (some (), s') ∧ LoopEnds fails s s' ∧
    s'.loaded = s.loaded := by
  intro fuel
  induction fuel with
  | zero => intro s hfuel; omega
  | succ fuel ih =>
    intro s hfuel hname
    by_cases hlt : s.located < s.images.length
    · -- A handle at which nothing stops leaves the rest of the loop as it was.
      have hnext : (¬ s.Stops fails s.located) →
          (onLoadedImageLoop fails (fuel + 1)).run s = (onLoadedImageLoop fails fuel).run
          s.fetched → ∃ s', (onLoadedImageLoop fails (fuel + 1)).run s = (some (), s') ∧
          LoopEnds fails s s' ∧ s'.loaded = s.loaded := by
        intro hquiet hrun
        obtain ⟨s', hrest, hends, hloaded⟩ :=
          ih s.fetched (by show s.images.length - (s.located + 1) < fuel; omega) hname
        exact ⟨s', hrun.trans hrest, hends.behind hquiet, hloaded⟩
      have hhere : s.located ≤ s.located ∧ s.located < s.images.length := ⟨le_refl _, hlt⟩
      have hbefore : ∀ m, s.located ≤ m → m < s.located → ¬ s.Stops fails m :=
        fun m hm hlt => by omega
      have hget : s.images[s.located]? = some s.images[s.located] := List.getElem?_eq_getElem hlt
      by_cases hfails : fails s.located = true
      · -- The handle is fetched, and the function returns in front of the others.
        refine ⟨s.fetched, ?_, .blocked s.located hhere hbefore (Or.inl hfails) rfl, rfl⟩
        rw [onLoadedImageLoop, run_bind, locateHandle_run hlt]
        simp only [run_bind]
        rw [handleProtocol, run_modifyGet, if_pos hfails]
        rfl
      · cases himage : s.images[s.located] with
        | none =>
          rw [himage] at hget
          -- An image without a path is passed over.
          refine hnext ?_ ?_
          · rintro ((h | ⟨path, hpath, -⟩) | ⟨-, path, hpath, -⟩)
            · exact hfails h
            · rw [hget] at hpath
              cases hpath
            · rw [hget] at hpath
              cases hpath
          · rw [onLoadedImageLoop, run_bind, locateHandle_run hlt]
            simp only [run_bind]
            rw [handleProtocol, run_modifyGet, if_neg hfails, List.getD,
              show s.fetched.images[s.located]? = _ from hget]
            rfl
        | some path =>
          rw [himage] at hget
          have hpaths : ∀ path', s.images[s.located]? = some (some path') → path' = path := by
            intro path' hpath'
            rw [hget] at hpath'
            exact (Option.some.inj (Option.some.inj hpath')).symm
          by_cases hfits : (fileName path).length < moduleNameSize
          · have hpasses : ¬ s.Blocks fails s.located := by
              rintro (h | ⟨path', hpath', hlong⟩)
              · exact hfails h
              · rw [hpaths path' hpath'] at hlong
                omega
            have hround := round_path fuel hget hfails hfits
            by_cases hsame : SameName s.mDbgBreakOnModuleLoadString (baseName path)
            · rw [if_pos hsame] at hround
              exact ⟨_, hround,
                .found s.located hhere hbefore ⟨hname, path, hget, hsame⟩ hpasses rfl, rfl⟩
            · rw [if_neg hsame] at hround
              refine hnext ?_ hround
              rintro (h | ⟨-, path', hpath', hsame'⟩)
              · exact hpasses h
              · rw [hpaths path' hpath'] at hsame'
                exact hsame hsame'
          · refine ⟨{ s.fetched with failedAsserts := s.failedAsserts ++
              ["AsciiStrLen (PdbPointer) < sizeof (Name)"] }, ?_,
              .blocked s.located hhere hbefore (Or.inr ⟨path, hget, by omega⟩) rfl, rfl⟩
            rw [onLoadedImageLoop, run_bind, locateHandle_run hlt]
            simp only [run_bind]
            rw [handleProtocol, run_modifyGet, if_neg hfails, List.getD,
              show s.fetched.images[s.located]? = _ from hget]
            simp only [Option.getD_some]
            rw [stripDirectories_fileName, if_neg hfits]
            rfl
    · refine ⟨s, ?_, .drained (fun m hm hmlt => by omega) rfl, rfl⟩
      rw [onLoadedImageLoop, run_bind, locateHandle_drained hlt]
      rfl

/-- A notification returns; it fetches nothing if no name is set. -/
theorem onLoadedImageNotification_spec (fails : Nat → Bool) (s : ModuleLoads) :
    ∃ s', (onLoadedImageNotification fails).run s = (some (), s') ∧ s'.loaded = s.loaded ∧
      (s.mDbgBreakOnModuleLoadString = [] ∧ s'.breaks = s.breaks ∨
        s.mDbgBreakOnModuleLoadString ≠ [] ∧ LoopEnds fails s s') := by
  rw [onLoadedImageNotification, run_bind, run_get]
  by_cases hname : s.mDbgBreakOnModuleLoadString = []
  · refine ⟨s, ?_, rfl, Or.inl ⟨hname, rfl⟩⟩
    rw [if_pos (by simp [hname])]
    rfl
  · obtain ⟨s', hrun, hends, hloaded⟩ :=
      onLoadedImageLoop_spec fails (s.images.length + 1) s (by omega) hname
    refine ⟨s', ?_, hloaded, Or.inr ⟨hname, hends⟩⟩
    rw [if_neg (by simpa using hname)]
    exact hrun

/-! ## When a notification is right -/

/-- The notification breaks exactly if its own image has the name, and for that image. -/
def BreaksForLoad (fails : Nat → Bool) (s : ModuleLoads) : Prop :=
  (s.Matches s.delivered → ((onLoadedImageNotification fails).run s).2.breaks = s.breaks ++
    [s.delivered]) ∧ (¬ s.Matches s.delivered →
    ((onLoadedImageNotification fails).run s).2.breaks = s.breaks)

/-- What is left of earlier loads does not get in the way.  If the image has the name, its handle is
still to be fetched, nothing in front of it stops the loop, and it can be compared.  If it has not,
then no image that is left has the name, unless the loop stops at one that cannot be compared. -/
structure NothingInTheWay (fails : Nat → Bool) (s : ModuleLoads) : Prop where
  own : s.Matches s.delivered → s.located ≤ s.delivered ∧ ¬ s.Blocks fails s.delivered ∧
    ∀ m, s.located ≤ m → m < s.delivered → ¬ s.Stops fails m
  others : ¬ s.Matches s.delivered → ∀ n, s.located ≤ n → s.Matches n → ∃ m, s.located ≤ m ∧ m ≤ n ∧
    s.Blocks fails m

theorem ModuleLoads.Matches.installed (h : s.Matches n) : n < s.images.length := by
  obtain ⟨-, path, hpath, -⟩ := h
  exact (List.getElem?_eq_some_iff.mp hpath).1

/-- The handle the loop broke at is the first of those that stop it. -/
theorem first_stop_unique {k : Nat} (hn : s.located ≤ n) (hk : s.located ≤ k)
    (hstops : s.Stops fails n) (hstopsk : s.Stops fails k)
    (hquiet : ∀ m, s.located ≤ m → m < n → ¬ s.Stops fails m)
    (hquietk : ∀ m, s.located ≤ m → m < k → ¬ s.Stops fails m) : n = k := by
  rcases Nat.lt_trichotomy n k with hlt | rfl | hlt
  · exact absurd hstops (hquietk n hn hlt)
  · rfl
  · exact absurd hstopsk (hquiet k hk hlt)

theorem breaks_ne (l : List Nat) (n : Nat) : l ++ [n] ≠ l := by
  intro h
  have := congrArg List.length h
  simp at this

/-- **A notification is right exactly when nothing is in its way.** -/
theorem breaksForLoad_iff (fails : Nat → Bool) (s : ModuleLoads) :
    BreaksForLoad fails s ↔ NothingInTheWay fails s := by
  obtain ⟨s', hrun, -, hcase⟩ := onLoadedImageNotification_spec fails s
  rw [BreaksForLoad, hrun]
  rcases hcase with ⟨hname, hbreaks⟩ | ⟨hname, hends⟩
  · -- No name is set: nothing matches.
    have hnone : ∀ n, ¬ s.Matches n := fun n h => h.1 hname
    exact ⟨fun _ => ⟨fun h => absurd h (hnone _), fun _ n _ h => absurd h (hnone n)⟩,
      fun _ => ⟨fun h => absurd h (hnone _), fun _ => hbreaks⟩⟩
  · -- The first handle at which the loop stops decides what is reported.
    cases hends with
    | drained quiet hbreaks =>
      have hnone : ∀ n, s.located ≤ n → ¬ s.Matches n :=
        fun n hn h => quiet n hn h.installed (Or.inr h)
      constructor
      · intro hright
        refine ⟨fun h => ?_, fun _ n hn h => absurd h (hnone n hn)⟩
        exact absurd (hbreaks.symm.trans (hright.1 h)).symm (breaks_ne _ _)
      · intro hclear
        exact ⟨fun h => absurd h (hnone _ (hclear.own h).1), fun _ => hbreaks⟩
    | blocked n here quiet blocks hbreaks =>
      constructor
      · intro hright
        refine ⟨fun h => absurd (hbreaks.symm.trans (hright.1 h)).symm (breaks_ne _ _),
          fun _ k hk h => ?_⟩
        rcases Nat.lt_or_ge k n with hlt | hge
        · exact absurd (Or.inr h) (quiet k hk hlt)
        · exact ⟨n, here.1, hge, blocks⟩
      · intro hclear
        refine ⟨fun h => ?_, fun _ => hbreaks⟩
        obtain ⟨hlocated, hpasses, hquiet⟩ := hclear.own h
        have hsame := first_stop_unique here.1 hlocated (Or.inl blocks) (Or.inr h) quiet hquiet
        rw [hsame] at blocks
        exact absurd blocks hpasses
    | found n here quiet named passes hbreaks =>
      constructor
      · intro hright
        by_cases h : s.Matches s.delivered
        · have hown : n = s.delivered := by
            have := List.append_cancel_left (hbreaks.symm.trans (hright.1 h))
            exact List.head_eq_of_cons_eq this
          rw [hown] at here quiet passes
          exact ⟨fun _ => ⟨here.1, passes, quiet⟩, fun hno => absurd h hno⟩
        · exact absurd (hbreaks.symm.trans (hright.2 h)) (breaks_ne _ _)
      · intro hclear
        refine ⟨fun h => ?_, fun h => ?_⟩
        · obtain ⟨hlocated, -, hquiet⟩ := hclear.own h
          rw [hbreaks, first_stop_unique here.1 hlocated (Or.inr named) (Or.inr h) quiet hquiet]
        · obtain ⟨m, hm, hmn, hblocks⟩ := hclear.others h n here.1 named
          rcases Nat.eq_or_lt_of_le hmn with rfl | hlt
          · exact absurd hblocks passes
          · exact absurd (Or.inl hblocks) (quiet m hm hlt)

end Notification

/-! ## The command -/

section Command
variable {σ : Type}

theorem target_finishMonitor : Keeps Stub.target (finishMonitor : StubM σ Unit) := by
  have hconsole : Keeps Stub.target (sendConsole : StubM σ Unit) :=
    keeps_bind (keeps_writeResponse _ _) fun _ =>
    keeps_bind (keeps_convertResponseToHex _ _) fun _ =>
      keeps_sendGdbResponse _
  exact keeps_bind hconsole fun _ => keeps_sendGdbResponse _

/-- On digits the loop decodes the bytes they spell. -/
theorem decodeMonitorCommand_run : ∀ (n i : Nat) (ds : List UInt8) (s : Stub σ), ds.length = 2 * n →
    (∀ c ∈ ds, isDigit c = true) → Holds s.mRequest.bytes i ds →
    ∃ b, (decodeMonitorCommand n i).run s = (readBytes ds, { s with mRequest := b })
  | 0, i, ds, s, hlen, _, _ => by
      obtain rfl := List.length_eq_zero_iff.mp hlen
      exact ⟨s.mRequest, rfl⟩
  | n + 1, i, ds, s, hlen, hdigits, h => by
      obtain ⟨c, d, ds, rfl, hrest⟩ := exists_pair hlen
      have hbyte :=
        hexToByte_run (s := s) (v := i) ⟨h.1, h.2.1, trivial⟩ (hdigits c (by simp))
        (hdigits d (by simp))
      obtain ⟨b, hrun⟩ := decodeMonitorCommand_run n (i + 2) ds
        { s with mRequest := s.mRequest.mark (max (i + 1) (i + 1 + 1)) } hrest
        (fun x hx => hdigits x (by simp [hx])) h.2.2
      refine ⟨b, ?_⟩
      rw [decodeMonitorCommand, run_bind, hbyte, run_bind, hrun]
      rfl

/-- The command `b` with a name. -/
theorem monitorSwitch_module (P : Platform σ) (name : List UInt8) (s : Stub σ) :
    ((monitorSwitch P (char 'b' :: name)).run s).2.target =
    (P.dbgSetBreakOnModuleLoad name s.target).2 := by
  have hother : ∀ c : Char, char c ≠ char 'b' → ¬ (char 'b' :: name).head? = some (char c) := by
    intro c hc hhead
    exact hc (Option.some.inj hhead).symm
  rw [monitorSwitch, run_bind, run_get]
  dsimp only
  rw [if_neg (hother '?' (by decide)), if_neg (hother 'i' (by decide)),
    if_neg (hother 'v' (by decide)), if_neg (hother 'V' (by decide)),
    if_neg (hother 'm' (by decide)), if_neg (hother 'M' (by decide)),
    if_neg (hother 'R' (by decide)),
    if_pos (show (char 'b' :: name).head? = some (char 'b') from rfl), run_bind,
    run_modifyGet, run_ite]
  split
  · rfl
  · rfl

/-- The text of `qRcmd` with the command `b` and a name in digits. -/
structure SetsModule (p name : List UInt8) : Prop where
  spelled : ∃ digits, p = text "qRcmd,62" ++ digits ∧ digits.length = 2 * name.length ∧
    (∀ c ∈ digits, isDigit c = true) ∧ readBytes digits = name
  string : (0 : UInt8) ∉ name
  short : name.length + 1 < monitorCommandSize

/-- From where the request is read, `m` leaves the machine as `target'`. -/
def Leaves (w : List UInt8) (target target' : σ) (m : StubM σ Unit) : Prop :=
  ∀ t, t.target = target → Holds t.mRequest.bytes 2 (w ++ [0]) → (m.run t).2.target = target'

/-- A comparison of `ProcessQuery` with another word than `Rcmd,`. -/
theorem leaves_compare {w str : List UInt8} {target target' : σ} {k : Nat} {m n : StubM σ Unit}
    (hliteral : (0 : UInt8) ∉ str ∧ k ≤ str.length) (hrcmd : text "Rcmd," <+: w)
    (hother : ¬ str.take k <+: text "Rcmd," ∧ ¬ text "Rcmd," <+: str.take k)
    (hn : Leaves w target target' n) : Leaves w target target' (do
      if ← asciiStrnCmpEq 2 str k then m else n) := by
  intro t ht hheld
  have hcompare : ((asciiStrnCmpEq 2 str k).run t).1 = true ↔ str.take k <+: w :=
    strNEq_literal hliteral.1 hliteral.2 hheld
  have hdiffers : ¬ str.take k <+: w := by
    intro hprefix
    rcases List.prefix_or_prefix_of_prefix hprefix hrcmd with hp | hp
    · exact hother.1 hp
    · exact hother.2 hp
  rw [run_bind, if_neg (mt hcompare.mp hdiffers)]
  exact hn _ ht hheld

theorem leaves_rcmd {w : List UInt8} {target target' : σ} {m n : StubM σ Unit}
    (hrcmd : text "Rcmd," <+: w) (hm : Leaves w target target' m) : Leaves w target target' (do
      if ← asciiStrnCmpEq 2 (text "Rcmd,") 5 then m else n) := by
  intro t ht hheld
  have hcompare : ((asciiStrnCmpEq 2 (text "Rcmd,") 5).run t).1 = true ↔
      (text "Rcmd,").take 5 <+: w :=
    strNEq_literal (by decide) (by decide) hheld
  rw [run_bind, if_pos (hcompare.mpr hrcmd)]
  exact hm _ ht hheld

/-- **The monitor command `b`** hands its name to `DbgSetBreakOnModuleLoad`. -/
theorem monitor_sets_module (P : Platform σ) {s : Stub σ} {p name : List UInt8}
    (h : Payload s.mRequest p) (hp : SetsModule p name) :
    ((executeGdbCommand P 1 p.length).run s).2.target =
    (P.dbgSetBreakOnModuleLoad name s.target).2 := by
  obtain ⟨digits, rfl, hlen, hdigits, rfl⟩ := hp.spelled
  have hshort := hp.short
  unfold monitorCommandSize at hshort
  obtain ⟨s₁, hrun, hparsing⟩ :=
    executeGdbCommand_run P (b := char 'q') (w := text "Rcmd,62" ++ digits) h
  have htarget₁ : s₁.target = s.target := by rw [hparsing.same]
  have hrcmd : text "Rcmd," <+: text "Rcmd,62" ++ digits := ⟨text "62" ++ digits, rfl⟩
  rw [show (text "qRcmd,62" ++ digits).length = (text "Rcmd,62" ++ digits).length + 1 from rfl,
    hrun]
  refine (?_ : Leaves (text "Rcmd,62" ++ digits) s.target _ (processQuery P 2)) s₁ htarget₁
    hparsing.held
  -- `Rcmd,` is none of the five names in front of it.
  refine leaves_compare (by decide) hrcmd (by decide) ?_
  refine leaves_compare (by decide) hrcmd (by decide) ?_
  refine leaves_compare (by decide) hrcmd (by decide) ?_
  refine leaves_compare (by decide) hrcmd (by decide) ?_
  refine leaves_compare (by decide) hrcmd (by decide) ?_
  refine leaves_rcmd hrcmd fun t ht hheld => ?_
  -- The digits of the command are `62` and those of the name.
  set ds := text "62" ++ digits with hds
  have hdslen : ds.length = 2 * ((readBytes digits).length + 1) := by
    rw [hds, List.length_append, hlen]
    show 2 + _ = _
    omega
  have hdsdigits : ∀ c ∈ ds, isDigit c = true := by
    intro c hc
    have hfront : ∀ c ∈ text "62", isDigit c = true := by decide +kernel
    rcases List.mem_append.mp hc with hc | hc
    · exact hfront c hc
    · exact hdigits c hc
  have hdsheld : Holds t.mRequest.bytes 7 (ds ++ [0]) := by
    rw [show text "Rcmd,62" ++ digits = text "Rcmd," ++ ds from rfl, List.append_assoc] at hheld
    exact (holds_append.mp hheld).2
  have hplain : (0 : UInt8) ∉ ds := by
    intro h0
    have := hdsdigits 0 h0
    revert this
    decide
  have hstrlen : ((asciiStrLen 7).run t).1 = ds.length := by
    have hfits : ds.length < pcdMaximumAsciiStringLength := by
      rw [hdslen, pcdMaximumAsciiStringLength]
      omega
    exact strLen_of_string hdsheld hplain hfits
  have hcommand : (0 : UInt8) ∉ char 'b' :: readBytes digits := by
    intro hzero
    rcases List.mem_cons.mp hzero with h0 | hmem
    · exact absurd h0 (by decide)
    · exact hp.string hmem
  rw [processMonitorCmd_eq, run_bind, hstrlen, if_neg (by
    unfold monitorCommandSize
    omega), acceptedMonitor, hdslen, Nat.mul_div_cancel_left _ (by decide)]
  set t₁ := ((asciiStrLen 7).run t).2 with ht₁
  -- Decoded, it is `b` and the name, which the switch hands on.
  obtain ⟨b, hdecode⟩ :=
    decodeMonitorCommand_run _ 7 ds t₁ hdslen hdsdigits (holds_append.mp hdsheld).1
  rw [run_bind, hdecode, run_bind, run_bind, target_finishMonitor, show readBytes ds = char 'b' ::
    readBytes digits from rfl, takeWhile_ne hcommand, monitorSwitch_module]
  exact congrArg (fun target => (P.dbgSetBreakOnModuleLoad (readBytes digits) target).2) ht

/-- The platform's `DbgSetBreakOnModuleLoad` is DXE's. -/
def BreaksOnLoads (P : Platform σ) (loads : σ → ModuleLoads) : Prop :=
  ∀ name t, ((P.dbgSetBreakOnModuleLoad name t).1, loads (P.dbgSetBreakOnModuleLoad name t).2) =
    (dbgSetBreakOnModuleLoad name).run (loads t)

/-- A packet with the command is the event of a run. -/
theorem monitor_packet {P : Platform σ} {loads : σ → ModuleLoads} (hP : BreaksOnLoads P loads)
    {s : Stub σ} {n : Nat} {p name : List UInt8} {c d : UInt8} (h : Complete s.mRequest n p c d)
    (hj : judge p c d = .executed p) (hp : SetsModule p name) :
    loads ((processGdbPacket P n).run s).2.target =
    ((loadStep (.monitor name)).run (loads s.target)).2 := by
  obtain ⟨s', hdelivered, hexecuted⟩ := processGdbPacket_delivers P h hj
  rw [hexecuted, monitor_sets_module P hdelivered.payload hp, hdelivered.target]
  exact congrArg Prod.snd (hP name s.target)

end Command
/-! ## Runs -/

/-- The event takes one state to the other. -/
def Loads (event : LoadEvent) (s s' : ModuleLoads) : Prop := s' = ((loadStep event).run s).2

/-- A property of every notification of a run. -/
def EveryNotification (Q : (Nat → Bool) → ModuleLoads → Prop) (s : ModuleLoads)
    (events : List LoadEvent) : Prop :=
  Every Loads (fun event s => ∀ fails, event = .notified fails → Q fails s) s events

/-- The run. -/
def loadRun : List LoadEvent → LoadM Unit
  | [] => pure ()
  | event :: events => do
      loadStep event
      loadRun events

/-- The loads of a run whose image has the name set at their notification. -/
def namedLoads : ModuleLoads → List LoadEvent → List Nat
  | _, [] => []
  | s, .notified fails :: events =>
      (if s.Matches s.delivered then [s.delivered] else []) ++
      namedLoads ((loadStep (.notified fails)).run s).2 events
  | s, .installed path :: events => namedLoads ((loadStep (.installed path)).run s).2 events
  | s, .monitor name :: events => namedLoads ((loadStep (.monitor name)).run s).2 events

theorem everyNotification_cons {Q : (Nat → Bool) → ModuleLoads → Prop} {s : ModuleLoads}
    {event : LoadEvent} {events : List LoadEvent} : EveryNotification Q s (event :: events) ↔
      (∀ fails, event = .notified fails → Q fails s) ∧
      EveryNotification Q ((loadStep event).run s).2 events :=
  and_congr_right fun _ => forall_eq

/-- The breaks of a run whose notifications are right. -/
theorem breaks_loadRun : ∀ (events : List LoadEvent) (s : ModuleLoads),
    EveryNotification BreaksForLoad s events → ((loadRun events).run s).2.breaks = s.breaks ++
    namedLoads s events := by
  intro events
  induction events with
  | nil => exact fun s _ => (List.append_nil _).symm
  | cons event events ih =>
    intro s h
    obtain ⟨hright, hrest⟩ := everyNotification_cons.mp h
    rw [loadRun, run_bind, ih _ hrest]
    cases event with
    | installed path => rfl
    | notified fails =>
      have hbreaks : ((loadStep (.notified fails)).run s).2.breaks =
          s.breaks ++ if s.Matches s.delivered then [s.delivered] else [] := by
        by_cases hmatch : s.Matches s.delivered
        · rw [if_pos hmatch]
          exact (hright fails rfl).1 hmatch
        · rw [if_neg hmatch, List.append_nil]
          exact (hright fails rfl).2 hmatch
      rw [hbreaks, List.append_assoc]
      rfl
    | monitor name =>
      have hbreaks : ((loadStep (.monitor name)).run s).2.breaks = s.breaks := by
        rw [loadStep, run_bind, dbgSetBreakOnModuleLoad]
        split
        · rfl
        · rfl
      rw [hbreaks]
      rfl

/-- The run at the stub, from `u` to `t`: names arrive as packets with the monitor command, and
everything else happens around the stub.  What the stub does between two events does not touch the
loads. -/
inductive LoadSession {σ : Type} (P : Platform σ) (loads : σ → ModuleLoads) :
    Stub σ → List LoadEvent → Stub σ → Prop
  | done (u : Stub σ) : LoadSession P loads u [] u
  | outside {u u' t : Stub σ} {event : LoadEvent} {events : List LoadEvent}
      (unnamed : ∀ name, event ≠ .monitor name)
      (moved : loads u'.target = ((loadStep event).run (loads u.target)).2)
      (rest : LoadSession P loads u' events t) : LoadSession P loads u (event :: events) t
  | packet {u u' t : Stub σ} {n : Nat} {p name : List UInt8} {c d : UInt8} {events : List LoadEvent}
      (untouched : loads u'.target = loads u.target) (complete : Complete u'.mRequest n p c d)
      (judged : judge p c d = .executed p) (sets : SetsModule p name)
      (rest : LoadSession P loads ((processGdbPacket P n).run u').2 events t) :
      LoadSession P loads u (.monitor name :: events) t

/-- A session of the stub makes the run. -/
theorem LoadSession.loads_run {σ : Type} {P : Platform σ} {loads : σ → ModuleLoads}
    (hP : BreaksOnLoads P loads) {u t : Stub σ} {events : List LoadEvent}
    (h : LoadSession P loads u events t) :
    loads t.target = ((loadRun events).run (loads u.target)).2 := by
  induction h with
  | done u => rfl
  | outside unnamed moved rest ih =>
    rw [ih, moved]
    rfl
  | packet untouched complete judged sets rest ih =>
    rw [ih, monitor_packet hP complete judged sets, untouched]
    rfl

/-- **Break on module load.**  In a run every notification breaks exactly for its own load exactly
when at every notification nothing that is left of earlier loads gets in the way, and then the
breaks of the run are the loads whose name was set, in their order, also where the names come in
packets to the stub. -/
theorem module_load_breaks_iff (s : ModuleLoads) (events : List LoadEvent) :
    (EveryNotification BreaksForLoad s events ↔ EveryNotification NothingInTheWay s events) ∧
      (EveryNotification NothingInTheWay s events →
        ((loadRun events).run s).2.breaks = s.breaks ++ namedLoads s events) ∧
      (EveryNotification NothingInTheWay s events →
        ∀ (σ : Type) (P : Platform σ) (loads : σ → ModuleLoads), BreaksOnLoads P loads →
        ∀ u t : Stub σ, loads u.target = s → LoadSession P loads u events t →
        (loads t.target).breaks = s.breaks ++ namedLoads s events) := by
  have hiff : EveryNotification BreaksForLoad s events ↔
      EveryNotification NothingInTheWay s events :=
    every_congr
    (fun _ s => forall_congr' fun fails => imp_congr Iff.rfl (breaksForLoad_iff fails s)) events s
  have hbreaks := fun h => breaks_loadRun events s (hiff.mpr h)
  refine ⟨hiff, hbreaks, fun h σ P loads hP u t hloads hsession => ?_⟩
  rw [hsession.loads_run hP, hloads]
  exact hbreaks h

/-- An image is loaded while no name is set, its name is set, and another image is loaded. -/
def staleLoad : List LoadEvent :=
  [.installed (some (text "Foo.pdb")), .notified fun _ => false, .monitor (text "foo"),
    .installed (some (text "Bar.pdb")), .notified fun _ => false]

/-- The notification of the second load breaks for the first. -/
theorem stale_load_breaks :
    ((loadRun staleLoad).run .initial).2.breaks = [0] ∧ namedLoads .initial staleLoad = [] ∧
      ¬ EveryNotification BreaksForLoad .initial staleLoad := by
  refine ⟨by decide +kernel, by decide +kernel, fun h => ?_⟩
  have hbreaks := breaks_loadRun staleLoad .initial h
  revert hbreaks
  decide +kernel

/-- `P` with the loads of the firmware beside its machine, and DXE's `DbgSetBreakOnModuleLoad`. -/
def Platform.withLoads {σ : Type} (P : Platform σ) : Platform (σ × ModuleLoads) where
  view t := P.view t.1
  dbgReadMemory Address Length t :=
    ((P.dbgReadMemory Address Length t.1).1, (P.dbgReadMemory Address Length t.1).2.1,
      ((P.dbgReadMemory Address Length t.1).2.2, t.2))
  dbgWriteMemory Address Data t := Prod.map id (·, t.2) (P.dbgWriteMemory Address Data t.1)
  read_true a n t h := P.read_true a n t.1 h
  read_false a n t h := P.read_false a n t.1 h
  read_view a n t := P.read_view a n t.1
  write_true a bs t h := P.write_true a bs t.1 h
  write_false a bs t h := P.write_false a bs t.1 h
  baseLib := P.baseLib
  mArchBreakpointInstruction := P.mArchBreakpointInstruction
  instruction_size := P.instruction_size
  gDebuggerInfo := P.gDebuggerInfo
  gRegisterOffsets := P.gRegisterOffsets
  gdbTargetInfo := P.gdbTargetInfo
  pcdEnableWindbgWorkarounds := P.pcdEnableWindbgWorkarounds
  addSingleStep c t := Prod.map id (·, t.2) (P.addSingleStep c t.1)
  addWatchpoint a l r w t := Prod.map id (·, t.2) (P.addWatchpoint a l r w t.1)
  removeWatchpoint a l r w t := Prod.map id (·, t.2) (P.removeWatchpoint a l r w t.1)
  debugReboot t := Prod.map id (·, t.2) (P.debugReboot t.1)
  dbgSetBreakOnModuleLoad Module t :=
    Prod.map id (t.1, ·) ((UefiDebugger.dbgSetBreakOnModuleLoad Module).run t.2)
  gdbReadMsr Cmd t := Prod.map id (·, t.2) (P.gdbReadMsr Cmd t.1)
  gdbDumpSystemRegisters Cmd t := Prod.map id (·, t.2) (P.gdbDumpSystemRegisters Cmd t.1)

theorem breaksOnLoads_withLoads {σ : Type} (P : Platform σ) : BreaksOnLoads P.withLoads Prod.snd :=
  fun _ _ => rfl

/-- The name `foo` is set, and `Foo.pdb` is loaded. -/
def namedLoad : List LoadEvent :=
  [.monitor (text "foo"), .installed (some (text "C:\\Foo.pdb")), .notified fun _ => false]

/-- The stub before, with the packet of `monitor bfoo` in its buffer. -/
def monitorFoo : Stub (FlatMachine × ModuleLoads) :=
  { Stub.initial (⟨fun _ => 0, []⟩, .initial) with
    mRequest := ⟨store (fun _ => 0) 0 (text "$qRcmd,62666f6f#2f"), 18, 18⟩ }

/-- The packet arrives, and the image is loaded. -/
theorem namedLoad_session :
    ∃ t, LoadSession flatPlatform.withLoads Prod.snd monitorFoo namedLoad t := by
  have hcomplete : Complete monitorFoo.mRequest 18 (text "qRcmd,62666f6f") (char '2') (char 'f') :=
    ⟨rfl, by decide, holds_store _ _ _, by decide⟩
  have hsets : SetsModule (text "qRcmd,62666f6f") (text "foo") :=
    ⟨⟨text "666f6f", rfl, rfl, by decide +kernel, by decide⟩, by decide, by decide⟩
  have houtside : ∀ (u : Stub (FlatMachine × ModuleLoads)) event,
      ∃ u' : Stub (FlatMachine × ModuleLoads), u'.target.2 = ((loadStep event).run u.target.2).2 :=
      fun u event =>
    ⟨{ u with target := (u.target.1, ((loadStep event).run u.target.2).2) }, rfl⟩
  have hload : ∀ u, ∃ t, LoadSession flatPlatform.withLoads Prod.snd u namedLoad.tail t :=
    fun u => by
    obtain ⟨u₁, hinstalled⟩ := houtside u (.installed (some (text "C:\\Foo.pdb")))
    obtain ⟨u₂, hnotified⟩ := houtside u₁ (.notified fun _ => false)
    exact ⟨u₂, .outside (fun _ => LoadEvent.noConfusion) hinstalled
      (.outside (fun _ => LoadEvent.noConfusion) hnotified (.done u₂))⟩
  obtain ⟨t, hrest⟩ := hload ((processGdbPacket flatPlatform.withLoads 18).run monitorFoo).2
  exact ⟨t, .packet rfl hcomplete (by decide +kernel) hsets hrest⟩

theorem module_load_breaks_iff_named :
    ((loadRun namedLoad).run .initial).2.breaks = [] ++ namedLoads .initial namedLoad ∧
      ∃ t, LoadSession flatPlatform.withLoads Prod.snd monitorFoo namedLoad t ∧
        t.target.2.breaks = [] ++ namedLoads .initial namedLoad := by
  have hclear : EveryNotification NothingInTheWay .initial namedLoad := by
    refine everyNotification_cons.mpr
      ⟨fun _ h => (by cases h), everyNotification_cons.mpr ⟨fun _ h => (by cases h),
      everyNotification_cons.mpr ⟨?_, trivial⟩⟩⟩
    intro fails hfails
    obtain rfl := LoadEvent.notified.inj hfails
    refine ⟨fun _ => ⟨le_refl 0, ?_, fun m _ hlt => absurd hlt (Nat.not_lt_zero m)⟩, ?_⟩
    · rintro (h | ⟨path, hpath, hlong⟩)
      · cases h
      · obtain rfl : text "C:\\Foo.pdb" = path := Option.some.inj (Option.some.inj hpath)
        revert hlong
        decide +kernel
    · intro hno
      refine absurd ?_ hno
      decide +kernel
  obtain ⟨t, hsession⟩ := namedLoad_session
  exact ⟨(module_load_breaks_iff .initial namedLoad).2.1 hclear, t, hsession,
    (module_load_breaks_iff .initial namedLoad).2.2 hclear _ flatPlatform.withLoads Prod.snd
      (breaksOnLoads_withLoads flatPlatform) monitorFoo t rfl hsession⟩

end UefiDebugger
