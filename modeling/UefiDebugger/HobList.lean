import UefiDebugger.HostFile

/-!
# The list of HOBs

`EfiHob` reads the hand-off blocks that the firmware left behind each other in memory.  A block
starts with its type and its length; the type says which structure it has, and what it is longer
than its structure is kept beside it.  The list ends at a block of type `0xffff`, and no more than a
thousand blocks are read.  A block that is shorter than its structure ends the list as well, without
an error.
-/
namespace UefiDebugger.Host
open RecordChain

/-- An entry of `EfiHob.Hob`. -/
structure HobEntry where
  Name : String
  HobType : Nat
  HobLength : Nat
  hob : CData
  extra : Option (List UInt8)
  deriving DecidableEq

def EFI_HOB_GENERIC_HEADER : CType := ⟨"EFI_HOB_GENERIC_HEADER", 8⟩

/-- `EfiHob.hob_dict`, with the size of each structure. -/
def hobDict : List (Nat × CType) :=
  [(1, ⟨"EFI_HOB_HANDOFF_INFO_TABLE", 56⟩),
   (2, ⟨"EFI_HOB_MEMORY_ALLOCATION", 48⟩),
   (3, ⟨"EFI_HOB_RESOURCE_DESCRIPTOR", 48⟩),
   (4, ⟨"EFI_HOB_GUID_TYPE", 24⟩),
   (5, ⟨"EFI_HOB_FIRMWARE_VOLUME", 24⟩),
   (6, ⟨"EFI_HOB_CPU", 16⟩),
   (7, ⟨"EFI_HOB_MEMORY_POOL", 8⟩),
   (9, ⟨"EFI_HOB_FIRMWARE_VOLUME2", 56⟩),
   (0xb, ⟨"EFI_HOB_UEFI_CAPSULE", 24⟩),
   (0xc, ⟨"EFI_HOB_FIRMWARE_VOLUME3", 64⟩),
   (0xffff, EFI_HOB_GENERIC_HEADER)]

/-- `hob_dict.get(HobType, EFI_HOB_GENERIC_HEADER)` -/
def hobStructure (HobType : Nat) : CType := getType hobDict HobType EFI_HOB_GENERIC_HEADER

namespace EfiHob

/-- One turn of the loop of `read_hobs`: where the next HOB is, unless this is the end of the
list. -/
def readHob (hob_ptr : Nat) : Py (List HobEntry) (Option Nat) := do
  let hdr ← ctypeReadEx EFI_HOB_GENERIC_HEADER hob_ptr none
  let HobType := hdr.1.uint16 0
  let HobLength := hdr.1.uint16 2
  if HobType = 0xffff then return none
  else
    let read ← ctypeReadEx (hobStructure HobType) hob_ptr (some HobLength)
    modify fun s =>
      { s with parsed := s.parsed ++ [⟨read.1.type.name, HobType, HobLength, read.1, read.2⟩] }
    return some (hob_ptr + HobLength)

def readHobsLoop : (count hob_ptr : Nat) → Py (List HobEntry) Unit
  | 0, _ => return ()
  | count + 1, hob_ptr => do
      match ← readHob hob_ptr with
      | none => return ()
      | some hob_ptr => readHobsLoop count hob_ptr

def readHobs (hob_ptr : Option Nat) : Py (List HobEntry) Unit :=
  match hob_ptr with
  | none => return ()
  | some hob_ptr => exceptValueError (readHobsLoop 1000 hob_ptr)

/-- `EfiHob.__init__`.  `ConfigurationTableDict` is what has been read of the configuration
table. -/
def init (ConfigurationTableDict : List (String × Nat)) (address : Option Nat) :
    Py (List HobEntry) Unit := do
  let s ← get
  if s.parsed.length ≠ 0 ∧ address = none then return ()
  else if address ≠ none then readHobs address
  else readHobs (ConfigurationTableDict.lookup "7739F24C-93D7-11D4-9A3A-0090273FC14D")

end EfiHob

/-! ## What is found -/

section Reading
variable {memory : Nat → Option UInt8} {p q : Nat} {s : Session (List HobEntry)} {e : HobEntry}

/-- What a turn of the loop finds at `p`: a HOB, the end of the list, or an exception. -/
def hobOf (memory : Nat → Option UInt8) (p : Nat) : Except PyException (Option HobEntry) :=
  match structureAt memory EFI_HOB_GENERIC_HEADER p none with
  | .error e => .error e
  | .ok hdr =>
      if hdr.1.uint16 0 = 0xffff then .ok none
      else
        match structureAt memory (hobStructure (hdr.1.uint16 0)) p (some (hdr.1.uint16 2)) with
        | .error e => .error e
        | .ok read => .ok (some ⟨read.1.type.name, hdr.1.uint16 0, hdr.1.uint16 2, read.1, read.2⟩)

/-- The HOB at `p`, and where the next one is. -/
def hobAt (memory : Nat → Option UInt8) (p : Nat) : Option (HobEntry × Nat) :=
  match hobOf memory p with
  | .ok (some e) => some (e, p + e.HobLength)
  | _ => none

theorem found_hobAt (h : hobOf memory p = .ok (some e)) :
    Found (hobAt memory) p e (p + e.HobLength) := by
  rw [Found, hobAt, h]

theorem hobOf_of_found (h : Found (hobAt memory) p e q) : hobOf memory p = .ok (some e) ∧
    q = p + e.HobLength := by
  rw [Found, hobAt] at h
  split at h
  · next e' hof =>
    obtain ⟨rfl, rfl⟩ := Prod.mk.inj (Option.some.inj h)
    exact ⟨hof, rfl⟩
  · cases h

/-- A turn of the loop appends the HOB it finds. -/
theorem readHob_eq (hp : p ≠ 0) : EfiHob.readHob p s =
    ((hobOf s.memory p).map (Option.map fun e => p + e.HobLength),
      { s.at p with parsed := s.parsed ++ (hobOf s.memory p).toOption.join.toList }) := by
  have hheader := ctypeReadEx_eq (s := s) EFI_HOB_GENERIC_HEADER none hp
  have hsame : s.at p = { s.at p with parsed := s.parsed ++ [] } := by
    rw [List.append_nil]
    rfl
  rw [EfiHob.readHob, hobOf]
  cases hhdr : structureAt s.memory EFI_HOB_GENERIC_HEADER p none with
  | error x =>
    rw [hhdr] at hheader
    rw [run_bind_error hheader]
    exact congrArg (Prod.mk _) hsame
  | ok hdr =>
    rw [hhdr] at hheader
    rw [run_bind_ok hheader]
    dsimp only
    by_cases hend : hdr.1.uint16 0 = 0xffff
    · rw [if_pos hend, if_pos hend]
      exact congrArg (Prod.mk _) hsame
    · rw [if_neg hend, if_neg hend]
      have hread :=
        ctypeReadEx_eq (s := s.at p) (hobStructure (hdr.1.uint16 0)) (some (hdr.1.uint16 2)) hp
      rw [Session.at_memory] at hread
      cases hhob : structureAt s.memory (hobStructure (hdr.1.uint16 0)) p
        (some (hdr.1.uint16 2)) with
      | error x =>
        rw [hhob] at hread
        rw [run_bind_error hread]
        exact congrArg (Prod.mk _) hsame
      | ok read =>
        rw [hhob] at hread
        rw [run_bind_ok hread]
        rfl

/-- How the reading ends where the records do. -/
def outcome (memory : Nat → Option UInt8) : Option Nat → Except PyException Unit
  | none => .ok ()
  | some q => (hobOf memory q).map fun _ => ()

/-- The loop appends the HOBs that it walks over. -/
theorem readHobsLoop_eq (n : Nat) : ∀ (p : Nat) (s : Session (List HobEntry)), p ≠ 0 →
    (EfiHob.readHobsLoop n p s).1 = outcome s.memory (walk (hobAt s.memory) n p).2 ∧
      (EfiHob.readHobsLoop n p s).2.parsed = s.parsed ++ (walk (hobAt s.memory) n p).1 ∧
      (EfiHob.readHobsLoop n p s).2.memory = s.memory := by
  induction n with
  | zero => exact fun p s _ => ⟨rfl, (List.append_nil _).symm, rfl⟩
  | succ n ih =>
    intro p s hp
    have hturn := readHob_eq (s := s) hp
    rw [EfiHob.readHobsLoop]
    cases hof : hobOf s.memory p with
    | error x =>
      have hnone : hobAt s.memory p = none := by rw [hobAt, hof]
      rw [hof] at hturn
      rw [run_bind_error hturn, walk_none hnone, outcome, hof]
      exact ⟨rfl, rfl, rfl⟩
    | ok found =>
      rw [hof] at hturn
      rw [run_bind_ok hturn]
      cases found with
      | none =>
        have hnone : hobAt s.memory p = none := by rw [hobAt, hof]
        rw [walk_none hnone, outcome, hof]
        exact ⟨rfl, rfl, rfl⟩
      | some e =>
        obtain ⟨hresult, hparsed, hmemory⟩ := ih (p + e.HobLength)
          { s.at p with parsed := s.parsed ++ [e] }
          (Nat.ne_of_gt (Nat.add_pos_left (Nat.pos_of_ne_zero hp) _))
        rw [walk_some (found_hobAt hof)]
        exact ⟨hresult, hparsed.trans (List.append_assoc ..), hmemory⟩

end Reading

/-! ## Whatever is in memory -/

/-- The type and the length that a HOB at `p` begins with. -/
def hobHeader (memory : Nat → Option UInt8) (p : Nat) : Option (Nat × Nat) :=
  (cells memory p 8).map fun header =>
  (StoredWords.value (header.take 2), StoredWords.value ((header.drop 2).take 2))

/-- The entry says what stands at `p`: a HOB with its header, its structure and the bytes behind
that, which together are as many as its length says.  A HOB whose length is zero is read as long as
its structure. -/
structure HobEntry.StandsAt (memory : Nat → Option UInt8) (p : Nat) (e : HobEntry) : Prop where
  header : hobHeader memory p = some (e.HobType, e.HobLength)
  listed : e.HobType ≠ 0xffff
  type : e.hob.type = hobStructure e.HobType
  name : e.Name = e.hob.type.name
  whole : e.hob.bytes.length = e.hob.type.size
  lies : Lies memory p (e.hob.bytes ++ e.extra.getD [])
  length : e.hob.type.size + (e.extra.getD []).length = sizeRead e.hob.type.size (some e.HobLength)

/-- Why the reading stops at `q`, and what comes of it. -/
inductive HobStop (memory : Nat → Option UInt8) (q : Nat) : Except PyException Unit → Prop
  | listEnd {HobLength : Nat} (header : hobHeader memory q = some (0xffff, HobLength)) :
      HobStop memory q (.ok ())
  | short {HobType HobLength : Nat} (header : hobHeader memory q = some (HobType, HobLength))
      (length : HobLength < (hobStructure HobType).size) (given : HobLength ≠ 0) :
      HobStop memory q (.ok ())
  | noHeader (header : hobHeader memory q = none) : HobStop memory q (.error .memoryError)
  | noBody {HobType HobLength : Nat} (header : hobHeader memory q = some (HobType, HobLength))
      (body : cells memory q (sizeRead (hobStructure HobType).size (some HobLength)) = none) :
      HobStop memory q (.error .memoryError)

section Whatever
variable {memory : Nat → Option UInt8} {p q : Nat} {s : Session (List HobEntry)} {e : HobEntry}

theorem hobHeader_eq {hdr : CData × Option (List UInt8)}
    (h : structureAt memory EFI_HOB_GENERIC_HEADER p none = .ok hdr) :
    hobHeader memory p = some (hdr.1.uint16 0, hdr.1.uint16 2) := by
  have hcells : cells memory p 8 = some hdr.1.bytes := cells_of_structureAt h
  rw [hobHeader, hcells]
  rfl

theorem standsAt_of_found (h : Found (hobAt memory) p e q) :
    e.StandsAt memory p ∧ q = p + e.HobLength := by
  obtain ⟨hof, hnext⟩ := hobOf_of_found h
  refine ⟨?_, hnext⟩
  rw [hobOf] at hof
  cases hhdr : structureAt memory EFI_HOB_GENERIC_HEADER p none with
  | error x =>
    rw [hhdr] at hof
    cases hof
  | ok hdr =>
    rw [hhdr] at hof
    dsimp only at hof
    split at hof
    · cases hof
    · next hlisted =>
      cases hhob : structureAt memory (hobStructure (hdr.1.uint16 0)) p (some (hdr.1.uint16 2)) with
      | error x =>
        rw [hhob] at hof
        cases hof
      | ok read =>
        rw [hhob] at hof
        obtain rfl := Option.some.inj (Except.ok.inj hof)
        obtain ⟨htype, hwhole, hlies, hlength⟩ := lies_of_structureAt hhob
        exact ⟨hobHeader_eq hhdr, hlisted, htype, rfl,
          hwhole.trans (congrArg CType.size htype.symm), hlies, htype ▸ hlength⟩

theorem hobStop_of_none (h : hobAt memory q = none) :
    HobStop memory q (swallowed (outcome memory (some q))) := by
  rw [outcome]
  cases hhdr : structureAt memory EFI_HOB_GENERIC_HEADER q none with
  | error x =>
    have hof : hobOf memory q = .error x := by rw [hobOf, hhdr]
    rw [hof]
    rcases error_of_structureAt hhdr with ⟨rfl, hcells⟩ | ⟨-, hshort⟩
    · exact .noHeader (congrArg (Option.map _) hcells)
    · exact absurd hshort (Nat.lt_irrefl _)
  | ok hdr =>
    by_cases hend : hdr.1.uint16 0 = 0xffff
    · have hof : hobOf memory q = .ok none := by rw [hobOf, hhdr]; exact if_pos hend
      rw [hof]
      exact .listEnd (hend ▸ hobHeader_eq hhdr)
    · cases hhob : structureAt memory (hobStructure (hdr.1.uint16 0)) q (some (hdr.1.uint16 2)) with
      | error x =>
        have hof : hobOf memory q = .error x := by
          rw [hobOf, hhdr]
          dsimp only
          rw [if_neg hend, hhob]
        rw [hof]
        rcases error_of_structureAt hhob with ⟨rfl, hcells⟩ | ⟨rfl, hshort⟩
        · exact .noBody (hobHeader_eq hhdr) hcells
        · -- A length of zero is read as the size of the structure, which is not too short.
          rw [sizeRead] at hshort
          split at hshort
          · next hgiven => exact .short (hobHeader_eq hhdr) hshort hgiven
          · exact absurd hshort (Nat.lt_irrefl _)
      | ok read =>
        have hof : hobOf memory q =
            .ok (some ⟨read.1.type.name, hdr.1.uint16 0, hdr.1.uint16 2, read.1, read.2⟩) := by
          rw [hobOf, hhdr]
          dsimp only
          rw [if_neg hend, hhob]
        rw [hobAt, hof] at h
        cases h

/-- **Whatever is in memory**, the HOBs that are appended stand one behind the other from the
address on, each of them as its header says, and there are a thousand of them or the reading stops
for one of the reasons. -/
theorem hobs_read (hp : p ≠ 0) (s : Session (List HobEntry)) : ∃ found q,
    (EfiHob.readHobs (some p) s).2.parsed = s.parsed ++ found ∧
      Chain (fun p e q => e.StandsAt s.memory p ∧ q = p + e.HobLength) p found q ∧
      ((found.length = 1000 ∧ (EfiHob.readHobs (some p) s).1 = .ok ()) ∨
        (found.length < 1000 ∧ HobStop s.memory q (EfiHob.readHobs (some p) s).1)) := by
  obtain ⟨hresult, hparsed, -⟩ := readHobsLoop_eq 1000 p s hp
  obtain ⟨q, hchain, hend⟩ := chain_walk (hobAt s.memory) 1000 p
  rw [EfiHob.readHobs, exceptValueError_eq, hresult]
  refine ⟨_, q, hparsed, hchain.imp fun p e q => standsAt_of_found, ?_⟩
  rcases hend with ⟨hlength, hstop⟩ | ⟨hlength, hstop, hnone⟩
  · rw [hstop]
    exact Or.inl ⟨hlength, rfl⟩
  · rw [hstop]
    exact Or.inr ⟨hlength, hobStop_of_none hnone⟩

/-- The CPU's HOB at `0x1000` and a HOB with a GUID and four bytes of data.  Behind them nothing can
be read. -/
def unmappedSession : Session (List HobEntry) where
  file := ⟨fun i => if i < 0x1000 then none
    else
      ([6, 0, 16, 0, 0, 0, 0, 0, 48, 16, 0, 0, 0, 0, 0, 0, 4, 0, 28, 0, 0, 0, 0, 0, 1, 2, 3, 4, 5,
        6, 7, 8, 9, 10, 11, 12,
      13, 14, 15, 16, 0xDE, 0xAD, 0xBE, 0xEF] : List UInt8)[i - 0x1000]?, 0⟩
  parsed := []

/-- Both are kept, and the exception is raised. -/
theorem hobs_read_unmapped :
    (∃ found q, (EfiHob.readHobs (some 0x1000) unmappedSession).2.parsed = [] ++ found ∧
      Chain (fun p e q => e.StandsAt unmappedSession.memory p ∧ q = p + e.HobLength)
      0x1000 found q ∧
      ((found.length = 1000 ∧ (EfiHob.readHobs (some 0x1000) unmappedSession).1 = .ok ()) ∨
        (found.length < 1000 ∧
          HobStop unmappedSession.memory q (EfiHob.readHobs (some 0x1000) unmappedSession).1))) ∧
      (EfiHob.readHobs (some 0x1000) unmappedSession).2.parsed.map HobEntry.extra =
        [none, some [0xDE, 0xAD, 0xBE, 0xEF]] :=
  ⟨hobs_read (by decide) unmappedSession, by decide +kernel⟩

/-- A HOB whose length is zero is taken a thousand times. -/
theorem zero_length_fills (hp : p ≠ 0) (h : hobOf s.memory p = .ok (some e))
    (hzero : e.HobLength = 0) : (EfiHob.readHobs (some p) s).2.parsed = s.parsed ++
    List.replicate 1000 e := by
  have hself : Found (hobAt s.memory) p e p := by
    have hfound := found_hobAt h
    rwa [hzero] at hfound
  obtain ⟨-, hparsed, -⟩ := readHobsLoop_eq 1000 p s hp
  rw [EfiHob.readHobs, exceptValueError_eq, hparsed, walk_self hself]

end Whatever

/-! ## A list that the firmware laid out -/

/-- A HOB that is no shorter than its structure. -/
structure PiHob where
  HobType : Nat
  Reserved : List UInt8
  body : List UInt8
  listed : HobType < 0xffff
  reserved : Reserved.length = 4
  length_fits : 8 + body.length < 65536
  whole : (hobStructure HobType).size ≤ 8 + body.length

namespace PiHob

def HobLength (hob : PiHob) : Nat := 8 + hob.body.length

/-- What `EFI_HOB_GENERIC_HEADER` holds of it. -/
def header (hob : PiHob) : List UInt8 :=
  StoredWords.bytes 2 hob.HobType ++ StoredWords.bytes 2 hob.HobLength ++ hob.Reserved

def bytes (hob : PiHob) : List UInt8 := hob.header ++ hob.body

/-- The entry for it. -/
def entry (hob : PiHob) : HobEntry :=
  let type_str := hobStructure hob.HobType
  ⟨type_str.name, hob.HobType, hob.HobLength, ⟨type_str, hob.bytes.take type_str.size⟩,
    if hob.bytes.drop type_str.size = [] then none else some (hob.bytes.drop type_str.size)⟩

variable (hob : PiHob)

theorem length_header : hob.header.length = 8 := by
  rw [header, List.length_append, List.length_append, StoredWords.length_bytes,
    StoredWords.length_bytes, hob.reserved]

theorem length_bytes :
    hob.bytes.length = hob.HobLength := by rw [bytes, List.length_append, length_header, HobLength]

theorem uint16_type (type : CType) : CData.uint16 ⟨type, hob.header⟩ 0 = hob.HobType := by
  have htake : hob.header.take 2 = StoredWords.bytes 2 hob.HobType := by
    rw [header, List.append_assoc, List.take_left' (StoredWords.length_bytes ..)]
  rw [CData.uint16, List.drop_zero, htake, StoredWords.value_bytes,
    Nat.mod_eq_of_lt (Nat.lt_of_lt_of_le hob.listed (by decide))]

theorem uint16_length (type : CType) : CData.uint16 ⟨type, hob.header⟩ 2 = hob.HobLength := by
  have htake : (hob.header.drop 2).take 2 = StoredWords.bytes 2 hob.HobLength := by
    rw [header, List.append_assoc, List.drop_left' (StoredWords.length_bytes ..),
      List.take_left' (StoredWords.length_bytes ..)]
  have hfits : hob.HobLength < 256 ^ 2 := hob.length_fits
  rw [CData.uint16, htake, StoredWords.value_bytes, Nat.mod_eq_of_lt hfits]

end PiHob

section Laid
variable {memory : Nat → Option UInt8} {p q : Nat} {s : Session (List HobEntry)}

/-- A HOB is found where it lies. -/
theorem hobOf_of_lies (hob : PiHob) (h : Lies memory p hob.bytes) :
    hobOf memory p = .ok (some hob.entry) := by
  have hheader : structureAt memory EFI_HOB_GENERIC_HEADER p none =
      .ok (⟨EFI_HOB_GENERIC_HEADER, hob.header⟩, none) :=
    structureAt_alone (lies_append.mp h).1 hob.length_header
  have hgiven : hob.HobLength ≠ 0 := Nat.ne_of_gt (Nat.add_pos_left (by decide) _)
  have hhob := structureAt_front h hob.length_bytes hgiven hob.whole
  rw [hobOf, hheader]
  dsimp only
  rw [hob.uint16_type, hob.uint16_length, if_neg (Nat.ne_of_lt hob.listed), hhob]
  rfl

/-- Nothing is found where the list ends. -/
theorem hobOf_end {HobLength : Nat} (h : hobHeader memory q = some (0xffff, HobLength)) :
    hobOf memory q = .ok none := by
  obtain ⟨header, hcells, hfields⟩ := Option.map_eq_some_iff.mp h
  obtain ⟨hlength, hlies⟩ := cells_eq_some.mp hcells
  have hheader : structureAt memory EFI_HOB_GENERIC_HEADER q none =
      .ok (⟨EFI_HOB_GENERIC_HEADER, header⟩, none) :=
    structureAt_alone hlies hlength
  have hend : CData.uint16 ⟨EFI_HOB_GENERIC_HEADER, header⟩ 0 = 0xffff := congrArg Prod.fst hfields
  rw [hobOf, hheader]
  exact if_pos hend

/-- The HOBs that lie in memory, one behind the other from `p` on, with the end of the list behind
them. -/
structure HobsLie (memory : Nat → Option UInt8) (p : Nat) (hobs : List PiHob) : Prop where
  given : p ≠ 0
  lies : Lies memory p (hobs.flatMap PiHob.bytes)
  ends : ∃ HobLength, hobHeader memory (p + (hobs.flatMap PiHob.bytes).length) =
    some (0xffff, HobLength)

/-- The first thousand HOBs are read back. -/
theorem readHobs_laid {hobs : List PiHob} (h : HobsLie s.memory p hobs) : ∃ s',
    EfiHob.readHobs (some p) s = (.ok (), s') ∧
    s'.parsed = s.parsed ++ (hobs.take 1000).map PiHob.entry ∧ s'.memory = s.memory := by
  obtain ⟨HobLength, hend⟩ := h.ends
  have hchain : Chain (Found (hobAt s.memory)) p (hobs.map PiHob.entry) _ :=
    chain_laid hobs p (fun hob _ p hlies => by
      rw [hob.length_bytes]
      exact found_hobAt (hobOf_of_lies hob hlies)) h.lies
  have hnone : hobAt s.memory (p + (hobs.flatMap PiHob.bytes).length) = none := by
    rw [hobAt, hobOf_end hend]
  have hwalk := walk_of_chain hchain hnone 1000
  obtain ⟨hresult, hparsed, hmemory⟩ := readHobsLoop_eq 1000 p s h.given
  refine ⟨(EfiHob.readHobsLoop 1000 p s).2, ?_, ?_, hmemory⟩
  · rw [EfiHob.readHobs, exceptValueError_eq, hresult, hwalk]
    dsimp only
    split
    · rw [outcome, hobOf_end hend]
      rfl
    · rfl
  · rw [hparsed, hwalk, List.map_take]

/-- How many times the list has been read after the commands: each one with an address reads it, and
one without an address if nothing has been read. -/
def copies : List (Option Nat) → (before : Nat) → Nat
  | [], n => n
  | address :: commands, n => copies commands (if n ≠ 0 ∧ address = none then n else n + 1)

section Commands
variable {ConfigurationTableDict : List (String × Nat)} {address : Option Nat} {hobs : List PiHob}

theorem init_keeps (h : s.parsed.length ≠ 0) :
    EfiHob.init ConfigurationTableDict none s = (.ok (), s) :=
  congrFun (if_pos ⟨h, rfl⟩) s

theorem init_reads
    (hdict : ConfigurationTableDict.lookup "7739F24C-93D7-11D4-9A3A-0090273FC14D" = some p)
    (haddress : address = none ∨ address = some p) (h : ¬ (s.parsed.length ≠ 0 ∧ address = none)) :
    EfiHob.init ConfigurationTableDict address s = EfiHob.readHobs (some p) s := by
  refine (congrFun (if_neg h) s).trans ?_
  rcases haddress with rfl | rfl
  · rw [if_neg (not_not_intro rfl), hdict]
  · rw [if_pos (Option.some_ne_none p)]

/-- A command reads the list once more, or leaves it. -/
theorem command_laid
    (hdict : ConfigurationTableDict.lookup "7739F24C-93D7-11D4-9A3A-0090273FC14D" = some p)
    (haddress : address = none ∨ address = some p) (hlie : HobsLie s.memory p hobs) {n : Nat}
    (hparsed : s.parsed = (List.replicate n ((hobs.take 1000).map PiHob.entry)).flatten) :
    ∃ s', EfiHob.init ConfigurationTableDict address s = (.ok (), s') ∧ s'.memory = s.memory ∧
      s'.parsed = (List.replicate (if n ≠ 0 ∧ address = none then n else n + 1)
        ((hobs.take 1000).map PiHob.entry)).flatten := by
  obtain ⟨s', hread, hfound, hmemory⟩ := readHobs_laid hlie
  have hmore : s.parsed ++ (hobs.take 1000).map PiHob.entry =
      (List.replicate (n + 1) ((hobs.take 1000).map PiHob.entry)).flatten := by
    rw [hparsed, List.replicate_succ', List.flatten_append, List.flatten_cons, List.flatten_nil,
      List.append_nil]
  by_cases hkeep : s.parsed.length ≠ 0 ∧ address = none
  · have hn : n ≠ 0 := by
      rintro rfl
      exact hkeep.1 (congrArg List.length hparsed)
    obtain ⟨hlength, rfl⟩ := hkeep
    rw [if_pos ⟨hn, rfl⟩]
    exact ⟨s, init_keeps hlength, rfl, hparsed⟩
  · refine ⟨s', (init_reads hdict haddress hkeep).trans hread, hmemory,
      hfound.trans (hmore.trans ?_)⟩
    split
    · next hn =>
      -- The list has been read before, and there was nothing to read.
      have hempty : s.parsed = [] := by
        by_contra hne
        exact hkeep ⟨fun h => hne (List.length_eq_zero_iff.mp h), hn.2⟩
      have hnothing : (hobs.take 1000).map PiHob.entry = [] :=
        List.flatten_eq_nil_iff.mp (hparsed.symm.trans hempty) _
        (List.mem_replicate.mpr ⟨hn.1, rfl⟩)
      rw [hnothing, List.flatten_replicate_nil, List.flatten_replicate_nil]
    · rfl

/-- **A list that the firmware laid out is read back**, its first thousand HOBs, however often the
command is given; each command with the address appends it once more. -/
theorem commands_laid
    (hdict : ConfigurationTableDict.lookup "7739F24C-93D7-11D4-9A3A-0090273FC14D" = some p) :
    ∀ (commands : List (Option Nat)) (n : Nat) (s : Session (List HobEntry)),
    HobsLie s.memory p hobs →
      (∀ address ∈ commands, address = none ∨ address = some p) →
      s.parsed = (List.replicate n ((hobs.take 1000).map PiHob.entry)).flatten → ∃ s',
        commands.forM (EfiHob.init ConfigurationTableDict) s = (.ok (), s') ∧
          s'.parsed =
          (List.replicate (copies commands n) ((hobs.take 1000).map PiHob.entry)).flatten := by
  intro commands
  induction commands with
  | nil => exact fun n s _ _ hparsed => ⟨s, rfl, hparsed⟩
  | cons address commands ih =>
    intro n s hlie haddress hparsed
    obtain ⟨t, hcommand, hmemory, hlist⟩ :=
      command_laid hdict (haddress _ (List.mem_cons_self ..)) hlie hparsed
    obtain ⟨s', hrest, hend⟩ :=
      ih _ t (hmemory ▸ hlie) (fun a h => haddress a (List.mem_cons_of_mem _ h)) hlist
    exact ⟨s', (run_bind_ok hcommand).trans hrest, hend⟩

/-- The CPU's HOB as the firmware laid it out. -/
def cpuHob : PiHob where
  HobType := 6
  Reserved := [0, 0, 0, 0]
  body := [48, 16, 0, 0, 0, 0, 0, 0]
  listed := by decide
  reserved := by decide
  length_fits := by decide
  whole := by decide

/-- The CPU's HOB at `0x1000`, and the end of the list behind it. -/
def cpuSession : Session (List HobEntry) where
  file := ⟨fun i => if i < 0x1000 then none
    else
      ([6, 0, 16, 0, 0, 0, 0, 0, 48, 16, 0, 0, 0, 0, 0, 0, 0xff, 0xff, 8, 0, 0, 0, 0, 0] :
        List UInt8)[i - 0x1000]?, 0⟩
  parsed := []

theorem cpuHob_lies : HobsLie cpuSession.memory 0x1000 [cpuHob] where
  given := by decide
  lies := by
    show ∀ i < 16, _
    decide
  ends := ⟨8, by decide⟩

theorem commands_laid_cpu : ∃ s',
    [none, none, some 0x1000].forM (EfiHob.init [("7739F24C-93D7-11D4-9A3A-0090273FC14D", 0x1000)])
    cpuSession = (.ok (), s') ∧ s'.parsed = (List.replicate 2 [cpuHob.entry]).flatten :=
  commands_laid rfl [none, none, some 0x1000] 0 cpuSession cpuHob_lies (by decide) rfl

end Commands
end Laid
end UefiDebugger.Host
