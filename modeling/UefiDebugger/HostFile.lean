import UefiDebugger.RecordChain
import UefiDebugger.StoredWords

/-!
# What the scripts on the host read

The scripts for `gdb` read the target's memory through an object that behaves like a file, and take
structures off it. A read raises an exception if not all of the memory is there, and so does a
structure that is given fewer bytes than it has.  What has been parsed is kept in a list of the
class; it stays there when an exception is raised.
-/
namespace UefiDebugger.Host
open RecordChain

/-- The exceptions that a read can raise: the `ValueError` of `from_buffer`, which their callers
catch, and one for all that `GdbFileObject.read` raises, which they do not: the failed `assert` for
a `MemoryError`, `gdb.MemoryError`, and the `MemoryError` of a short read. -/
inductive PyException
  | valueError | memoryError
  deriving DecidableEq

/-- `GdbFileObject`: the memory of the inferior, and where the file is. -/
structure GdbFileObject where
  inferior : Nat → Option UInt8
  offset : Nat

/-- The file, and what has been parsed. -/
structure Session (σ : Type) where
  file : GdbFileObject
  parsed : σ

/-- A script that may raise an exception. -/
abbrev Py (σ : Type) := ExceptT PyException (StateM (Session σ))

/-- A `ctypes` structure: its name and how many bytes it has. -/
structure CType where
  name : String
  size : Nat
  deriving DecidableEq

/-- An instance of a structure, with the buffer it was made from. -/
structure CData where
  type : CType
  bytes : List UInt8
  deriving DecidableEq

/-- A `c_uint8` field. -/
def CData.uint8 (cdata : CData) (i : Nat) : Nat := StoredWords.value ((cdata.bytes.drop i).take 1)

/-- A `c_uint16` field. -/
def CData.uint16 (cdata : CData) (i : Nat) : Nat := StoredWords.value ((cdata.bytes.drop i).take 2)

/-- `dict.get(key, default)` -/
def getType {κ : Type} [BEq κ] (dict : List (κ × CType)) (key : κ) (default : CType) : CType :=
  (dict.lookup key).getD default

section Reads
variable {σ α β : Type}

def seek (offset : Nat) : Py σ Unit :=
  modify fun s => { s with file := { s.file with offset := offset } }

def read (size : Nat) : Py σ (List UInt8) := do
  let s ← get
  match cells s.file.inferior s.file.offset size with
  | none => throw .memoryError
  | some data => return data

/-- `ctype_struct.from_buffer(bytearray(data))` -/
def fromBuffer (ctype_struct : CType) (data : List UInt8) : Py σ CData :=
  if data.length < ctype_struct.size then throw .valueError
  else return ⟨ctype_struct, data.take ctype_struct.size⟩

/-- `rsize if rsize else type_size` -/
def sizeRead (type_size : Nat) : (rsize : Option Nat) → Nat
  | none => type_size
  | some rsize => if rsize ≠ 0 then rsize else type_size

/-- `_ctype_read_ex`: a structure, and what else was read. -/
def ctypeReadEx (ctype_struct : CType) (offset : Nat) (rsize : Option Nat) :
    Py σ (CData × Option (List UInt8)) := do
  (if offset ≠ 0 then seek offset else pure ())
  let type_size := ctype_struct.size
  let size := sizeRead type_size rsize
  let data ← read size
  let cdata ← fromBuffer ctype_struct data
  if size > type_size then return (cdata, some (data.drop type_size))
  else return (cdata, none)

/-- `try: …  except ValueError: pass` -/
def exceptValueError (body : Py σ Unit) : Py σ Unit :=
  tryCatch body fun e => if e = .valueError then return () else throw e

end Reads

/-- What holds of every structure of a dictionary and of the default. -/
theorem getType_of_forall {κ : Type} [BEq κ] [LawfulBEq κ] {dict : List (κ × CType)}
    {default : CType} {P : CType → Prop} (hdict : ∀ entry ∈ dict, P entry.2) (hdefault : P default)
    (key : κ) : P (getType dict key default) := by
  rw [getType]
  cases hfound : dict.lookup key with
  | none => exact hdefault
  | some found =>
    obtain ⟨before, after, rfl, -⟩ := List.lookup_eq_some_iff.mp hfound
    exact hdict _ (List.mem_append_right _ (List.mem_cons_self ..))

/-! ## What is found in memory -/

/-- The structure at `p`, and what else is read with it. -/
def structureAt (memory : Nat → Option UInt8) (ctype_struct : CType) (p : Nat)
    (rsize : Option Nat) :
    Except PyException (CData × Option (List UInt8)) :=
  let size := sizeRead ctype_struct.size rsize
  match cells memory p size with
  | none => .error .memoryError
  | some data =>
      if size < ctype_struct.size then .error .valueError
      else .ok (⟨ctype_struct, data.take ctype_struct.size⟩,
        if size > ctype_struct.size then some (data.drop ctype_struct.size) else none)

section Runs
variable {σ α β : Type} {s s' : Session σ}

/-- The session with its file at `offset`. -/
def Session.at (s : Session σ) (offset : Nat) : Session σ :=
  { s with file := { s.file with offset := offset } }

/-- The memory that the session's file reads. -/
def Session.memory (s : Session σ) : Nat → Option UInt8 := s.file.inferior

@[simp] theorem Session.at_memory (offset : Nat) : (s.at offset).memory = s.memory := rfl

theorem run_bind (x : Py σ α) (f : α → Py σ β) : (x >>= f) s = ExceptT.bindCont f (x s).1 (x s).2 :=
  rfl

theorem run_bind_ok {x : Py σ α} {f : α → Py σ β} {a : α} (h : x s = (.ok a, s')) :
    (x >>= f) s = f a s' := by
  rw [run_bind, h]
  rfl

theorem run_bind_error {x : Py σ α} {f : α → Py σ β} {e : PyException} (h : x s = (.error e, s')) :
    (x >>= f) s = (.error e, s') := by
  rw [run_bind, h]
  rfl

/-- What comes of an exception that `except ValueError: pass` sees. -/
def swallowed : Except PyException Unit → Except PyException Unit
  | .error .valueError => .ok ()
  | r => r

theorem exceptValueError_eq (body : Py σ Unit) :
    exceptValueError body s = (swallowed (body s).1, (body s).2) := by
  obtain ⟨r, s', hbody⟩ : ∃ r s', body s = (r, s') := ⟨_, _, rfl⟩
  rw [hbody]
  simp only [exceptValueError, tryCatch, tryCatchThe, MonadExceptOf.tryCatch, ExceptT.tryCatch,
    ExceptT.mk, bind, StateT.bind, hbody]
  rcases r with (_ | _) | _ <;> rfl

theorem read_none {size : Nat} (h : cells s.memory s.file.offset size = none) :
    (read size : Py σ _) s = (.error .memoryError, s) := by
  show (match cells s.file.inferior s.file.offset size with | none => _ | some data => _ : Py σ _)
    s = _
  rw [show cells s.file.inferior s.file.offset size = none from h]
  rfl

theorem read_some {size : Nat} {data : List UInt8}
    (h : cells s.memory s.file.offset size = some data) :
    (read size : Py σ _) s = (.ok data, s) := by
  show (match cells s.file.inferior s.file.offset size with | none => _ | some data => _ : Py σ _)
    s = _
  rw [show cells s.file.inferior s.file.offset size = some data from h]
  rfl

/-- What is read is what is found at the offset, and the file is left there. -/
theorem ctypeReadEx_eq (ctype_struct : CType) {offset : Nat} (rsize : Option Nat) (h : offset ≠ 0) :
    ctypeReadEx ctype_struct offset rsize s =
    (structureAt s.memory ctype_struct offset rsize, s.at offset) := by
  have hseek : (if offset ≠ 0 then seek offset else pure () : Py σ Unit) s =
      (.ok (), s.at offset) := by
    rw [if_pos h]
    rfl
  rw [ctypeReadEx, run_bind_ok hseek, structureAt]
  cases hdata : cells s.memory offset (sizeRead ctype_struct.size rsize) with
  | none => exact run_bind_error (read_none hdata)
  | some data =>
    have hlength : data.length = sizeRead ctype_struct.size rsize := (cells_eq_some.mp hdata).1
    refine (run_bind_ok (read_some hdata)).trans ?_
    dsimp only
    rw [← hlength]
    by_cases hshort : data.length < ctype_struct.size
    · rw [if_pos hshort]
      exact run_bind_error (congrFun (if_pos hshort) _)
    · rw [if_neg hshort]
      refine (run_bind_ok (congrFun (if_neg hshort) _)).trans ?_
      by_cases hextra : data.length > ctype_struct.size
      · rw [if_pos hextra, if_pos hextra]
        rfl
      · rw [if_neg hextra, if_neg hextra]
        rfl

end Runs

section Structures
variable {memory : Nat → Option UInt8} {ctype_struct : CType} {p : Nat} {rsize : Option Nat}

/-- A structure and what is read with it lie one behind the other, as many bytes as were asked
for. -/
theorem lies_of_structureAt {cdata : CData} {extra : Option (List UInt8)}
    (h : structureAt memory ctype_struct p rsize = .ok (cdata, extra)) :
    cdata.type = ctype_struct ∧ cdata.bytes.length = ctype_struct.size ∧
    Lies memory p (cdata.bytes ++ extra.getD []) ∧
    ctype_struct.size + (extra.getD []).length = sizeRead ctype_struct.size rsize := by
  rw [structureAt] at h
  cases hdata : cells memory p (sizeRead ctype_struct.size rsize) with
  | none =>
    rw [hdata] at h
    cases h
  | some data =>
    obtain ⟨hlength, hlies⟩ := cells_eq_some.mp hdata
    rw [hdata, ← hlength] at h
    dsimp only at h
    split at h
    · cases h
    · next hfits =>
      obtain ⟨rfl, rfl⟩ := Prod.mk.inj (Except.ok.inj h)
      have htake : (data.take ctype_struct.size).length = ctype_struct.size := by
        rw [List.length_take, Nat.min_eq_left (Nat.le_of_not_lt hfits)]
      refine ⟨rfl, htake, ?_⟩
      rw [← hlength]
      split
      · exact ⟨by rwa [Option.getD_some, List.take_append_drop],
          by rw [Option.getD_some, List.length_drop, Nat.add_sub_cancel' (Nat.le_of_not_lt hfits)]⟩
      · next hextra =>
        rw [Option.getD_none, List.append_nil, List.take_of_length_le (Nat.le_of_not_lt hextra)]
        exact ⟨hlies, Nat.le_antisymm (Nat.le_of_not_lt hfits) (Nat.le_of_not_lt hextra)⟩

/-- An exception says what was wrong. -/
theorem error_of_structureAt {x : PyException}
    (h : structureAt memory ctype_struct p rsize = .error x) :
    (x = .memoryError ∧ cells memory p (sizeRead ctype_struct.size rsize) = none) ∨
    (x = .valueError ∧ sizeRead ctype_struct.size rsize < ctype_struct.size) := by
  rw [structureAt] at h
  cases hdata : cells memory p (sizeRead ctype_struct.size rsize) with
  | none =>
    rw [hdata] at h
    exact Or.inl ⟨(Except.error.inj h).symm, rfl⟩
  | some data =>
    rw [hdata] at h
    dsimp only at h
    split at h
    · next hshort => exact Or.inr ⟨(Except.error.inj h).symm, hshort⟩
    · cases h

/-- A structure that is read by itself. -/
theorem cells_of_structureAt {cdata : CData} {extra : Option (List UInt8)}
    (h : structureAt memory ctype_struct p none = .ok (cdata, extra)) :
    cells memory p ctype_struct.size = some cdata.bytes := by
  obtain ⟨-, hlength, hlies, -⟩ := lies_of_structureAt h
  exact cells_eq_some.mpr ⟨hlength, (lies_append.mp hlies).1⟩

/-- A structure is found where it lies with what is read behind it. -/
theorem structureAt_of_lies (bytes extra : List UInt8) (hlies : Lies memory p (bytes ++ extra))
    (hbytes : bytes.length = ctype_struct.size)
    (hsize : ctype_struct.size + extra.length = sizeRead ctype_struct.size rsize) :
    structureAt memory ctype_struct p rsize =
      .ok (⟨ctype_struct, bytes⟩, if extra = [] then none else some extra) := by
  have hcells : cells memory p (sizeRead ctype_struct.size rsize) = some (bytes ++ extra) :=
    cells_eq_some.mpr ⟨by rw [List.length_append, hbytes, hsize], hlies⟩
  rw [structureAt, hcells, ← hsize, ← hbytes]
  dsimp only
  rw [if_neg (Nat.not_lt.mpr (Nat.le_add_right ..)), List.take_left, List.drop_left]
  cases extra with
  | nil =>
    have hsame : ¬ bytes.length + ([] : List UInt8).length > bytes.length := Nat.lt_irrefl _
    rw [if_pos rfl, if_neg hsame]
  | cons c cs =>
    have hmore : bytes.length < bytes.length + (c :: cs).length :=
      Nat.lt_add_of_pos_right (Nat.succ_pos _)
    rw [if_neg (List.cons_ne_nil c cs), if_pos hmore]

/-- A structure at the front of a record that says how long it is. -/
theorem structureAt_front {bytes : List UInt8} {length : Nat} (hlies : Lies memory p bytes)
    (hlength : bytes.length = length) (hgiven : length ≠ 0) (hsize : ctype_struct.size ≤ length) :
    structureAt memory ctype_struct p (some length) =
    .ok (⟨ctype_struct, bytes.take ctype_struct.size⟩,
      if bytes.drop ctype_struct.size = [] then none else some (bytes.drop ctype_struct.size)) := by
  refine structureAt_of_lies _ _ (by rwa [List.take_append_drop]) ?_ ?_
  · rw [List.length_take, hlength, Nat.min_eq_left hsize]
  · rw [List.length_drop, hlength, Nat.add_sub_cancel' hsize, sizeRead, if_pos hgiven]

theorem structureAt_alone {bytes : List UInt8} (hlies : Lies memory p bytes)
    (hbytes : bytes.length = ctype_struct.size) :
    structureAt memory ctype_struct p none = .ok (⟨ctype_struct, bytes⟩, none) :=
  structureAt_of_lies bytes [] (by rwa [List.append_nil]) hbytes rfl

end Structures
end UefiDebugger.Host
