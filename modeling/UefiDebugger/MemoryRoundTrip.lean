import UefiDebugger.MemoryReadReply
import UefiDebugger.PageTransfer
import UefiDebugger.ShadowedWrites

/-!
# Memory written and read back

The memory commands over DXE's accessors.  `DbgReadMemory` and `DbgWriteMemory` of `DebugAgentDxe.c`
hand the caller's buffer to `AccessMemory`, so what the stub relies on of an accessor is what a
transfer page by page does; `dxeAccess` is that.  A write then leaves its bytes behind whatever the
case of the digits, a read spells what is there, and the two undo each other.
-/
namespace UefiDebugger
open HexText ByteString PatchedMemory StateEffect

/-! ## DXE's accessors -/

/-- Memory, and the state behind the services. -/
structure DxeMachine (τ : Type) where
  memory : Nat → UInt8
  world : τ

section Accessors
variable {τ : Type}

/-- The bytes an access moved. -/
def PagedMachine.moved (s : PagedMachine τ) : Nat := (s.events.map PageEvent.copiedLength).sum

/-- A call of `AccessMemory` on a buffer. -/
def Dxe.call (D : DxeServices τ) (Write : Bool) (Address : Nat) (Data : Nat → UInt8) (Length : Nat)
    (t : DxeMachine τ) : Option Bool × PagedMachine τ :=
  (Dxe.accessMemory D Write Address Length).run ⟨t.memory, t.world, Data, []⟩

/-- A buffer that holds a block. -/
def bufferOf (Data : List UInt8) : Nat → UInt8 := store (fun _ => 0) 0 Data

/-- A call of `DbgReadMemory`. -/
def Dxe.readCall (D : DxeServices τ) (Address Length : Nat) (t : DxeMachine τ) :
    Option Bool × PagedMachine τ := Dxe.call D false Address (bufferOf []) Length t

/-- A call of `DbgWriteMemory`. -/
def Dxe.writeCall (D : DxeServices τ) (Address : Nat) (Data : List UInt8) (t : DxeMachine τ) :
    Option Bool × PagedMachine τ := Dxe.call D true Address (bufferOf Data) Data.length t

/-- A call returns, and is a transfer of as many bytes as it moved. -/
theorem Dxe.call_spec (D : DxeServices τ) (Write : Bool) (a : Nat) (Data : Nat → UInt8) (l : Nat)
    (t : DxeMachine τ) :
    ∃ ok, (Dxe.call D Write a Data l t).1 = some ok ∧
      Transferred Write a 0 l ⟨t.memory, t.world, Data, []⟩ (Dxe.call D Write a Data l t).2 ok
        (Dxe.call D Write a Data l t).2.moved (Dxe.call D Write a Data l t).2.events ∧
      (a + l ≤ 2 ^ 64 → PageByPage a l ok (Dxe.call D Write a Data l t).2.moved
        (Dxe.call D Write a Data l t).2.events) := by
  obtain ⟨ok, n, evs, s', hrun, htransferred, hpages⟩ :=
    accessLoop_spec (A := D.mMemoryAttributeProtocol) (Dxe.opens D Write) (l + 1) a 0 l
      ⟨t.memory, t.world, Data, []⟩ (Nat.lt_succ_self l)
  have hcall : Dxe.call D Write a Data l t = (some ok, s') := hrun
  have hevents : s'.events = evs := htransferred.events
  have hmoved : s'.moved = n := by
    rw [PagedMachine.moved, hevents]
    exact htransferred.count
  rw [hcall]
  refine ⟨ok, rfl, ?_, ?_⟩
  · show Transferred Write a 0 l _ s' ok s'.moved s'.events
    rwa [hmoved, hevents]
  · show _ → PageByPage a l ok s'.moved s'.events
    rwa [hmoved, hevents]

theorem slice_bufferOf {Data : List UInt8} {n : Nat} (hn : n ≤ Data.length) :
    slice (bufferOf Data) 0 n = Data.take n := by
  have hheld : Holds (bufferOf Data) 0 (Data.take n ++ Data.drop n) := by
    rw [List.take_append_drop]
    exact holds_store ..
  have hfront := (holds_append.mp hheld).1.slice_eq
  rwa [List.length_take, Nat.min_eq_left hn] at hfront

/-- What a read leaves in the buffer. -/
theorem Dxe.readCall_data (D : DxeServices τ) (a n : Nat) (t : DxeMachine τ) :
    slice (Dxe.readCall D a n t).2.data 0 (Dxe.readCall D a n t).2.moved =
      readBlock (2 ^ 64) t.memory a (Dxe.readCall D a n t).2.moved := by
  obtain ⟨ok, -, htransferred, -⟩ := Dxe.call_spec D false a (bufferOf []) n t
  have hdata : (Dxe.readCall D a n t).2.data =
      store (bufferOf []) 0 (readBlock (2 ^ 64) t.memory a (Dxe.readCall D a n t).2.moved) :=
    htransferred.data
  rw [hdata]
  have hheld := (holds_store (bufferOf []) 0
    (readBlock (2 ^ 64) t.memory a (Dxe.readCall D a n t).2.moved)).slice_eq
  rwa [readBlock_length] at hheld

/-- A read leaves memory alone. -/
theorem Dxe.readCall_memory (D : DxeServices τ) (a n : Nat) (t : DxeMachine τ) :
    (Dxe.readCall D a n t).2.memory = t.memory := by
  obtain ⟨ok, -, htransferred, -⟩ := Dxe.call_spec D false a (bufferOf []) n t
  exact htransferred.memory

/-- A write stores the front of its block. -/
theorem Dxe.writeCall_memory (D : DxeServices τ) (a : Nat) (bs : List UInt8) (t : DxeMachine τ) :
    (Dxe.writeCall D a bs t).2.memory =
      writeBlock (2 ^ 64) t.memory a (bs.take (Dxe.writeCall D a bs t).2.moved) := by
  obtain ⟨ok, -, htransferred, -⟩ := Dxe.call_spec D true a (bufferOf bs) bs.length t
  have hmemory : (Dxe.writeCall D a bs t).2.memory =
      writeBlock (2 ^ 64) t.memory a (slice (bufferOf bs) 0 (Dxe.writeCall D a bs t).2.moved) :=
    htransferred.memory
  have hbound : (Dxe.writeCall D a bs t).2.moved ≤ bs.length := htransferred.bound
  rw [hmemory, slice_bufferOf hbound]

/-- A call that succeeds moved its whole range. -/
theorem Dxe.call_moved {D : DxeServices τ} {Write : Bool} {a : Nat} {Data : Nat → UInt8} {l : Nat}
    {t : DxeMachine τ} (h : (Dxe.call D Write a Data l t).1 = some true) :
    (Dxe.call D Write a Data l t).2.moved = l := by
  obtain ⟨ok, hok, htransferred, -⟩ := Dxe.call_spec D Write a Data l t
  rw [h] at hok
  exact htransferred.complete (Option.some.inj hok).symm

/-- `DbgReadMemory` and `DbgWriteMemory` of DXE. -/
def dxeAccess (D : DxeServices τ) : MemoryAccess (DxeMachine τ) where
  view := DxeMachine.memory
  dbgReadMemory Address Length t :=
    let r := Dxe.readCall D Address Length t
    (decide (r.1 = some true), slice r.2.data 0 r.2.moved, ⟨r.2.memory, r.2.world⟩)
  dbgWriteMemory Address Data t :=
    let r := Dxe.writeCall D Address Data t
    (decide (r.1 = some true), ⟨r.2.memory, r.2.world⟩)
  read_true a n t h := by
    have hmoved : (Dxe.readCall D a n t).2.moved = n := Dxe.call_moved (of_decide_eq_true h)
    exact (Dxe.readCall_data D a n t).trans (by rw [hmoved])
  read_false a n t _ := by
    obtain ⟨ok, -, htransferred, -⟩ := Dxe.call_spec D false a (bufferOf []) n t
    exact ⟨_, htransferred.bound, Dxe.readCall_data D a n t⟩
  read_view a n t := Dxe.readCall_memory D a n t
  write_true a bs t h := by
    have hmoved : (Dxe.writeCall D a bs t).2.moved = bs.length :=
      Dxe.call_moved (of_decide_eq_true h)
    exact (Dxe.writeCall_memory D a bs t).trans (by rw [hmoved, List.take_length])
  write_false a bs t _ := by
    obtain ⟨ok, -, htransferred, -⟩ := Dxe.call_spec D true a (bufferOf bs) bs.length t
    exact ⟨_, htransferred.bound, Dxe.writeCall_memory D a bs t⟩

/-! ## Pages that can be accessed -/

/-- Every page of the range passes its check when a read comes to it. -/
def Dxe.CanRead (D : DxeServices τ) (Address Length : Nat) (t : DxeMachine τ) : Prop :=
  ∀ x, Address ≤ x → x < Address + Length →
    .checked (pageBase x) true ∈ (Dxe.readCall D Address Length t).2.events

/-- Every page of the range passes its check when a write comes to it. -/
def Dxe.CanWrite (D : DxeServices τ) (Address : Nat) (Data : List UInt8) (t : DxeMachine τ) :
    Prop :=
  ∀ x, Address ≤ x → x < Address + Data.length →
    .checked (pageBase x) true ∈ (Dxe.writeCall D Address Data t).2.events

/-- A call succeeds if every page passes. -/
theorem Dxe.call_succeeds {D : DxeServices τ} {Write : Bool} {a : Nat}
    {Data : Nat → UInt8} {l : Nat} {t : DxeMachine τ} (hwrap : a + l ≤ 2 ^ 64)
    (h : ∀ x, a ≤ x → x < a + l →
      .checked (pageBase x) true ∈ (Dxe.call D Write a Data l t).2.events) :
    (Dxe.call D Write a Data l t).1 = some true := by
  obtain ⟨ok, hok, htransferred, hpages⟩ := Dxe.call_spec D Write a Data l t
  rw [hok, ((hpages hwrap).complete_iff htransferred.complete).mpr h]

theorem Dxe.CanRead.succeeds {D : DxeServices τ} {a n : Nat} {t : DxeMachine τ}
    (hwrap : a + n ≤ 2 ^ 64) (h : Dxe.CanRead D a n t) :
    ((dxeAccess D).dbgReadMemory a n t).1 = true :=
  decide_eq_true (Dxe.call_succeeds hwrap h)

theorem Dxe.CanWrite.succeeds {D : DxeServices τ} {a : Nat} {bs : List UInt8} {t : DxeMachine τ}
    (hwrap : a + bs.length ≤ 2 ^ 64) (h : Dxe.CanWrite D a bs t) :
    ((dxeAccess D).dbgWriteMemory a bs t).1 = true :=
  decide_eq_true (Dxe.call_succeeds hwrap h)

end Accessors

/-! ## The two commands -/

/-- `M addr,len:hex`. -/
def memoryWriteText (as ls ds : List UInt8) : List UInt8 :=
  char 'M' :: (as ++ char ',' :: (ls ++ char ':' :: ds))

/-- `m addr,len`. -/
def memoryReadText (as ls : List UInt8) : List UInt8 := char 'm' :: (as ++ char ',' :: ls)

section Commands
variable {σ : Type}

variable {P : Platform σ} {s s₁ t : Stub σ} {as ls ds bs : List UInt8} {n : Nat}

/-- A write of one chunk that memory accepts is answered, and stores its bytes. -/
theorem Executes.memoryWrite (h : Executes P s (memoryWriteText as ls ds) s₁ t) (ha : Digits as)
    (hl : Digits ls) (hlen : value ls = bs.length) (hbs : bs ≠ []) (hL : bs.length ≤ scratchSize)
    (hds : ds.map lowerCase = spell bs)
    (hwrite : (P.dbgWriteMemory (value as) bs s.target).1 = true) : RepliedWith (text "OK") s₁ t ∧
    P.view t.target = writeBlock (2 ^ 64) (P.view s.target) (value as) bs := by
  have htarget := h.delivered.target
  obtain ⟨v, s₂, hrun, hdevice, hout, hheld⟩ := memoryWrite_run P ha hl (isDigit_of_spelled hds)
    (by rw [length_of_spelled hds, hlen]) h.delivered.payload
  have htarget₂ : s₂.target = s.target := (congrArg Device.target hdevice).trans htarget
  have hpos : 0 < value ls := by rw [hlen]; exact List.length_pos_iff.mpr hbs
  have hread : readBytes ds = bs := readBytes_of_spelled hds
  have hwrite₂ : (P.dbgWriteMemory (value as) (readBytes ds) s₂.target).1 = true := by
    rwa [hread, htarget₂]
  obtain ⟨hreply, hmemory, -⟩ := memoryWriteTransfer_chunk P hpos (hlen ▸ hL)
    (by rw [length_of_spelled hds, hlen]) (isDigit_of_spelled hds) hheld hwrite₂
  have ht : t = ((memoryWriteTransfer P (value as) (value ls) v).run s₂).2 :=
    h.executed.trans (congrArg Prod.snd hrun)
  rw [← ht] at hreply hmemory
  refine ⟨hreply.trans (by rw [hout]), ?_⟩
  rw [hmemory, hread, htarget₂]
  exact P.write_true _ _ _ hwrite

/-- A read of one chunk that memory accepts is answered by it, and leaves it alone. -/
theorem Executes.memoryRead (h : Executes P s (memoryReadText as ls) s₁ t) (ha : Digits as)
    (hl : Digits ls) (hlen : value ls = n) (hL : n ≤ scratchSize)
    (hw : P.pcdEnableWindbgWorkarounds = false)
    (hread : (P.dbgReadMemory (value as) n s.target).1 = true) :
    RepliedWith (spell (readBlock (2 ^ 64) (P.view s.target) (value as) n)) s₁ t ∧
    P.view t.target = P.view s.target := by
  have htarget := h.delivered.target
  subst hlen
  obtain ⟨z, s₂, hrun, hparsing⟩ := memoryRead_run P ha hl h.delivered.payload
  have hsame := hparsing.same
  have htarget₂ : s₂.target = s.target := by rw [hsame, htarget]
  have hout : s₂.output = s₁.output := by rw [hsame]
  have hfirst : FirstReadSucceeds P (value as) (value ls) s₂ := fun _ => by
    rwa [Nat.min_eq_left hL, htarget₂]
  obtain ⟨hreply, hview, -⟩ := memoryReadTransfer_memory P hw hL hfirst
  have ht : t = ((memoryReadTransfer P (value as) (value ls)).run s₂).2 :=
    h.executed.trans (congrArg Prod.snd hrun)
  rw [← ht, htarget₂] at hreply hview
  exact ⟨hreply.trans (by rw [hout]), hview⟩

end Commands

/-! ## The round trips -/

/-- `m'` holds the bytes `bs` at `a`, and elsewhere is `m`. -/
def ChangedExactly (a : Nat) (bs : List UInt8) (m m' : Nat → UInt8) : Prop :=
  (∀ i < bs.length, bs[i]? = some (m' (a + i))) ∧ ∀ x, ¬ (a ≤ x ∧ x < a + bs.length) → m' x = m x

theorem changedExactly_writeBlock {a : Nat} {bs : List UInt8} (hwrap : a + bs.length ≤ 2 ^ 64)
    (m : Nat → UInt8) : ChangedExactly a bs m (writeBlock (2 ^ 64) m a bs) := by
  refine ⟨fun i hi => ?_, fun x hx => writeBlock_of_not_covers (mt (covers_iff hwrap).mp hx)⟩
  have hblock : readBlock (2 ^ 64) (writeBlock (2 ^ 64) m a bs) a bs.length = bs :=
    readBlock_writeBlock (by omega)
  have hget := getElem?_readBlock (N := 2 ^ 64) (m := writeBlock (2 ^ 64) m a bs) (a := a) hi
  rwa [hblock, Nat.mod_eq_of_lt (by omega)] at hget

section RoundTrip
variable {τ : Type} (D : DxeServices τ) (P : Platform (DxeMachine τ))

/-- A write stores exactly its bytes, and the read after it replies with them in lower case. -/
def WriteThenRead (as ls ds bs : List UInt8) : Prop :=
  ∀ s s₁ t, Executes P s (memoryWriteText as ls ds) s₁ t → Dxe.CanWrite D (value as) bs s.target →
    RepliedWith (text "OK") s₁ t ∧ ChangedExactly (value as) bs s.target.memory t.target.memory ∧
      ∀ t₁ u, Executes P t (memoryReadText as ls) t₁ u →
      Dxe.CanRead D (value as) bs.length t.target → RepliedWith (spell bs) t₁ u

/-- What a read replied with, written back, leaves memory as it was. -/
def ReadThenWrite (as ls : List UInt8) (n : Nat) : Prop :=
  ∀ s s₁ t, Executes P s (memoryReadText as ls) s₁ t → Dxe.CanRead D (value as) n s.target →
    ∃ hex, RepliedWith hex s₁ t ∧
      ∀ t₁ u, Executes P t (memoryWriteText as ls hex) t₁ u →
        Dxe.CanWrite D (value as) (readBytes hex) t.target →
          RepliedWith (text "OK") t₁ u ∧ u.target.memory = s.target.memory

/-- Two pairs of digits that differ in case only are one byte to `HexToByte`. -/
def DecodesAlike (σ : Type) : Prop :=
  ∀ (s s' : Stub σ) (v v' : Nat) (c d c' d' : UInt8), Holds s.mRequest.bytes v [c, d] →
    Holds s'.mRequest.bytes v' [c', d'] → isDigit c = true → isDigit d = true →
    lowerCase c = lowerCase c' → lowerCase d = lowerCase d' →
      ((hexToByte v).run s).1 = ((hexToByte v').run s').1

theorem decodesAlike (σ : Type) : DecodesAlike σ := by
  intro s s' v v' c d c' d' h h' hc hd hcc hdd
  have hc' : isDigit c' = true := by rw [← isDigit_lowerCase, ← hcc, isDigit_lowerCase, hc]
  have hd' : isDigit d' = true := by rw [← isDigit_lowerCase, ← hdd, isDigit_lowerCase, hd]
  rw [hexToByte_run h hc hd, hexToByte_run h' hc' hd']
  show readByte c d = readByte c' d'
  rw [← readByte_lowerCase, hcc, hdd, readByte_lowerCase]

theorem view_dxe {D : DxeServices τ} {P : Platform (DxeMachine τ)}
    (hD : P.toMemoryAccess = dxeAccess D) (t : DxeMachine τ) : P.view t = t.memory := by
  rw [hD]
  rfl

section Requests
variable {D P} {as ls ds bs : List UInt8} (hD : P.toMemoryAccess = dxeAccess D)
  (hw : P.pcdEnableWindbgWorkarounds = false) (ha : Digits as) (hl : Digits ls)
include hD hw ha hl

theorem writeThenRead_of_short (hlen : value ls = bs.length) (hbs : bs ≠ [])
    (hL : bs.length ≤ scratchSize) (hds : ds.map lowerCase = spell bs)
    (hwrap : value as + bs.length ≤ 2 ^ 64) :
    WriteThenRead D P as ls ds bs := by
  intro s s₁ t hexecutes hcan
  obtain ⟨hreply, hview⟩ :=
    hexecutes.memoryWrite ha hl hlen hbs hL hds (by rw [hD]; exact hcan.succeeds hwrap)
  rw [view_dxe hD, view_dxe hD] at hview
  refine ⟨hreply, ?_, fun t₁ u hread hcanRead => ?_⟩
  · rw [hview]
    exact changedExactly_writeBlock hwrap _
  · obtain ⟨hanswer, -⟩ :=
      hread.memoryRead ha hl hlen hL hw (by rw [hD]; exact hcanRead.succeeds hwrap)
    rwa [view_dxe hD, hview, readBlock_writeBlock (by omega)] at hanswer

theorem readThenWrite_of_short {n : Nat} (hlen : value ls = n) (hn : 0 < n) (hL : n ≤ scratchSize)
    (hwrap : value as + n ≤ 2 ^ 64) : ReadThenWrite D P as ls n := by
  intro s s₁ t hexecutes hcan
  obtain ⟨hreply, hview⟩ :=
    hexecutes.memoryRead ha hl hlen hL hw (by rw [hD]; exact hcan.succeeds hwrap)
  rw [view_dxe hD] at hreply
  rw [view_dxe hD, view_dxe hD] at hview
  set bs := readBlock (2 ^ 64) s.target.memory (value as) n with hbs
  have hbslen : bs.length = n := readBlock_length ..
  refine ⟨spell bs, hreply, fun t₁ u hwrite hcanWrite => ?_⟩
  rw [readBytes_spell] at hcanWrite
  have hcount : value ls = bs.length := hlen.trans hbslen.symm
  obtain ⟨hanswer, hafter⟩ := hwrite.memoryWrite ha hl hcount
    (List.length_pos_iff.mp (by omega)) (by omega) (map_lowerCase_spell bs)
    (by rw [hD]; exact hcanWrite.succeeds (by omega))
  rw [view_dxe hD, view_dxe hD, hview] at hafter
  refine ⟨hanswer, ?_⟩
  rw [hafter]
  funext x
  rw [hbs, writeBlock_readBlock]
  split
  · rfl
  · rfl

end Requests

/-- **Memory written is read back, and memory read is written back.** -/
theorem memory_round_trip (hD : P.toMemoryAccess = dxeAccess D)
    (hw : P.pcdEnableWindbgWorkarounds = false) {as ls ds bs : List UInt8} (ha : Digits as)
    (hl : Digits ls) (hlen : value ls = bs.length) (hbs : bs ≠ [])
    (hds : ds.map lowerCase = spell bs) (hwrap : value as + bs.length ≤ 2 ^ 64)
    (hfits : (memoryWriteText as ls ds).length ≤ 2044) : WriteThenRead D P as ls ds bs ∧
    ReadThenWrite D P as ls bs.length ∧ DecodesAlike (DxeMachine τ) := by
  have hL : bs.length ≤ scratchSize := by
    have hdigits := length_of_spelled hds
    simp only [memoryWriteText, List.length_cons, List.length_append] at hfits
    unfold scratchSize
    omega
  exact ⟨writeThenRead_of_short hD hw ha hl hlen hbs hL hds hwrap,
    readThenWrite_of_short hD hw ha hl hlen (List.length_pos_iff.mpr hbs) hL hwrap, decodesAlike _⟩

end RoundTrip

/-! ## Four bytes across a page boundary -/

/-- The X64 DXE phase on the pages below `0x2000`. -/
def lowPlatform : Platform (DxeMachine Unit) where
  toMemoryAccess := dxeAccess lowPages
  baseLib := documentedBaseLib
  mArchBreakpointInstruction := [0xCC]
  instruction_size := flatPlatform.instruction_size
  gDebuggerInfo := text "DXE UEFI Debugger"
  gRegisterOffsets := []
  gdbTargetInfo := flatPlatform.gdbTargetInfo
  pcdEnableWindbgWorkarounds := false
  addSingleStep c t := (c, t)
  addWatchpoint _ _ _ _ t := (false, t)
  removeWatchpoint _ _ _ _ t := (false, t)
  debugReboot t := (true, t)
  dbgSetBreakOnModuleLoad _ t := (false, t)
  gdbReadMsr _ t := ([], t)
  gdbDumpSystemRegisters _ t := ([], t)

/-- The bytes, and their digits in either case. -/
def straddlingBytes : List UInt8 := [0x01, 0xAB, 0xCD, 0xEF]

/-- `Mffe,4:01aBCdEF` is about to be executed, and what it leaves. -/
def straddlingWrite : Stub (DxeMachine Unit) :=
  { Stub.initial ⟨fun _ => 0, ()⟩ with
    mRequest := requestOf (memoryWriteText (text "ffe") (text "4") (text "01aBCdEF")) }
def straddlingWrote : Stub (DxeMachine Unit) :=
  ((executeGdbCommand lowPlatform 1
    (memoryWriteText (text "ffe") (text "4") (text "01aBCdEF")).length).run straddlingWrite).2

/-- `mffe,4` is about to be executed behind it. -/
def straddlingRead : Stub (DxeMachine Unit) :=
  { straddlingWrote with mRequest := requestOf (memoryReadText (text "ffe") (text "4")) }
def straddlingWasRead : Stub (DxeMachine Unit) :=
  ((executeGdbCommand lowPlatform 1 (memoryReadText (text "ffe") (text "4")).length).run
    straddlingRead).2

theorem digits_straddling : Digits (text "ffe") := .of_all (by decide)

theorem digits_four : Digits (text "4") := .of_all (by decide)

theorem straddlingWrite_executes :
    Executes lowPlatform straddlingWrite (memoryWriteText (text "ffe") (text "4") (text "01aBCdEF"))
      straddlingWrite straddlingWrote :=
  ⟨⟨payload_requestOf (by decide), rfl⟩, rfl⟩

theorem straddlingRead_executes :
    Executes lowPlatform straddlingWrote (memoryReadText (text "ffe") (text "4")) straddlingRead
    straddlingWasRead :=
  executes_requestOf lowPlatform straddlingWrote (by decide)

theorem pageBase_straddling {x : Nat} (hx : 0xFFE ≤ x) (hxl : x < 0xFFE + 4) :
    pageBase x = 0 ∨ pageBase x = 0x1000 := by
  unfold pageBase efiPageSize
  omega

theorem straddlingWrite_can :
    Dxe.CanWrite lowPages (value (text "ffe")) straddlingBytes straddlingWrite.target := by
  intro x hx hxl
  rcases pageBase_straddling hx hxl with hpage | hpage
  · rw [hpage]
    decide +kernel
  · rw [hpage]
    decide +kernel

/-- Both pages can be read, whatever is in memory. -/
theorem straddlingRead_can (t : DxeMachine Unit) :
    Dxe.CanRead lowPages (value (text "ffe")) straddlingBytes.length t := by
  have hevents : (Dxe.readCall lowPages (value (text "ffe")) straddlingBytes.length t).2.events =
      [.checked 0 true, .copied 0xFFE 2, .checked 0x1000 true, .copied 0x1000 2] := rfl
  intro x hx hxl
  rw [hevents]
  rcases pageBase_straddling hx hxl with hpage | hpage
  · rw [hpage]
    decide
  · rw [hpage]
    decide

theorem memory_round_trip_straddling :
    (RepliedWith (text "OK") straddlingWrite straddlingWrote ∧
      ChangedExactly (value (text "ffe")) straddlingBytes straddlingWrite.target.memory
      straddlingWrote.target.memory) ∧
      RepliedWith (text "01abcdef") straddlingRead straddlingWasRead := by
  have hspelled : (text "01aBCdEF").map lowerCase = spell straddlingBytes := by decide
  obtain ⟨hwrite, -, -⟩ :=
    memory_round_trip lowPages lowPlatform rfl rfl digits_straddling digits_four (by decide)
    (by decide) hspelled (by decide) (by decide)
  obtain ⟨hreply, hchanged, hread⟩ := hwrite _ _ _ straddlingWrite_executes straddlingWrite_can
  have hback := hread _ _ straddlingRead_executes (straddlingRead_can _)
  rw [show spell straddlingBytes = text "01abcdef" from by decide] at hback
  exact ⟨⟨hreply, hchanged⟩, hback⟩

end UefiDebugger
