import UefiDebugger.MemoryCommand

/-!
# The memory accessors

`AccessMemory` of `DebugAgentDxe.c` and `DebugAgentMm.c`, and the two accessors of
`DebugAgentPeiLib.c`.  DXE and MM go through a range page by page: a page is opened, which checks it
and may weaken its attributes, its bytes are copied, and what was weakened is put back.  The phases
differ in how a page is opened.

The attribute services and what the page checks look at besides memory are a state `τ` of their own,
so that they may answer in any way.  The checks and copies made are recorded in the order they are
made in.
-/
namespace UefiDebugger
open ByteString PatchedMemory StateEffect

/-! ## The machine -/

/-- `EFI_MEMORY_RP`. -/
def efiMemoryRp : UInt64 := 0x2000

/-- `EFI_MEMORY_RO`. -/
def efiMemoryRo : UInt64 := 0x20000

/-- `Address & ~EFI_PAGE_MASK`. -/
def pageBase (Address : Nat) : Nat := Address / efiPageSize * efiPageSize

/-- What an accessor does with memory: it checks the page at an address, and copies bytes from or to
an address. -/
inductive PageEvent where
  | checked (page : Nat) (passed : Bool)
  | copied (address length : Nat)
  deriving DecidableEq

/-- Memory, the state behind the services, the caller's buffer, and the record. -/
structure PagedMachine (τ : Type) where
  memory : Nat → UInt8
  world : τ
  data : Nat → UInt8
  events : List PageEvent

/-- A program of an accessor. -/
abbrev PagedM (τ : Type) := StateM (PagedMachine τ)

/-- Services that get, clear and set the attributes of the page at a base address:
`EFI_MEMORY_ATTRIBUTE_PROTOCOL`, or the `SmmMemoryAttributes` calls.  An error status is `none` or
`false`. -/
structure AttributeService (τ : Type) where
  getMemoryAttributes : (BaseAddress : Nat) → τ → Option UInt64 × τ
  clearMemoryAttributes : (BaseAddress : Nat) → (Attributes : UInt64) → τ → Bool × τ
  setMemoryAttributes : (BaseAddress : Nat) → (Attributes : UInt64) → τ → Bool × τ

/-- `IsPageReadable` and `IsPageWritable`.  The page tables they walk are in memory. -/
structure PageChecks (τ : Type) where
  isPageReadable : (Nat → UInt8) → τ → (Address : Nat) → Bool
  isPageWritable : (Nat → UInt8) → τ → (Address : Nat) → Bool

variable {τ : Type}

/-! ## Primitive operations -/

/-- The outcome of the check of the page at an address. -/
def recordCheck (Address : Nat) (passed : Bool) : PagedM τ Unit :=
  modify fun s => { s with events := s.events ++ [.checked (pageBase Address) passed] }

/-- `CopyMem`, to memory for a write and from it for a read; `Data` is an offset into the caller's
buffer. -/
def copyMem (Write : Bool) (Address Data Length : Nat) : PagedM τ Unit :=
  modify fun s => { s with
    memory :=
      if Write = true then writeBlock (2 ^ 64) s.memory Address (slice s.data Data Length)
      else s.memory
    data :=
      if Write = true then s.data
      else store s.data Data (readBlock (2 ^ 64) s.memory Address Length)
    events := s.events ++ [.copied Address Length] }

/-- A call of an attribute service. -/
def callService {α : Type} (call : τ → α × τ) : PagedM τ α :=
  modifyGet fun s => ((call s.world).1, { s with world := (call s.world).2 })

/-- `IsPageWritable` for a write, `IsPageReadable` for a read. -/
def PageChecks.allows (C : PageChecks τ) (Write : Bool) (memory : Nat → UInt8) (world : τ)
    (Address : Nat) : Bool :=
  if Write = true then C.isPageWritable memory world Address
  else C.isPageReadable memory world Address

/-- A call of it. -/
def checkPage (C : PageChecks τ) (Write : Bool) (Address : Nat) : PagedM τ Bool :=
  modifyGet fun s => (C.allows Write s.memory s.world Address, s)

/-! ## The loop -/

/-- How a page is opened: `none` if it fails its check, else the attributes to put back if they were
changed. -/
abbrev OpenPage (τ : Type) := (Address : Nat) → PagedM τ (Option (Option UInt64))

/-- A way to open a page, with the outcome of its check recorded. -/
def recorded (check : OpenPage τ) : OpenPage τ := fun Address => do
  let opened ← check Address
  recordCheck Address opened.isSome
  pure opened

/-- The attributes are put back if they were changed. -/
def closePage (A : Option (AttributeService τ)) (Address : Nat) (changed : Option UInt64) :
    PagedM τ Unit :=
  match changed, A with
  | some Attributes, some service => do
      let _ ← callService (service.setMemoryAttributes (pageBase Address) Attributes)
      pure ()
  | _, _ => pure ()

/-- The number of bytes of the range in its first page. -/
def lengthInPage (Address Length : Nat) : Nat := min Length (efiPageSize - Address % efiPageSize)

/-- `while (Length > 0)`.  The first argument bounds the number of rounds; without a result
(`none`) the loop is still running when it is used up. -/
def accessLoop (A : Option (AttributeService τ)) (openPage : OpenPage τ) (Write : Bool) :
    (fuel Address Data Length : Nat) → PagedM τ (Option Bool)
  | 0, _, _, _ => pure none
  | fuel + 1, Address, Data, Length =>
      if Length = 0 then pure (some true)
      else do
        let opened ← openPage Address
        match opened with
        | none => pure (some false)
        | some changed => do
            let LengthInPage := lengthInPage Address Length
            copyMem Write Address Data LengthInPage
            closePage A Address changed
            accessLoop A openPage Write fuel ((Address + LengthInPage) % 2 ^ 64)
              (Data + LengthInPage) (Length - LengthInPage)

/-! ## DXE -/

/-- What DXE's `AccessMemory` is linked against; the protocol may not be installed. -/
structure DxeServices (τ : Type) extends PageChecks τ where
  mMemoryAttributeProtocol : Option (AttributeService τ)

namespace Dxe

/-- The check by the protocol: read-protected memory is not valid, and a write to read-only memory
needs the attribute to be cleared. -/
def openByAttributes (A : AttributeService τ) (Write : Bool) (Address : Nat) :
    PagedM τ (Option (Option UInt64)) := do
  let read ← callService (A.getMemoryAttributes (pageBase Address))
  match read with
  | none => pure none
  | some Attributes =>
      if Attributes &&& efiMemoryRp ≠ 0 then pure none
      else if Write = true ∧ Attributes &&& efiMemoryRo ≠ 0 then do
        let cleared ← callService (A.clearMemoryAttributes (pageBase Address) efiMemoryRo)
        if cleared = true then pure (some (some Attributes)) else pure none
      else pure (some none)

/-- The check by the page tables. -/
def openByPageTables (C : PageChecks τ) (Write : Bool) (Address : Nat) :
    PagedM τ (Option (Option UInt64)) := do
  let passed ← checkPage C Write Address
  if passed = true then pure (some none) else pure none

/-- The part of a round of DXE's loop before the copy. -/
def openPage (D : DxeServices τ) (Write : Bool) : OpenPage τ :=
  recorded fun Address =>
    match D.mMemoryAttributeProtocol with
    | some A => openByAttributes A Write Address
    | none => openByPageTables D.toPageChecks Write Address

/-- `AccessMemory`. -/
def accessMemory (D : DxeServices τ) (Write : Bool) (Address Length : Nat) :
    PagedM τ (Option Bool) :=
  accessLoop D.mMemoryAttributeProtocol (openPage D Write) Write (Length + 1) Address 0 Length

end Dxe

/-! ## MM -/

namespace Mm

/-- The check by the attributes: what protects the page is lifted. -/
def openByAttributes (A : AttributeService τ) (Write : Bool) (Address : Nat) :
    PagedM τ (Option (Option UInt64)) := do
  let read ← callService (A.getMemoryAttributes (pageBase Address))
  match read with
  | none => pure none
  | some Attributes =>
      if Write = true ∧ Attributes &&& efiMemoryRo ≠ 0 then do
        let cleared ← callService
          (A.clearMemoryAttributes (pageBase Address) (efiMemoryRo ||| efiMemoryRp))
        if cleared = true then pure (some (some Attributes)) else pure none
      else if Attributes &&& efiMemoryRp ≠ 0 then do
        let cleared ← callService (A.clearMemoryAttributes (pageBase Address) efiMemoryRp)
        if cleared = true then pure (some (some Attributes)) else pure none
      else pure (some none)

/-- The part of a round of MM's loop before the copy. -/
def openPage (A : AttributeService τ) (Write : Bool) : OpenPage τ :=
  recorded (openByAttributes A Write)

/-- `AccessMemory`. -/
def accessMemory (A : AttributeService τ) (Write : Bool) (Address Length : Nat) :
    PagedM τ (Option Bool) :=
  accessLoop (some A) (openPage A Write) Write (Length + 1) Address 0 Length

end Mm

/-! ## PEI -/

namespace Pei

/-- What the two accessors share: one check, one copy. -/
def accessMemory (C : PageChecks τ) (Write : Bool) (Address Length : Nat) : PagedM τ Bool := do
  let passed ← checkPage C Write Address
  recordCheck Address passed
  if passed = true then do
    copyMem Write Address 0 Length
    pure true
  else pure false

/-- `DbgReadMemory`. -/
def dbgReadMemory (C : PageChecks τ) (Address Length : Nat) : PagedM τ Bool :=
  accessMemory C false Address Length

/-- `DbgWriteMemory`. -/
def dbgWriteMemory (C : PageChecks τ) (Address Length : Nat) : PagedM τ Bool :=
  accessMemory C true Address Length

end Pei
end UefiDebugger
