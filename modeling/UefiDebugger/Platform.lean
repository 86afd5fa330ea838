import UefiDebugger.HexText
import UefiDebugger.PatchedMemory

/-!
# What the stub is linked against

`GdbStub.c` and `Breakpoint.c` are phase and architecture independent: they call the base library,
the phase's memory accessors and the architecture's register code.  A `Platform` is one choice of
all of these, over an arbitrary machine state `σ` that the stub never looks into.

The base library and the memory accessors carry the behaviour their callers rely on as fields
(`BaseLib`, `MemoryAccess`), so that a platform cannot be built without it.
-/
namespace UefiDebugger
open HexText PatchedMemory

/-! ## The base library -/

/-- An argument of `AsciiSPrint`. -/
inductive PrintArg where
  | text (s : List UInt8)
  | number (n : Nat)

/-- The string services of the base library that convert or format.  Strings are given without their
terminator; an error status is `none`. -/
structure BaseLib where
  asciiStrHexToUint64S : List UInt8 → Option Nat
  asciiStrHexToUintn : List UInt8 → Nat
  asciiStrHexToBytes : List UInt8 → Option (List UInt8)
  /-- The formatted text, before it is cut to the size of the buffer. -/
  asciiSPrint : List UInt8 → List PrintArg → List UInt8
  uint64S_digits : ∀ ds, ds ≠ [] → (∀ c ∈ ds, isDigit c = true) →
    asciiStrHexToUint64S ds = if value ds < 2 ^ 64 then some (value ds) else none
  uintn_digits : ∀ ds, ds ≠ [] → (∀ c ∈ ds, isDigit c = true) → value ds < 2 ^ 64 →
    asciiStrHexToUintn ds = value ds
  bytes_pair : ∀ c d, asciiStrHexToBytes [c, d] =
    if isDigit c = true ∧ isDigit d = true then some [readByte c d] else none

/-! ## Memory -/

/-- `DbgReadMemory` and `DbgWriteMemory` over a machine state whose memory is `view`.  An access
that fails may have transferred part of the block, and then transferred its front. -/
structure MemoryAccess (σ : Type) where
  view : σ → Nat → UInt8
  dbgReadMemory : (Address Length : Nat) → σ → Bool × List UInt8 × σ
  dbgWriteMemory : (Address : Nat) → (Data : List UInt8) → σ → Bool × σ
  read_true : ∀ a n t, (dbgReadMemory a n t).1 = true →
    (dbgReadMemory a n t).2.1 = readBlock (2 ^ 64) (view t) a n
  read_false : ∀ a n t, (dbgReadMemory a n t).1 = false →
    ∃ k ≤ n, (dbgReadMemory a n t).2.1 = readBlock (2 ^ 64) (view t) a k
  read_view : ∀ a n t, view (dbgReadMemory a n t).2.2 = view t
  write_true : ∀ a bs t, (dbgWriteMemory a bs t).1 = true →
    view (dbgWriteMemory a bs t).2 = writeBlock (2 ^ 64) (view t) a bs
  write_false : ∀ a bs t, (dbgWriteMemory a bs t).1 = false →
    ∃ k ≤ bs.length, view (dbgWriteMemory a bs t).2 = writeBlock (2 ^ 64) (view t) a (bs.take k)

/-! ## The platform -/

/-- A saved register context, as the bytes of the architecture's context structure. -/
abbrev Context := Nat → UInt8

/-- `GDB_REGISTER_OFFSET_DATA`. -/
structure RegisterOffsetData where
  offset : Nat
  size : Nat
  name : Option (List UInt8)
  type : List UInt8

/-- `REG_NOT_PRESENT`. -/
def regNotPresent : Nat := 0xFFFFFFFF

/-- `GDB_TARGET_INFO`. -/
structure TargetInfo where
  targetArch : List UInt8
  registersFeature : List UInt8

/-- `MAX_BREAKPOINT_SIZE`. -/
def maxBreakpointSize : Nat := 4

/-- One choice of phase and architecture. -/
structure Platform (σ : Type) extends MemoryAccess σ where
  baseLib : BaseLib
  mArchBreakpointInstruction : List UInt8
  instruction_size : mArchBreakpointInstruction.length ≤ maxBreakpointSize
  gDebuggerInfo : List UInt8
  gRegisterOffsets : List RegisterOffsetData
  gdbTargetInfo : TargetInfo
  pcdEnableWindbgWorkarounds : Bool
  addSingleStep : Context → σ → Context × σ
  addWatchpoint : (Address Length : Nat) → (Read Write : Bool) → σ → Bool × σ
  removeWatchpoint : (Address Length : Nat) → (Read Write : Bool) → σ → Bool × σ
  /-- `false` when the machine is reset and the call does not return. -/
  debugReboot : σ → Bool × σ
  dbgSetBreakOnModuleLoad : (Module : List UInt8) → σ → Bool × σ
  /-- The text an MSR read prints. -/
  gdbReadMsr : (Cmd : List UInt8) → σ → List UInt8 × σ
  /-- The text a register dump prints. -/
  gdbDumpSystemRegisters : (Cmd : List UInt8) → σ → List UInt8 × σ

/-- `mArchBreakpointInstructionSize`. -/
def Platform.mArchBreakpointInstructionSize {σ : Type} (P : Platform σ) : Nat :=
  P.mArchBreakpointInstruction.length

end UefiDebugger
