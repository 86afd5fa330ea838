import UefiDebugger.Platform
import UefiDebugger.ByteString
import UefiDebugger.StateEffect

/-!
# The state of the stub

`Stub σ` is the stub's static data: the globals of `GdbStub.c`, its three packet buffers, the
breakpoint table of `Breakpoint.c`, the saved register contexts, and the machine `target : σ` behind
the platform. A pointer into the request or the scratch buffer is an offset.

Four fields record what the code does and are read by no code: how far each buffer was touched
(`ByteBuffer.readTop`, `ByteBuffer.writeTop`, `mResponseTop`), the memory accesses made, the
`ASSERT`s that would have fired, and the output.  `ASSERT` has no other effect.
-/
namespace UefiDebugger
open HexText ByteString StateEffect

/-! ## Buffers -/

/-- A static buffer with everything behind it in memory.  `readTop` and `writeTop` bound the offsets
touched so far. -/
structure ByteBuffer where
  bytes : Nat → UInt8
  readTop : Nat
  writeTop : Nat

namespace ByteBuffer

/-- Record that offsets below `top` may have been read. -/
def mark (b : ByteBuffer) (top : Nat) : ByteBuffer := { b with readTop := max b.readTop top }

/-- Store one byte. -/
def write (b : ByteBuffer) (i : Nat) (v : UInt8) : ByteBuffer :=
  { b with bytes := Function.update b.bytes i v, writeTop := max b.writeTop (i + 1) }

/-- Store a block, one byte after the other. -/
def writeAll (b : ByteBuffer) : Nat → List UInt8 → ByteBuffer
  | _, [] => b
  | i, v :: vs => (b.write i v).writeAll (i + 1) vs

/-- `ZeroMem` of the first `size` bytes. -/
def zero (b : ByteBuffer) (size : Nat) : ByteBuffer :=
  { b with bytes := fun i => if i < size then 0 else b.bytes i, writeTop := max b.writeTop size }

@[simp] theorem mark_bytes (b : ByteBuffer) (top : Nat) : (b.mark top).bytes = b.bytes := rfl
@[simp] theorem mark_readTop (b : ByteBuffer) (top : Nat) :
    (b.mark top).readTop = max b.readTop top := rfl
@[simp] theorem mark_writeTop (b : ByteBuffer) (top : Nat) : (b.mark top).writeTop = b.writeTop :=
  rfl
@[simp] theorem write_bytes (b : ByteBuffer) (i : Nat) (v : UInt8) :
    (b.write i v).bytes = Function.update b.bytes i v := rfl
@[simp] theorem write_readTop (b : ByteBuffer) (i : Nat) (v : UInt8) :
    (b.write i v).readTop = b.readTop := rfl
@[simp] theorem write_writeTop (b : ByteBuffer) (i : Nat) (v : UInt8) :
    (b.write i v).writeTop = max b.writeTop (i + 1) := rfl
@[simp] theorem mark_mark (b : ByteBuffer) (m n : Nat) : (b.mark m).mark n = b.mark (max m n) := by
  simp [mark, Nat.max_assoc]

theorem writeAll_bytes (bs : List UInt8) : ∀ (b : ByteBuffer) (i : Nat),
    (b.writeAll i bs).bytes = store b.bytes i bs := by
  induction bs with
  | nil => exact fun _ _ => rfl
  | cons v vs ih => exact fun b i => ih (b.write i v) (i + 1)

/-- A block touches what it is long. -/
theorem writeAll_writeTop (b : ByteBuffer) (i : Nat) (v : UInt8) (vs : List UInt8) :
    (b.writeAll i (v :: vs)).writeTop = max b.writeTop (i + (v :: vs).length) := by
  induction vs generalizing b i v with
  | nil => rfl
  | cons v' vs ih =>
    have hrest := ih (b.write i v) (i + 1) v'
    rw [writeAll, hrest, write_writeTop]
    simp only [List.length_cons]
    omega

@[simp] theorem zero_writeTop (b : ByteBuffer) (n : Nat) :
    (b.zero n).writeTop = max b.writeTop n := rfl

end ByteBuffer

/-- `MAX_REQUEST_SIZE`, the size of `mRequest`. -/
def maxRequestSize : Nat := 2048

/-- `MAX_RESPONSE_SIZE`. -/
def maxResponseSize : Nat := 0x1000

/-- `SCRATCH_SIZE`, the size of `mScratch`. -/
def scratchSize : Nat := 1024

/-- The longest string `AsciiStrLen` walks. -/
def pcdMaximumAsciiStringLength : Nat := 1000000

/-! ## Records -/

/-- `EXCEPTION_TYPE`. -/
inductive ExceptionType where
  | debugStep | breakpoint | genericFault | invalidOp | alignment | accessViolation
  deriving DecidableEq, Repr

/-- `EXCEPTION_INFO`. -/
structure ExceptionInfo where
  exceptionType : ExceptionType
  exceptionAddress : Nat
  archExceptionCode : Nat
  deriving DecidableEq, Repr

/-- `BREAKPOINT_REASON`. -/
inductive BreakpointReason where
  | none | initial | moduleLoad | debuggerBreak
  deriving DecidableEq, Repr

/-- `MAX_BREAKPOINTS`. -/
def maxBreakpoints : Nat := 64

/-- `BREAKPOINT_INFO`. -/
structure BreakpointInfo where
  active : Bool
  address : Nat
  originalValue : Nat → UInt8

/-- `mBreakpoints`. -/
abbrev BreakpointTable := Fin maxBreakpoints → BreakpointInfo

/-- What the stub lets the outside see: acknowledgements and packets written to the transport, and
the commands handed to `ExecuteGdbCommand`. -/
inductive Output where
  | ack (positive : Bool)
  | packet (bytes : List UInt8)
  | command (payload : List UInt8)
  deriving DecidableEq, Repr

/-- Where a memory access is made: the `m` and `M` commands, and the three accesses of a software
breakpoint. -/
inductive AccessSite where
  | memoryCommand | saveOriginal | plant | restore
  deriving DecidableEq, Repr

/-- One call of `DbgReadMemory` or `DbgWriteMemory`: the bytes it stored in its buffer or was given
to store, and its result. -/
structure Access where
  site : AccessSite
  write : Bool
  address : Nat
  data : List UInt8
  success : Bool
  deriving DecidableEq, Repr

/-- The `ASSERT`s on the command path. -/
inductive AssertSite where
  | resendUnacknowledged | resendLength | responseLength | hexDigit | vDelimiter | memoryLength
  | registerSize | packetStart | breakpointSize | breakpointTableFull
  deriving DecidableEq, Repr

/-! ## The stub -/

/-- The static data of the stub.  `gSystemContext` and `gExceptionInfo` are addresses; `contexts`
and `exceptionInfos` are the objects found there. -/
structure Stub (σ : Type) where
  gSystemContext : Nat
  gExceptionInfo : Nat
  gRunning : Bool
  mRebootOnContinue : Bool
  mRequest : ByteBuffer
  mResponseFull : ByteBuffer
  /-- How far command handlers wrote through `mResponse`. -/
  mResponseTop : Nat
  mScratch : ByteBuffer
  mResponseAcknowledged : Bool
  mNextBreakpointTimeout : Nat
  mConnectionOccurred : Bool
  /-- The static local of `SendGdbResponse`. -/
  responseLength : Nat
  mBreakpoints : BreakpointTable
  debuggerBreakpointReason : BreakpointReason
  contexts : Nat → Context
  exceptionInfos : Nat → ExceptionInfo
  target : σ
  /-- The machine was reset and executes no more code. -/
  halted : Bool
  accesses : List Access
  failedAsserts : List AssertSite
  output : List Output

/-- A program of the stub. -/
abbrev StubM (σ : Type) := StateM (Stub σ)

variable {σ : Type}

/-! ## Primitive operations -/

/-- `ASSERT (Condition)`, compiled out. -/
def assert (site : AssertSite) (Condition : Bool) : StubM σ Unit :=
  modify fun s => if Condition then s else { s with failedAsserts := s.failedAsserts ++ [site] }

/-- Only the record changes. -/
theorem assert_run (site : AssertSite) (Condition : Bool) (s : Stub σ) :
    (assert site Condition).run s = ((), { s with
      failedAsserts := if Condition then s.failedAsserts else s.failedAsserts ++ [site] }) := by
  cases Condition <;> rfl

/-- Append to the output. -/
def emit (o : Output) : StubM σ Unit := modify fun s => { s with output := s.output ++ [o] }

/-- `mRequest[i]`, read. -/
def readRequest (i : Nat) : StubM σ UInt8 :=
  modifyGet fun s => (s.mRequest.bytes i, { s with mRequest := s.mRequest.mark (i + 1) })

/-- `mRequest[i] = v`. -/
def writeRequest (i : Nat) (v : UInt8) : StubM σ Unit :=
  modify fun s => { s with mRequest := s.mRequest.write i v }

/-- `mScratch[i]`, read. -/
def readScratch (i : Nat) : StubM σ UInt8 :=
  modifyGet fun s => (s.mScratch.bytes i, { s with mScratch := s.mScratch.mark (i + 1) })

/-- `mScratch[i] = v`. -/
def writeScratch (i : Nat) (v : UInt8) : StubM σ Unit :=
  modify fun s => { s with mScratch := s.mScratch.write i v }

/-- `mResponse[i] = v`; `mResponse` points at `mResponseFull[1]`. -/
def writeResponse (i : Nat) (v : UInt8) : StubM σ Unit :=
  modify fun s => { s with
    mResponseFull := s.mResponseFull.write (1 + i) v
    mResponseTop := max s.mResponseTop (i + 1) }

/-! ## Library calls on the request buffer

The pointer arguments of these are offsets into `mRequest`. -/

/-- `AsciiStrLen`. -/
def asciiStrLen (String : Nat) : StubM σ Nat :=
  modifyGet fun s =>
    let n := strLen s.mRequest.bytes pcdMaximumAsciiStringLength String
    (n, { s with mRequest := s.mRequest.mark (String + n + 1) })

/-- The C string at an offset, for a library call that reads it to its end. -/
def readString (String : Nat) : StubM σ (List UInt8) :=
  modifyGet fun s =>
    let str := cString s.mRequest.bytes pcdMaximumAsciiStringLength String
    (str, { s with mRequest := s.mRequest.mark (String + str.length + 1) })

/-- `ScanMem8`. -/
def scanMem8 (Buffer Length : Nat) (Value : UInt8) : StubM σ (Option Nat) :=
  modifyGet fun s =>
    match findByte s.mRequest.bytes Value Buffer Length with
    | some j => (some j, { s with mRequest := s.mRequest.mark (j + 1) })
    | none => (none, { s with mRequest := s.mRequest.mark (Buffer + Length) })

/-- `AsciiStrnCmp (&mRequest[First], Second, Length) == 0`. -/
def asciiStrnCmpEq (First : Nat) (Second : List UInt8) (Length : Nat) : StubM σ Bool :=
  modifyGet fun s =>
    let r := strNEq s.mRequest.bytes First Second Length
    (r.1, { s with mRequest := s.mRequest.mark (First + r.2) })

/-! ## Library calls of the platform -/

/-- `AsciiStrHexToUint64S`, with the status as an option. -/
def asciiStrHexToUint64S (P : Platform σ) (String : Nat) : StubM σ (Option Nat) := do
  let str ← readString String
  pure (P.baseLib.asciiStrHexToUint64S str)

/-- `AsciiStrHexToUintn`. -/
def asciiStrHexToUintn (P : Platform σ) (String : Nat) : StubM σ Nat := do
  let str ← readString String
  pure (P.baseLib.asciiStrHexToUintn str)

/-- `DbgReadMemory`: the bytes it stored at the front of its buffer, and whether it succeeded. -/
def dbgReadMemory (P : Platform σ) (site : AccessSite) (Address Length : Nat) :
    StubM σ (Bool × List UInt8) :=
  modifyGet fun s =>
    let r := P.dbgReadMemory Address Length s.target
    ((r.1, r.2.1), { s with
      target := r.2.2
      accesses := s.accesses ++ [⟨site, false, Address, r.2.1, r.1⟩] })

/-- `DbgWriteMemory`. -/
def dbgWriteMemory (P : Platform σ) (site : AccessSite) (Address : Nat) (Data : List UInt8) :
    StubM σ Bool :=
  modifyGet fun s =>
    let r := P.dbgWriteMemory Address Data s.target
    (r.1, { s with
      target := r.2
      accesses := s.accesses ++ [⟨site, true, Address, Data, r.1⟩] })

end UefiDebugger
