import UefiDebugger.GdbResponse

/-!
# The memory commands

`ProcessMemoryCommand` of `GdbStub.c`.  The command is parsed in place in `mRequest`; the transfer
goes through `mScratch` a chunk at a time.
-/
namespace UefiDebugger
open HexText ByteString StateEffect

variable {σ : Type}

/-- `EFI_PAGE_SIZE`. -/
def efiPageSize : Nat := 4096

/-! ## One chunk -/

/-- The loop that decodes digits of the request into the scratch buffer: `n` rounds from
`RangeIndex`. Returns the advanced `ValueString`. -/
def decodeRange : (n RangeIndex ValueString : Nat) → StubM σ Nat
  | 0, _, ValueString => pure ValueString
  | n + 1, RangeIndex, ValueString => do
      let Byte ← hexToByte ValueString
      writeScratch RangeIndex Byte
      decodeRange n (RangeIndex + 1) (ValueString + 2)

/-- The loop that spells bytes of the scratch buffer into `mResponse`: `n` rounds from `RangeIndex`.
Returns the advanced `RespIndex`. -/
def encodeRange : (n RangeIndex RespIndex : Nat) → StubM σ Nat
  | 0, _, RespIndex => pure RespIndex
  | n + 1, RangeIndex, RespIndex => do
      let Byte ← readScratch RangeIndex
      writeResponse RespIndex (hexChar ((Byte &&& 0xF0) >>> 4))
      writeResponse (RespIndex + 1) (hexChar (Byte &&& 0xF))
      encodeRange n (RangeIndex + 1) (RespIndex + 2)

/-- A block stored at the front of the scratch buffer. -/
def storeScratch (Data : List UInt8) : StubM σ Unit :=
  modify fun s => { s with mScratch := s.mScratch.writeAll 0 Data }

/-- The first `RangeLength` bytes of the scratch buffer. -/
def scratchData (RangeLength : Nat) : StubM σ (List UInt8) :=
  modifyGet fun s =>
    (slice s.mScratch.bytes 0 RangeLength, { s with mScratch := s.mScratch.mark RangeLength })

/-- The pages reads of which Windbg expects not to fail. -/
def windbgWorkaround (P : Platform σ) (Address RangeLength : Nat) : Bool :=
  P.pcdEnableWindbgWorkarounds &&
    (decide (Address < efiPageSize) ||
      decide (Address / efiPageSize * efiPageSize = 0xfffff78000000000)) &&
    decide (RangeLength < efiPageSize)

/-! ## The chunk loop

`while (Length > 0)`, for the two directions.  The first argument bounds the number of rounds; every
round takes at least one byte off `Length`, so `Length` rounds are enough.  The result is whether
the loop ran to its end; otherwise the error reply has been sent. -/

/-- The loop of an `M` command. -/
def memoryWriteLoop (P : Platform σ) : (fuel Address Length ValueString : Nat) → StubM σ Bool
  | 0, _, _, _ => pure true
  | fuel + 1, Address, Length, ValueString =>
      if Length = 0 then pure true
      else do
        let RangeLength := min Length scratchSize
        let ValueString ← decodeRange RangeLength 0 ValueString
        let Data ← scratchData RangeLength
        let ok ← dbgWriteMemory P .memoryCommand Address Data
        if ok = true then
          memoryWriteLoop P fuel ((Address + RangeLength) % 2 ^ 64) (Length - RangeLength)
            ValueString
        else do
          sendGdbError gdbErrorBadMemAddress
          pure false

/-- `ZeroMem (&mScratch[0], RangeLength)` or `DbgReadMemory (Address, &mScratch[0],
RangeLength)`. -/
def readRange (P : Platform σ) (Address RangeLength : Nat) : StubM σ Bool :=
  if windbgWorkaround P Address RangeLength = true then do
    storeScratch (List.replicate RangeLength 0)
    pure true
  else do
    let (ok, Data) ← dbgReadMemory P .memoryCommand Address RangeLength
    storeScratch Data
    pure ok

/-- The loop of an `m` command.  The digits are produced for `Length` bytes in every round, not for
`RangeLength`.  Returns the advanced `RespIndex` when the loop ran to its end. -/
def memoryReadLoop (P : Platform σ) :
    (fuel Address Length RespIndex : Nat) → StubM σ (Option Nat)
  | 0, _, _, RespIndex => pure (some RespIndex)
  | fuel + 1, Address, Length, RespIndex =>
      if Length = 0 then pure (some RespIndex)
      else do
        let RangeLength := min Length scratchSize
        let ok ← readRange P Address RangeLength
        if ok = true then do
          let RespIndex ← encodeRange Length 0 RespIndex
          memoryReadLoop P fuel ((Address + RangeLength) % 2 ^ 64) (Length - RangeLength)
            RespIndex
        else do
          sendGdbError gdbErrorBadMemAddress
          pure none

/-! ## The command -/

/-- The transfer of a parsed `M` command. -/
def memoryWriteTransfer (P : Platform σ) (Address Length ValueString : Nat) : StubM σ Unit := do
  let done ← memoryWriteLoop P Length Address Length ValueString
  if done = true then sendGdbResponse (.text (text "OK"))
  else pure ()

/-- The transfer of a parsed `m` command. -/
def memoryReadTransfer (P : Platform σ) (Address Length : Nat) : StubM σ Unit := do
  let done ← memoryReadLoop P Length Address Length 0
  match done with
  | some RespIndex => do
      writeResponse RespIndex 0
      sendGdbResponse .mResponse
  | none => pure ()

/-- The two numbers of a memory command, once its delimiters are terminated. -/
def memoryNumbers (P : Platform σ) (AddressString LengthString : Nat) :
    StubM σ (Option (Nat × Nat)) := do
  let address ← asciiStrHexToUint64S P AddressString
  match address with
  | none => pure none
  | some Address => do
      let length ← asciiStrHexToUint64S P LengthString
      match length with
      | none => pure none
      | some Length => pure (some (Address, Length))

/-- The part of `ProcessMemoryCommand` after the `,` was found and terminated, for a write. -/
def processMemoryWrite (P : Platform σ) (Command CommandLength LengthString : Nat) :
    StubM σ Unit := do
  let value ← scanMem8 Command CommandLength (char ':')
  match value with
  | none => sendGdbError gdbErrorBadRequest
  | some Value => do
      writeRequest Value 0
      let numbers ← memoryNumbers P Command LengthString
      match numbers with
      | none => sendGdbError gdbErrorBadRequest
      | some (Address, Length) => do
          let n ← asciiStrLen (Value + 1)
          if n ≠ Length * 2 % 2 ^ 64 then do
            assert .memoryLength false
            sendGdbError gdbErrorBadRequest
          else memoryWriteTransfer P Address Length (Value + 1)

/-- The part of `ProcessMemoryCommand` after the `,` was found and terminated, for a read. -/
def processMemoryRead (P : Platform σ) (Command LengthString : Nat) : StubM σ Unit := do
  let numbers ← memoryNumbers P Command LengthString
  match numbers with
  | none => sendGdbError gdbErrorBadRequest
  | some (Address, Length) => memoryReadTransfer P Address Length

/-- `ProcessMemoryCommand`. -/
def processMemoryCommand (P : Platform σ) (Write : Bool) (Command CommandLength : Nat) :
    StubM σ Unit := do
  let length ← scanMem8 Command CommandLength (char ',')
  match length with
  | none => sendGdbError gdbErrorBadRequest
  | some Length => do
      writeRequest Length 0
      if Write = true then processMemoryWrite P Command CommandLength (Length + 1)
      else processMemoryRead P Command (Length + 1)

end UefiDebugger
