import UefiDebugger.GdbCommand

/-!
# Receiving packets

`ProcessGdbPacket` and `ProcessInputData` of `GdbStub.c`.  `ProcessInputData` is a loop around
`DebugReadByte`; here it is the step it takes on one outcome of that call, `receive`, and the place
where it waits for the next one, `InputPoint`.  `ProcessGdbPacket` is cut at its call of
`ExecuteGdbCommand`, so that a stop can be observed, and interrupted, while a command executes.
-/
namespace UefiDebugger
open HexText ByteString StateEffect

variable {σ : Type}

/-! ## One packet -/

/-- The checksum search of `ProcessGdbPacket`, from `ChecksumIndex` over `n` more bytes. -/
def findChecksum : (n ChecksumIndex : Nat) → StubM σ Nat
  | 0, ChecksumIndex => pure ChecksumIndex
  | n + 1, ChecksumIndex => do
      let Byte ← readRequest ChecksumIndex
      if Byte = char '#' then pure ChecksumIndex else findChecksum n (ChecksumIndex + 1)

/-- `Command` and `CommandLength` of the call of `ExecuteGdbCommand` in `ProcessGdbPacket`. -/
def commandArguments (ChecksumIndex : Nat) : Nat × Nat := (1, ChecksumIndex - 1)

/-- The record of a call of `ExecuteGdbCommand`: the text that its arguments stand for. -/
def recordCommand (arguments : Nat × Nat) : StubM σ Unit := modify fun s =>
  { s with output := s.output ++ [.command (slice s.mRequest.bytes arguments.1 arguments.2)] }

/-- `ProcessGdbPacket` on the packet in `mRequest`, up to its call of `ExecuteGdbCommand`, which
is on record: the `ChecksumIndex` of a valid packet. -/
def validateGdbPacket (P : Platform σ) (PacketLength : Nat) : StubM σ (Option Nat) := do
  let First ← readRequest 0
  assert .packetStart (decide (First = char '$'))
  let ChecksumIndex ← findChecksum (PacketLength - 1) 1
  if PacketLength ≤ ChecksumIndex + 2 then do
    sendGdbAck false
    pure none
  else do
    let Char0 ← readRequest (ChecksumIndex + 1)
    let Char1 ← readRequest (ChecksumIndex + 2)
    let s ← get
    let Payload := slice s.mRequest.bytes 1 (ChecksumIndex - 1)
    match P.baseLib.asciiStrHexToBytes [Char0, Char1] with
    | none => do
        sendGdbAck false
        pure none
    | some Checksum =>
        if Checksum ≠ [calculateSum8 Payload] then do
          sendGdbAck false
          pure none
        else do
          sendGdbAck true
          modify fun s => { s with mConnectionOccurred := true }
          writeRequest ChecksumIndex 0
          recordCommand (commandArguments ChecksumIndex)
          pure (some ChecksumIndex)

/-- The call of `ExecuteGdbCommand` in `ProcessGdbPacket`. -/
def executePacket (P : Platform σ) (ChecksumIndex : Nat) : StubM σ Unit :=
  executeGdbCommand P (commandArguments ChecksumIndex).1 (commandArguments ChecksumIndex).2

/-- `ProcessGdbPacket`. -/
def processGdbPacket (P : Platform σ) (PacketLength : Nat) : StubM σ Unit := do
  let valid ← validateGdbPacket P PacketLength
  match valid with
  | some ChecksumIndex => executePacket P ChecksumIndex
  | none => pure ()

/-! ## The input loop -/

/-- The outcome of one `DebugReadByte`. -/
inductive Receive where
  | byte (Byte : UInt8)
  | timeout
  deriving DecidableEq, Repr

/-- Where `ProcessInputData` is: at the read of a first byte, at the read of
`mRequest[PacketLength]`, at the call of `ProcessGdbPacket`, or back in its caller. -/
inductive InputPoint where
  | first
  | next (PacketLength : Nat)
  | packet (PacketLength : Nat)
  | returned
  deriving DecidableEq, Repr

/-- The entry of `ProcessInputData`. -/
def enterInput : StubM σ Unit :=
  modify fun s => { s with mRequest := s.mRequest.zero maxRequestSize }

/-- The read of a first byte returned. -/
def receiveFirst : Receive → StubM σ InputPoint
  | .timeout => pure .returned
  | .byte Byte => do
      writeRequest 0 Byte
      let s ← get
      if Byte = char '-' ∧ s.mResponseAcknowledged = false then do
        sendGdbResponse .resend
        pure .first
      else if Byte = char '+' then do
        modify fun s => { s with mResponseAcknowledged := true }
        pure .first
      else if Byte ≠ char '$' then pure .first
      else pure (.next 1)

/-- The condition of the inner loop, with `PacketLength` bytes stored: a packet ends in `#NN`. -/
def packetContinues (PacketLength : Nat) : StubM σ Bool :=
  if PacketLength < 4 then pure true
  else do
    let Byte ← readRequest (PacketLength - 3)
    pure (decide (Byte ≠ char '#'))

/-- The inner loop from its condition to its next read. -/
def collectorTail (PacketLength : Nat) : StubM σ InputPoint := do
  let continues ← packetContinues PacketLength
  if continues = true then
    if maxRequestSize ≤ PacketLength then do
      sendGdbAck false
      pure .returned
    else pure (.next PacketLength)
  else pure (.packet PacketLength)

/-- The read of `mRequest[PacketLength]` returned. -/
def receiveNext (PacketLength : Nat) : Receive → StubM σ InputPoint
  | .timeout => do
      sendGdbAck false
      pure .returned
  | .byte Byte => do
      writeRequest PacketLength Byte
      collectorTail (PacketLength + 1)

/-- `ProcessInputData` at the call of `ProcessGdbPacket`; elsewhere nothing is to be done. -/
def finishPacket (P : Platform σ) : InputPoint → StubM σ InputPoint
  | .packet PacketLength => do
      processGdbPacket P PacketLength
      pure .first
  | point => pure point

/-- `ProcessInputData` from the outcome of the read it waits for to its next read or its call of
`ProcessGdbPacket`.  After a return it has been called again. -/
def collect : InputPoint → Receive → StubM σ InputPoint
  | .returned, e => do
      enterInput
      receiveFirst e
  | .first, e => receiveFirst e
  | .next PacketLength, e => receiveNext PacketLength e
  | .packet PacketLength, _ => pure (.packet PacketLength)

/-- `ProcessInputData` on the outcome of the read it waits for, up to its next read. -/
def receive (P : Platform σ) (point : InputPoint) (e : Receive) : StubM σ InputPoint := do
  let point ← collect point e
  finishPacket P point

/-- `ProcessInputData` on a list of outcomes. -/
def receiveAll (P : Platform σ) : InputPoint → List Receive → StubM σ InputPoint
  | point, [] => pure point
  | point, e :: es => do
      let point ← receive P point e
      receiveAll P point es

end UefiDebugger
