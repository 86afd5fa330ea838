import UefiDebugger.StubState

/-!
# Acknowledgements and response packets

The sending half of `GdbStub.c`.  A response is built either as a string literal or in `mResponse`,
which aliases `mResponseFull[1]`; `SendGdbResponse` frames it in place and writes `mResponseFull` to
the transport, and a resend writes `mResponseFull` as it then is.
-/
namespace UefiDebugger
open HexText ByteString StateEffect

/-! ## Framing -/

/-- `HexChars`. -/
def hexChars : List UInt8 := text "0123456789abcdef"

/-- `HexChars[n]`. -/
def hexChar (n : UInt8) : UInt8 := hexChars.getD n.toNat 0

/-- `CalculateSum8`. -/
def calculateSum8 (bs : List UInt8) : UInt8 := bs.foldl (· + ·) 0

/-- The packet a payload is sent in. -/
def gdbFrame (payload : List UInt8) : List UInt8 :=
  [char '$'] ++ payload ++
    [char '#', hexChar (calculateSum8 payload >>> 4), hexChar (calculateSum8 payload &&& 0xF)]

variable {σ : Type}

/-! ## Sending -/

/-- `SendGdbAck`. -/
def sendGdbAck (Positive : Bool) : StubM σ Unit := emit (.ack Positive)

/-- The argument of `SendGdbResponse`: NULL, a string of its own, or the string in `mResponse`. -/
inductive Response where
  | resend
  | text (str : List UInt8)
  | mResponse

/-- `DebugTransportWrite (&mResponseFull[0], ResponseLength)`, after marking the response as not
acknowledged. -/
def transmitResponse : StubM σ Unit := do
  modify fun s => { s with mResponseAcknowledged := false }
  let s ← get
  emit (.packet (slice s.mResponseFull.bytes 0 s.responseLength))

/-- The framing done by `SendGdbResponse` around a response of length `n` that is in place. -/
def frameResponse (n : Nat) (Checksum : UInt8) : StubM σ Unit :=
  modify fun s => { s with
    mResponseFull := s.mResponseFull.writeAll (n + 1)
      [char '#', hexChar (Checksum >>> 4), hexChar (Checksum &&& 0xF), 0]
    responseLength := n + 4 }

/-- `SendGdbResponse`. -/
def sendGdbResponse : Response → StubM σ Unit
  | .resend => do
      let s ← get
      assert .resendUnacknowledged (!s.mResponseAcknowledged)
      assert .resendLength (decide (4 ≤ s.responseLength))
      transmitResponse
  | .text str => do
      assert .responseLength (decide (str.length ≤ maxResponseSize))
      modify fun s => { s with
        mResponseFull := (s.mResponseFull.write 0 (char '$')).writeAll 1 str }
      frameResponse str.length (calculateSum8 str)
      transmitResponse
  | .mResponse => do
      let s ← get
      let str := cString s.mResponseFull.bytes pcdMaximumAsciiStringLength 1
      assert .responseLength (decide (str.length ≤ maxResponseSize))
      modify fun s => { s with mResponseFull := s.mResponseFull.write 0 (char '$') }
      frameResponse str.length (calculateSum8 str)
      transmitResponse

/-- A framed response in place is the packet of its payload. -/
theorem slice_frame {f : Nat → UInt8} {str : List UInt8} (h0 : f 0 = char '$')
    (hstr : Holds f 1 str) :
    slice (store f (str.length + 1) [char '#', hexChar (calculateSum8 str >>> 4),
      hexChar (calculateSum8 str &&& 0xF), 0]) 0 (str.length + 4) = gdbFrame str := by
  set c := calculateSum8 str
  set g := store f (str.length + 1) [char '#', hexChar (c >>> 4), hexChar (c &&& 0xF), 0] with hg
  have hfront : Holds g 1 str := (holds_congr fun j _ hj => by
    rw [hg, store_of_lt (by omega)]).mpr hstr
  have hback : Holds g (str.length + 1) [char '#', hexChar (c >>> 4), hexChar (c &&& 0xF), 0] :=
    holds_store ..
  have hall :
      Holds g 0 (char '$' :: (str ++ [char '#', hexChar (c >>> 4), hexChar (c &&& 0xF)])) := by
    refine ⟨?_, holds_append.mpr ⟨hfront, ?_⟩⟩
    · rw [hg, store_of_lt (by omega), h0]
    · rw [Nat.add_comm (0 + 1), Nat.zero_add]
      exact ⟨hback.1, hback.2.1, hback.2.2.1, trivial⟩
  have := hall.slice_eq
  simpa [gdbFrame] using this

/-- A response that is a string of its own is sent as its packet. -/
theorem output_sendGdbResponse_text (str : List UInt8) (s : Stub σ) :
    ((sendGdbResponse (.text str)).run s).2.output = s.output ++ [.packet (gdbFrame str)] := by
  rw [sendGdbResponse, run_bind, assert_run]
  show s.output ++ [Output.packet (slice (ByteBuffer.writeAll _ _ _).bytes 0 (str.length + 4))] = _
  rw [ByteBuffer.writeAll_bytes, slice_frame]
  · rw [ByteBuffer.writeAll_bytes, store_of_lt (by omega)]
    exact Function.update_self 0 _ s.mResponseFull.bytes
  · rw [ByteBuffer.writeAll_bytes]
    exact holds_store ..

/-- The response in `mResponse` is sent as the packet of the string found there. -/
theorem output_sendGdbResponse_mResponse (s : Stub σ) :
    ((sendGdbResponse .mResponse).run s).2.output = s.output ++
      [.packet (gdbFrame (cString s.mResponseFull.bytes pcdMaximumAsciiStringLength 1))] := by
  rw [sendGdbResponse, run_bind, run_get]
  dsimp only
  set str := cString s.mResponseFull.bytes pcdMaximumAsciiStringLength 1 with hstr
  rw [run_bind, assert_run]
  show s.output ++ [Output.packet (slice (ByteBuffer.writeAll _ _ _).bytes 0 (str.length + 4))] = _
  rw [ByteBuffer.writeAll_bytes, slice_frame]
  · exact Function.update_self 0 _ s.mResponseFull.bytes
  · refine (holds_congr fun j hj _ => ?_).mpr (holds_slice ..)
    exact Function.update_of_ne (by omega) ..

/-- A string in `mResponse` is what is sent. -/
theorem output_sendGdbResponse_string {str : List UInt8} {s : Stub σ}
    (h : Holds s.mResponseFull.bytes 1 (str ++ [0])) (hstring : (0 : UInt8) ∉ str)
    (hshort : str.length < pcdMaximumAsciiStringLength) :
    ((sendGdbResponse .mResponse).run s).2.output = s.output ++ [.packet (gdbFrame str)] := by
  rw [output_sendGdbResponse_mResponse, cString_of_string h hstring hshort]

/-- The assertion about its length is on that string. -/
theorem failed_sendGdbResponse_mResponse (s : Stub σ) :
    ((sendGdbResponse .mResponse).run s).2.failedAsserts =
      if (cString s.mResponseFull.bytes pcdMaximumAsciiStringLength 1).length ≤ maxResponseSize then
        s.failedAsserts
      else s.failedAsserts ++ [.responseLength] := by
  rw [sendGdbResponse, run_bind, run_get, run_bind, assert_run]
  exact if_congr decide_eq_true_iff rfl rfl

/-! ## Error codes -/

/-- `GDB_ERROR_UNSUPPORTED`. -/
def gdbErrorUnsupported : UInt8 := 0x01
/-- `GDB_ERROR_INTERNAL`. -/
def gdbErrorInternal : UInt8 := 0x02
/-- `GDB_ERROR_UNKOWN_CMD`. -/
def gdbErrorUnkownCmd : UInt8 := 0x03
/-- `GDB_ERROR_BAD_REQUEST`. -/
def gdbErrorBadRequest : UInt8 := 0x04
/-- `GDB_ERROR_BAD_REG_INDEX`. -/
def gdbErrorBadRegIndex : UInt8 := 0x05
/-- `GDB_ERROR_BAD_MEM_ADDRESS`. -/
def gdbErrorBadMemAddress : UInt8 := 0x06
/-- `GDB_ERROR_RESPONSE_TOO_LONG`. -/
def gdbErrorResponseTooLong : UInt8 := 0x07

/-- The payload of an error reply. -/
def errorString (ErrorCode : UInt8) : List UInt8 :=
  [char 'E', hexChar (ErrorCode >>> 4), hexChar (ErrorCode &&& 0xF)]

/-- `SendGdbError`. -/
def sendGdbError (ErrorCode : UInt8) : StubM σ Unit :=
  sendGdbResponse (.text (errorString ErrorCode))

/-- `SendStopReply`: every exception type takes the default case. -/
def sendStopReply : StubM σ Unit := sendGdbResponse (.text (text "T05thread:01;"))

/-! ## Telling replies apart -/

/-- A packet has one payload. -/
theorem gdbFrame_injective {p q : List UInt8} (h : gdbFrame p = gdbFrame q) : p = q := by
  have hlen := congrArg List.length h
  simp only [gdbFrame, List.length_append, List.length_cons, List.length_nil] at hlen
  have hbody : p ++ _ = q ++ _ := List.append_cancel_left ((List.append_assoc ..).symm.trans
    (h.trans (List.append_assoc ..)))
  exact (List.append_inj hbody (by omega)).1

theorem reply_injective {before : List Output} {p q : List UInt8}
    (h : before ++ [Output.packet (gdbFrame p)] = before ++ [.packet (gdbFrame q)]) : p = q := by
  have hlast := List.append_cancel_left h
  simp only [List.cons.injEq, Output.packet.injEq, and_true] at hlast
  exact gdbFrame_injective hlast

/-- Digits of bytes are no error. -/
theorem spell_ne_errorString (bytes : List UInt8) (e : UInt8) : spell bytes ≠ errorString e := by
  intro h
  have hlen := congrArg List.length h
  rw [spell_length] at hlen
  have hthree : (errorString e).length = 3 := rfl
  omega

/-- An `OK` is no error. -/
theorem ok_ne_errorString (e : UInt8) : text "OK" ≠ errorString e := fun h =>
  absurd (congrArg List.length h) (show (2 : Nat) ≠ 3 by decide)

/-! ## Hexadecimal conversion -/

/-- `AsciiCharToUpper`. -/
def asciiCharToUpper (Char : UInt8) : UInt8 :=
  if char 'a' ≤ Char ∧ Char ≤ char 'z' then Char - 32 else Char

/-- The value `HexToByte` takes a character for, and its assertion that it is a digit. -/
def hexCharValue (Char : UInt8) : UInt8 × Bool :=
  if char '0' ≤ Char ∧ Char ≤ char '9' then (Char - char '0', true)
  else
    let Char := asciiCharToUpper Char
    (10 + Char - char 'A', decide (char 'A' ≤ Char ∧ Char ≤ char 'F'))

/-- `HexToByte`, on the two characters at an offset of the request. -/
def hexToByte (Chars : Nat) : StubM σ UInt8 := do
  let Char0 ← readRequest Chars
  assert .hexDigit (hexCharValue Char0).2
  let Char1 ← readRequest (Chars + 1)
  assert .hexDigit (hexCharValue Char1).2
  pure (((hexCharValue Char0).1 <<< 4) ||| (hexCharValue Char1).1)

/-- The loop of `ConvertResponseToHex`, from the scratch buffer into `mResponse` at `Output`.
`fuel` bounds the number of rounds. -/
def convertLoop (Output BufferLength : Nat) : (fuel Index : Nat) → StubM σ Nat
  | 0, Index => pure Index
  | fuel + 1, Index => do
      let Byte ← readScratch Index
      if Byte ≠ 0 ∧ Index * 2 + 1 < BufferLength - 1 then do
        writeResponse (Output + Index * 2) (hexChar ((Byte &&& 0xF0) >>> 4))
        writeResponse (Output + Index * 2 + 1) (hexChar (Byte &&& 0xF))
        convertLoop Output BufferLength fuel (Index + 1)
      else pure Index

/-- `ConvertResponseToHex (&mScratch[0], &mResponse[Output], BufferLength)`. -/
def convertResponseToHex (Output BufferLength : Nat) : StubM σ Unit := do
  let Index ← convertLoop Output BufferLength BufferLength 0
  writeResponse (Output + Index * 2) 0

end UefiDebugger
