import UefiDebugger.RegisterFields

/-!
# Console text

`ConvertResponseToHex` puts the digits of what is in `mScratch` into `mResponse` and keeps room for
their terminator, so that a buffer of `BufferLength` takes `(BufferLength - 1) / 2` bytes, for even
and odd lengths.  `ProcessMonitorCmd` prints at most `SCRATCH_SIZE - 1` characters into `mScratch`,
for which `mResponse` is large enough.
-/
namespace UefiDebugger
open HexText ByteString StateEffect

variable {σ : Type}

/-- How many bytes find room in a buffer, as digits that are terminated. -/
def hexRoom (BufferLength : Nat) : Nat := (BufferLength - 1) / 2

/-- `digits` is read pair by pair, by `HexToByte`, as `bytes`. -/
structure Encodes (digits bytes : List UInt8) : Prop where
  digit : ∀ c ∈ digits, isDigit c = true
  pairs : digits.length = 2 * bytes.length
  decoded : decodeHex digits = bytes

theorem encodes_spell (bytes : List UInt8) : Encodes (spell bytes) bytes where
  digit := fun _ hc => isDigit_of_mem_spell hc
  pairs := spell_length bytes
  decoded := by rw [decodeHex_digits fun _ hc => isDigit_of_mem_spell hc, readBytes_spell]

/-! ## The conversion -/

section Conversion

/-- From `s` to `t` the characters `cs` were put into `mResponse` at `Output`.  Nothing else was
written, and `mScratch` only read. -/
structure Converted (Output : Nat) (cs : List UInt8) (s t : Stub σ) : Prop where
  same : t = { s with
    mScratch := t.mScratch
    mResponseFull := t.mResponseFull
    mResponseTop := t.mResponseTop }
  kept : t.mScratch.bytes = s.mScratch.bytes
  bytes : t.mResponseFull.bytes = store s.mResponseFull.bytes (1 + Output) cs
  top : t.mResponseTop ≤ max s.mResponseTop (Output + cs.length)

theorem converted_readScratch (o i : Nat) (s : Stub σ) :
    Converted o [] s ((readScratch i).run s).2 :=
  ⟨rfl, rfl, rfl, Nat.le_max_left ..⟩

theorem converted_writeResponse (o : Nat) (c : UInt8) (s : Stub σ) :
    Converted o [c] s ((writeResponse o c).run s).2 := ⟨rfl, rfl, rfl, Nat.le_refl _⟩

theorem Converted.append {o : Nat} {as bs : List UInt8} {s t u : Stub σ} (h : Converted o as s t)
    (h' : Converted (o + as.length) bs t u) : Converted o (as ++ bs) s u where
  same := by
    rw [h'.same, h.same]
  kept := h'.kept.trans h.kept
  bytes := by
    rw [h'.bytes, h.bytes, store_append, Nat.add_assoc]
  top := by
    have hfirst := h.top
    have hsecond := h'.top
    rw [List.length_append]
    omega

theorem Converted.output_eq {o : Nat} {cs : List UInt8} {s t : Stub σ} (h : Converted o cs s t) :
    t.output = s.output := by
  rw [h.same]

/-- The digits of one byte. -/
theorem converted_byte (o : Nat) (b : UInt8) (s : Stub σ) :
    Converted o (spellByte b) s ((writeResponse (o + 1) (hexChar (b &&& 0xF))).run
      ((writeResponse o (hexChar ((b &&& 0xF0) >>> 4))).run s).2).2 := by
  rw [hexChar_high, hexChar_low]
  exact (converted_writeResponse o _ s).append (converted_writeResponse (o + 1) _ _)

/-- The loop goes on while there is room for two digits and a terminator. -/
theorem room_iff (i BufferLength : Nat) : i * 2 + 1 < BufferLength - 1 ↔
    i < hexRoom BufferLength := by
  unfold hexRoom
  omega

/-- **The loop converts what is left of the text**, or what there is room for. -/
theorem convertLoop_converted (Output BufferLength : Nat) :
    ∀ (fuel i : Nat) (Rest : List UInt8) (s : Stub σ), Holds s.mScratch.bytes i (Rest ++ [0]) →
    (0 : UInt8) ∉ Rest → hexRoom BufferLength - i ≤ fuel →
    ((convertLoop Output BufferLength fuel i).run s).1 = i +
    (Rest.take (hexRoom BufferLength - i)).length ∧
      Converted (Output + i * 2) (spell (Rest.take (hexRoom BufferLength - i))) s
        ((convertLoop Output BufferLength fuel i).run s).2
  | 0, i, Rest, s, _, _, hfuel => by
      have hfull : hexRoom BufferLength - i = 0 := Nat.le_zero.mp hfuel
      rw [hfull]
      exact ⟨rfl, rfl, rfl, rfl, Nat.le_max_left ..⟩
  | fuel + 1, i, [], s, hheld, _, _ => by
      have hend : s.mScratch.bytes i = 0 := hheld.1
      have hbyte : ((readScratch i).run s).1 = 0 := hend
      rw [convertLoop, run_bind, hbyte, if_neg fun hgoes => hgoes.1 rfl, List.take_nil]
      exact ⟨rfl, converted_readScratch _ i s⟩
  | fuel + 1, i, b :: Rest, s, hheld, hstring, hfuel => by
      have hbyte : ((readScratch i).run s).1 = b := hheld.1
      have hnonzero : b ≠ 0 := fun h0 => hstring (h0 ▸ List.mem_cons_self ..)
      have hread := converted_readScratch (Output + i * 2) i s
      rw [convertLoop, run_bind, hbyte]
      by_cases hroom : i < hexRoom BufferLength
      · obtain ⟨n, hn⟩ : ∃ n, hexRoom BufferLength - i = n + 1 :=
          ⟨hexRoom BufferLength - i - 1, by omega⟩
        have hleft : hexRoom BufferLength - (i + 1) = n := by omega
        have hround := hread.append (converted_byte (Output + i * 2) b _)
        rw [if_pos ⟨hnonzero, (room_iff ..).mpr hroom⟩, hn, run_bind, run_bind]
        obtain ⟨hend, hrest⟩ := convertLoop_converted Output BufferLength fuel (i + 1) Rest _
          (by rw [hround.kept]; exact hheld.2) (fun hmem => hstring (List.mem_cons_of_mem _ hmem))
          (by omega)
        rw [hleft] at hend hrest
        rw [List.take_succ_cons]
        refine ⟨hend.trans ?_, ?_⟩
        · rw [List.length_cons]
          omega
        · rw [show Output + (i + 1) * 2 = Output + i * 2 + 2 by omega] at hrest
          exact hround.append hrest
      · have hfull : hexRoom BufferLength - i = 0 := by omega
        rw [if_neg fun hgoes => hroom ((room_iff ..).mp hgoes.2), hfull]
        exact ⟨rfl, hread⟩

/-- **What `ConvertResponseToHex` writes**: the digits of the text and a terminator. -/
theorem convertResponseToHex_converted (Output BufferLength : Nat) {Response : List UInt8}
    {s : Stub σ} (hheld : Holds s.mScratch.bytes 0 (Response ++ [0]))
    (hstring : (0 : UInt8) ∉ Response) :
    Converted Output (spell (Response.take (hexRoom BufferLength)) ++ [0]) s
    ((convertResponseToHex Output BufferLength).run s).2 := by
  have hfuel : hexRoom BufferLength - 0 ≤ BufferLength := by
    unfold hexRoom
    omega
  obtain ⟨hend, hdigits⟩ :=
    convertLoop_converted Output BufferLength BufferLength 0 Response s hheld hstring hfuel
  rw [Nat.sub_zero] at hend hdigits
  have hat : Output + 0 * 2 + (spell (Response.take (hexRoom BufferLength))).length =
      Output + (0 + (Response.take (hexRoom BufferLength)).length) * 2 := by
    rw [spell_length]
    omega
  rw [convertResponseToHex, run_bind, hend, ← hat]
  exact hdigits.append (converted_writeResponse _ 0 _)

end Conversion

/-! ## Monitor commands -/

section Monitor
variable (P : Platform σ)

/-- A string that was printed into `mScratch`, cut to its size. -/
structure ScratchText (Text : List UInt8) (s : Stub σ) : Prop where
  held : Holds s.mScratch.bytes 0 (Text ++ [0])
  nonzero : (0 : UInt8) ∉ Text
  fits : Text.length ≤ scratchSize - 1

/-- There is one. -/
def HasPrinted (s : Stub σ) : Prop := ∃ Text, ScratchText Text s

theorem printScratch_printed (Text : List UInt8) :
    Ensures anyState (printScratch Text : StubM σ Unit) fun _ => HasPrinted := by
  intro s _
  set cut := Text.take (scratchSize - 1) with hcut
  have hlen : cut.length ≤ scratchSize - 1 := by
    rw [hcut, List.length_take]
    exact Nat.min_le_left ..
  have hstored : Holds ((printScratch Text).run s).2.mScratch.bytes 0 (cut ++ [0]) := by
    show Holds (s.mScratch.writeAll 0 (cut ++ [0])).bytes 0 _
    rw [ByteBuffer.writeAll_bytes]
    exact holds_store ..
  have hstring := stringAt_of_holds hstored (Nat.lt_of_le_of_lt hlen (by decide))
  exact ⟨_, hstring.held, hstring.nonzero, (List.takeWhile_sublist _).length_le.trans hlen⟩

/-- What was done before the last print does not matter. -/
theorem printed_after {α : Type} {m : StubM σ α} {f : α → StubM σ Unit}
    (hf : ∀ a, Ensures anyState (f a) fun _ => HasPrinted) : Ensures anyState (m >>= f) fun _ =>
    HasPrinted :=
  fun _ _ => hf _ _ trivial

/-- Every case of the `switch` ends in a print. -/
theorem monitorSwitch_printed (Command : List UInt8) :
    Ensures anyState (monitorSwitch P Command) fun _ => HasPrinted := by
  have hprint : ∀ Text, Ensures anyState (printScratch Text : StubM σ Unit) fun _ => HasPrinted :=
    printScratch_printed
  refine printed_after fun _ => ?_
  refine ensures_ite (fun _ => hprint _) fun _ => ?_
  refine ensures_ite (fun _ => printed_after fun _ => hprint _) fun _ => ?_
  refine ensures_ite (fun _ => hprint _) fun _ => ?_
  refine ensures_ite (fun _ => hprint _) fun _ => ?_
  refine ensures_ite (fun _ => printed_after fun _ => hprint _) fun _ => ?_
  refine ensures_ite (fun _ => hprint _) fun _ => ?_
  refine ensures_ite (fun _ => printed_after fun _ => hprint _) fun _ => ?_
  refine ensures_ite (fun _ => printed_after fun _ => ?_) fun _ => hprint _
  exact ensures_ite (fun _ => hprint _) fun _ => hprint _

/-- The command at `CommandHex` is one that `ProcessMonitorCmd` accepts. -/
def AcceptsMonitor (CommandHex : Nat) (s : Stub σ) : Prop :=
  ((asciiStrLen CommandHex).run s).1 % 2 = 0 ∧
  ((asciiStrLen CommandHex).run s).1 / 2 < monitorCommandSize

/-- `ProcessMonitorCmd` on an accepted command, to the end of its `switch`. -/
def printMonitor (CommandHex : Nat) : StubM σ Unit := do
  let CommandLen ← asciiStrLen CommandHex
  let Command ← decodeMonitorCommand (CommandLen / 2) CommandHex
  writeScratch 0 0
  monitorSwitch P (Command.takeWhile (· ≠ 0))

theorem processMonitorCmd_accepted {CommandHex : Nat} {s : Stub σ}
    (h : AcceptsMonitor CommandHex s) :
    (processMonitorCmd P CommandHex).run s = finishMonitor.run
    ((printMonitor P CommandHex).run s).2 := by
  obtain ⟨heven, hshort⟩ := h
  rw [processMonitorCmd_eq, run_bind, if_neg (by omega)]
  simp only [acceptedMonitor, printMonitor, run_bind]

theorem printMonitor_printed (CommandHex : Nat) (s : Stub σ) :
    HasPrinted ((printMonitor P CommandHex).run s).2 :=
  monitorSwitch_printed P _ _ trivial

/-- Nothing is sent before the end. -/
theorem output_printMonitor (CommandHex : Nat) (s : Stub σ) :
    ((printMonitor P CommandHex).run s).2.output = s.output := by
  have hquiet : Keeps Stub.spoken (printMonitor P CommandHex) :=
    keeps_bind (spoken_asciiStrLen _) fun _ => keeps_bind (spoken_decodeMonitorCommand _ _) fun _ =>
      keeps_bind (keeps_modify fun _ => rfl) fun _ => spoken_monitorSwitch P _
  exact congrArg (fun spoken => spoken.1.1) (hquiet s)

/-- **The console packet carries the whole of what was printed.** -/
theorem sendConsole_whole {Text : List UInt8} {s : Stub σ} (h : ScratchText Text s) :
    ((sendConsole.run s).2).output = s.output ++ [.packet (gdbFrame (char 'O' :: spell Text))] := by
  have hroom : Text.length ≤ hexRoom (maxResponseSize - 1) := h.fits.trans (by decide)
  set t := ((writeResponse 0 (char 'O')).run s).2 with ht
  have hconverted :=
    convertResponseToHex_converted 1 (maxResponseSize - 1) (s := t) h.held h.nonzero
  rw [List.take_of_length_le hroom] at hconverted
  set u := ((convertResponseToHex 1 (maxResponseSize - 1)).run t).2 with hu
  have hmark : u.mResponseFull.bytes 1 = char 'O' := by
    rw [hconverted.bytes, store_of_lt (by omega)]
    exact Function.update_self 1 _ s.mResponseFull.bytes
  have hdigits : Holds u.mResponseFull.bytes 2 (spell Text ++ [0]) := by
    rw [hconverted.bytes]
    exact holds_store ..
  have hstring : (0 : UInt8) ∉ char 'O' :: spell Text := by
    intro hzero
    rcases List.mem_cons.mp hzero with h0 | hmem
    · exact absurd h0 (by decide)
    · exact spell_ne_zero Text hmem
  have hshort : (char 'O' :: spell Text).length < pcdMaximumAsciiStringLength := by
    have hfits := h.fits
    have hsizes : 2 * (scratchSize - 1) + 1 < pcdMaximumAsciiStringLength := by decide
    rw [List.length_cons, spell_length]
    omega
  have hheld : Holds u.mResponseFull.bytes 1 (char 'O' :: spell Text ++ [0]) := ⟨hmark, hdigits⟩
  have hsent := output_sendGdbResponse_string hheld hstring hshort
  rw [hconverted.output_eq] at hsent
  exact hsent

end Monitor

/-- **Console text is encoded whole, or as far as there is room**: the conversion stays in its
buffer and terminates what it writes, and a monitor command sends all that it printed. -/
theorem console_text_encoded :
    (∀ (Output BufferLength : Nat) (Response : List UInt8) (s : Stub σ), 1 ≤ BufferLength →
      (0 : UInt8) ∉ Response → Holds s.mScratch.bytes 0 (Response ++ [0]) →
        ∃ digits,
        Converted Output (digits ++ [0]) s ((convertResponseToHex Output BufferLength).run s).2 ∧
          (digits ++ [0]).length ≤ BufferLength ∧
          Encodes digits (Response.take (min Response.length ((BufferLength - 1) / 2)))) ∧
    ∀ (P : Platform σ) (CommandHex : Nat) (s : Stub σ), AcceptsMonitor CommandHex s →
      ∃ Text digits, ScratchText Text ((printMonitor P CommandHex).run s).2 ∧ Encodes digits Text ∧
        ((processMonitorCmd P CommandHex).run s).2.output =
          s.output ++
          [.packet (gdbFrame (char 'O' :: digits)), .packet (gdbFrame (text "OK"))] := by
  refine ⟨fun Output BufferLength Response s hbuffer hstring hheld => ?_,
    fun P CommandHex s haccepts => ?_⟩
  · have htake : Response.take (min Response.length ((BufferLength - 1) / 2)) = Response.take
        (hexRoom BufferLength) := by
      rw [Nat.min_comm, ← List.take_take, List.take_length]
      rfl
    rw [htake]
    refine ⟨_, convertResponseToHex_converted Output BufferLength hheld hstring, ?_,
      encodes_spell _⟩
    rw [List.length_append, spell_length, List.length_take]
    show 2 * min ((BufferLength - 1) / 2) _ + 1 ≤ BufferLength
    omega
  · obtain ⟨Text, hprinted⟩ := printMonitor_printed P CommandHex s
    refine ⟨Text, spell Text, hprinted, encodes_spell Text, ?_⟩
    rw [processMonitorCmd_accepted P haccepts, finishMonitor, run_bind]
    have hdone :=
      output_sendGdbResponse_text (text "OK")
      (sendConsole.run ((printMonitor P CommandHex).run s).2).2
    rw [sendConsole_whole hprinted, output_printMonitor, List.append_assoc] at hdone
    exact hdone

/-- The monitor command `v` in the request, and another text in `mScratch`. -/
def helloStub : Stub FlatMachine := { Stub.initial ⟨fun _ => 0, []⟩ with
  mRequest := requestOf (text "qRcmd,76")
  mScratch := ⟨store (fun _ => 0) 0 (text "Hello" ++ [0]), 0, 0⟩ }

theorem accepts_hello : AcceptsMonitor 7 helloStub := by
  have hheld : Holds helloStub.mRequest.bytes 7 (text "76" ++ [0]) := ⟨rfl, rfl, rfl, trivial⟩
  have hlen : ((asciiStrLen 7).run helloStub).1 = 2 :=
    strLen_of_string hheld (by decide) (by decide)
  rw [AcceptsMonitor, hlen]
  decide

/-- A buffer of eight bytes takes three characters. -/
theorem console_text_encoded_hello :
    (∃ digits, Converted 1 (digits ++ [0]) helloStub ((convertResponseToHex 1 8).run helloStub).2 ∧
        (digits ++ [0]).length ≤ 8 ∧ Encodes digits (text "Hel")) ∧
      ∃ Text digits, ScratchText Text ((printMonitor flatPlatform 7).run helloStub).2 ∧
      Encodes digits Text ∧
        ((processMonitorCmd flatPlatform 7).run helloStub).2.output =
          helloStub.output ++
          [.packet (gdbFrame (char 'O' :: digits)), .packet (gdbFrame (text "OK"))] :=
  ⟨console_text_encoded.1 1 8 (text "Hello") helloStub (by decide) (by decide) (holds_store ..),
    console_text_encoded.2 flatPlatform 7 helloStub accepts_hello⟩

end UefiDebugger
