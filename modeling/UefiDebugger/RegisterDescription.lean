import UefiDebugger.RegisterFields

/-!
# The register description

`ReadTargetRegisters` prints a document into `mResponse` piece by piece, and looks for an overflow
at the end: it takes a remainder of 0 for one.  `AsciiSPrint` always leaves room for its terminator,
so the remainder is at least 1 whatever is printed, and a document that does not fit is sent cut.

The invariant of the printing (`Described`) is that the buffer holds the document so far, cut to the
buffer.
-/
namespace UefiDebugger
open HexText ByteString PackedFields StateEffect

variable {σ : Type}

/-! ## The document -/

/-- The element of a register, by its entry in the table and its index there; an entry without a
name has none. -/
def registerElement (P : Platform σ) (Register : RegisterOffsetData × Nat) : List UInt8 :=
  Register.1.name.elim [] fun Name =>
    P.baseLib.asciiSPrint (text "<reg name=\"%a\" bitsize=\"%d\" type=\"%a\" regnum=\"%d\"/>")
      [.text Name, .number (Register.1.size * 8), .text Register.1.type, .number Register.2]

/-- The complete document: the header, the elements in the order of the table, and the closing
tag. -/
def registersDocument (P : Platform σ) : List UInt8 :=
  P.baseLib.asciiSPrint
      (text
        "l<?xml version=\"1.0\"?><!DOCTYPE target SYSTEM \"gdb-target.dtd\"><feature name=\"%a\">")
      [.text P.gdbTargetInfo.registersFeature] ++
    P.gRegisterOffsets.zipIdx.flatMap (registerElement P) ++
    P.baseLib.asciiSPrint (text "</feature>") []

/-- The reply to the request that took `s` to `t`: the complete document, or the error when it does
not fit. -/
def CompleteOrRefused (P : Platform σ) (s t : Stub σ) : Prop :=
  RepliedWith (registersDocument P) s t ∨
    maxResponseSize ≤ (registersDocument P).length ∧
    RepliedWith (errorString gdbErrorResponseTooLong) s t

/-! ## Printing -/

/-- A text cut to `mResponse`, with room for a terminator. -/
def cutResponse (D : List UInt8) : List UInt8 := D.take (maxResponseSize - 1)

/-- From `s` to `t` the document `D` was printed into `mResponse`, and nothing was sent. -/
structure Described (D : List UInt8) (s t : Stub σ) : Prop where
  output : t.output = s.output
  held : Holds t.mResponseFull.bytes 1 (cutResponse D)

section Printing
variable {P : Platform σ} {D : List UInt8} {s t : Stub σ}

theorem cutResponse_length (D : List UInt8) :
    (cutResponse D).length = min (maxResponseSize - 1) D.length :=
  List.length_take ..

theorem cutResponse_of_fits (h : D.length < maxResponseSize) : cutResponse D = D :=
  List.take_of_length_le (by omega)

/-- What is printed behind a text is cut to what the text leaves. -/
theorem cutResponse_append (D Text : List UInt8) :
    cutResponse (D ++ Text) = cutResponse D ++
    Text.take (maxResponseSize - (cutResponse D).length - 1) := by
  have hroom : maxResponseSize - (cutResponse D).length - 1 = maxResponseSize - 1 - D.length := by
    rw [cutResponse_length]
    omega
  rw [cutResponse, List.take_append, hroom]
  rfl

theorem printResponse_filled (cs : List UInt8) (End : Nat) (s : Stub σ) :
    Filled End cs s ((printResponse End cs).run s).2 := by
  induction cs generalizing End s with
  | nil => exact filled_nil End s
  | cons c cs ih => exact (filled_writeResponse End c s).append (ih (End + 1) _)

/-- **One print**: the text is appended, cut to the buffer and terminated. -/
theorem asciiSPrintResponse_described {End Remaining : Nat} (Format : String) (args : List PrintArg)
    (h : Described D s t) (hend : End = (cutResponse D).length)
    (hroom : Remaining = maxResponseSize - End) :
    let D' := D ++ P.baseLib.asciiSPrint (text Format) args
    let r := (asciiSPrintResponse P End Remaining Format args).run t
    End + r.1 = (cutResponse D').length ∧ Described D' s r.2 ∧
    Holds r.2.mResponseFull.bytes 1 (cutResponse D' ++ [0]) := by
  intro D' r
  set Text := (P.baseLib.asciiSPrint (text Format) args).take (Remaining - 1) with hText
  have hcut : cutResponse D' = cutResponse D ++ Text := by
    rw [cutResponse_append, hText, hroom, hend]
  have hpositive : Remaining ≠ 0 := by
    have hlength := cutResponse_length D
    have hsize : 0 < maxResponseSize := by decide
    omega
  have hrun : r = (Text.length, ((printResponse End (Text ++ [0])).run t).2) := by
    show (asciiSPrintResponse P End Remaining Format args).run t = _
    rw [asciiSPrintResponse, if_neg hpositive]
    rfl
  have hfilled := printResponse_filled (Text ++ [0]) End t
  -- the print starts behind what is there, on the terminator of the print before
  have hfront : Holds r.2.mResponseFull.bytes 1 (cutResponse D) := by
    rw [hrun, hfilled.bytes]
    exact (holds_congr fun j _ hj => store_of_lt (by omega)).mpr h.held
  have hback : Holds r.2.mResponseFull.bytes (1 + End) (Text ++ [0]) := by
    rw [hrun, hfilled.bytes]
    exact holds_store ..
  have hheld : Holds r.2.mResponseFull.bytes 1 (cutResponse D' ++ [0]) := by
    rw [hcut, List.append_assoc, holds_append, ← hend]
    exact ⟨hfront, hback⟩
  refine ⟨?_, ⟨?_, (holds_append.mp hheld).1⟩, hheld⟩
  · rw [hrun, hcut, List.length_append, hend]
  · rw [hrun]
    have hout : ((printResponse End (Text ++ [0])).run t).2.output = t.output := by
      rw [hfilled.same]
    exact hout.trans h.output

/-- **The loop**: the elements of the registers are appended. -/
theorem printRegisters_described (rs : List RegisterOffsetData) {n End Remaining : Nat}
    (h : Described D s t) (hend : End = (cutResponse D).length)
    (hroom : Remaining = maxResponseSize - End) :
    let D' := D ++ (rs.zipIdx n).flatMap (registerElement P)
    let r := (printRegisters P rs n End Remaining).run t
    r.1 = ((cutResponse D').length, maxResponseSize - (cutResponse D').length) ∧
    Described D' s r.2 := by
  induction rs generalizing n End Remaining D t with
  | nil =>
    intro D' r
    have hsame : D' = D := List.append_nil D
    rw [hsame, ← hend, ← hroom]
    exact ⟨rfl, h⟩
  | cons Register rs ih =>
    rw [List.zipIdx_cons, List.flatMap_cons, ← List.append_assoc, printRegisters]
    cases hname : Register.name with
    | none =>
      have helement : registerElement P (Register, n) = [] := by
        rw [registerElement, hname, Option.elim_none]
      rw [helement, List.append_nil]
      exact ih h hend hroom
    | some Name =>
      obtain ⟨hnext, hdescribed, -⟩ := asciiSPrintResponse_described (P := P)
        "<reg name=\"%a\" bitsize=\"%d\" type=\"%a\" regnum=\"%d\"/>"
        [.text Name, .number (Register.size * 8), .text Register.type, .number n] h hend hroom
      have helement : registerElement P (Register, n) =
          P.baseLib.asciiSPrint (text "<reg name=\"%a\" bitsize=\"%d\" type=\"%a\" regnum=\"%d\"/>")
            [.text Name, .number (Register.size * 8), .text Register.type, .number n] := by
        rw [registerElement, hname, Option.elim_some]
      rw [helement]
      exact ih hdescribed hnext (by omega)

/-- **The end**: the remainder is not 0, and what is in the buffer is sent. -/
theorem closing_replied {End Remaining : Nat} (h : Described D s t)
    (hend : End = (cutResponse D).length) (hroom : Remaining = maxResponseSize - End) :
    RepliedWith
    ((cutResponse (D ++ P.baseLib.asciiSPrint (text "</feature>") [])).takeWhile (· ≠ 0)) s
      ((do
        let Written ← asciiSPrintResponse P End Remaining "</feature>" []
        if Remaining - Written = 0 then sendGdbError gdbErrorResponseTooLong
        else sendGdbResponse .mResponse : StubM σ Unit).run t).2 := by
  obtain ⟨hclosed, hdescribed, hheld⟩ :=
    asciiSPrintResponse_described (P := P) "</feature>" [] h hend hroom
  rw [run_bind, run_ite]
  set u := (asciiSPrintResponse P End Remaining "</feature>" []).run t with hu
  set D' := D ++ P.baseLib.asciiSPrint (text "</feature>") [] with hD'
  have hlength : (cutResponse D').length < maxResponseSize := by
    rw [cutResponse_length]
    have hsize : 0 < maxResponseSize := by decide
    omega
  have hshort : (cutResponse D').length < pcdMaximumAsciiStringLength := hlength.trans (by decide)
  rw [if_neg (by omega), RepliedWith, output_sendGdbResponse_mResponse,
    cString_of_holds hheld hshort, hdescribed.output]

/-- **The document is sent, cut to the buffer**, up to the first NUL. -/
theorem readTargetRegisters_replied (P : Platform σ) (s : Stub σ) :
    RepliedWith ((cutResponse (registersDocument P)).takeWhile (· ≠ 0)) s
    ((readTargetRegisters P).run s).2 := by
  have hnothing : Described [] s s := ⟨rfl, trivial⟩
  obtain ⟨hheader, hdescribed, -⟩ := asciiSPrintResponse_described (P := P)
    "l<?xml version=\"1.0\"?><!DOCTYPE target SYSTEM \"gdb-target.dtd\"><feature name=\"%a\">"
    [.text P.gdbTargetInfo.registersFeature] hnothing (show 0 = (cutResponse []).length from rfl)
    (Nat.sub_zero _).symm
  rw [Nat.zero_add] at hheader
  obtain ⟨hregisters, hlisted⟩ :=
    printRegisters_described P.gRegisterOffsets (n := 0) hdescribed hheader rfl
  rw [readTargetRegisters, run_bind, run_bind, hregisters]
  exact closing_replied hlisted rfl rfl

end Printing

/-- **When the register description is complete or refused**: when it fits, and then it is complete.
What is printed of it is assumed to be a string. -/
theorem register_description_complete_iff (P : Platform σ)
    (hstring : (0 : UInt8) ∉ registersDocument P) (s : Stub σ) :
    CompleteOrRefused P s ((readTargetRegisters P).run s).2 ↔
    (registersDocument P).length < maxResponseSize := by
  have hreplied := readTargetRegisters_replied P s
  have hcut : (0 : UInt8) ∉ cutResponse (registersDocument P) :=
    fun hmem => hstring (List.mem_of_mem_take hmem)
  rw [takeWhile_ne hcut] at hreplied
  have hsize : 4 < maxResponseSize := by decide
  constructor
  · rintro (hcomplete | ⟨hlong, hrefused⟩)
    · have hcut := congrArg List.length (reply_injective (hreplied.symm.trans hcomplete))
      rw [cutResponse_length] at hcut
      omega
    · have hcut := congrArg List.length (reply_injective (hreplied.symm.trans hrefused))
      have hthree : (errorString gdbErrorResponseTooLong).length = 3 := rfl
      rw [cutResponse_length] at hcut
      omega
  · intro hfits
    rw [cutResponse_of_fits hfits] at hreplied
    exact Or.inl hreplied

/-! ## Documents as the documented printer makes them -/

/-- A platform with these registers. -/
def tablePlatform (rs : List RegisterOffsetData) : Platform FlatMachine :=
  { flatPlatform with gRegisterOffsets := rs }

/-- What the documented printer makes of a register. -/
theorem formatText_element (Name type : List UInt8) (bits RegNumber : Nat) :
    formatText (text "<reg name=\"%a\" bitsize=\"%d\" type=\"%a\" regnum=\"%d\"/>")
        [.text Name, .number bits, .text type, .number RegNumber] =
      text "<reg name=\"" ++ (Name ++ (text "\" bitsize=\"" ++ ((Nat.toDigits 10 bits).map char ++
        (text "\" type=\"" ++
          (type ++
          (text "\" regnum=\"" ++ ((Nat.toDigits 10 RegNumber).map char ++ text "\"/>"))))))) := by
  rw [text_ofList, text_ofList, text_ofList, text_ofList, text_ofList, text_ofList]
  rfl

/-- A register without a name, and one with. -/
def twoRegisters : List RegisterOffsetData :=
  [⟨0, 8, none, text "int64"⟩, ⟨8, 8, some (text "rax"), text "int64"⟩]

theorem twoRegisters_elements :
    twoRegisters.zipIdx.flatMap (registerElement (tablePlatform twoRegisters)) =
    formatText (text "<reg name=\"%a\" bitsize=\"%d\" type=\"%a\" regnum=\"%d\"/>")
    [.text (text "rax"), .number 64, .text (text "int64"), .number 1] := List.append_nil _

theorem register_description_complete_iff_two :
    CompleteOrRefused (tablePlatform twoRegisters) (Stub.initial ⟨fun _ => 0, []⟩)
      ((readTargetRegisters (tablePlatform twoRegisters)).run
        (Stub.initial ⟨fun _ => 0, []⟩)).2 := by
  have hdocument : registersDocument (tablePlatform twoRegisters) =
      formatText
      (text
        "l<?xml version=\"1.0\"?><!DOCTYPE target SYSTEM \"gdb-target.dtd\"><feature name=\"%a\">")
        [.text (text "org.gnu.gdb.i386.core")] ++
        formatText (text "<reg name=\"%a\" bitsize=\"%d\" type=\"%a\" regnum=\"%d\"/>")
          [.text (text "rax"), .number 64, .text (text "int64"), .number 1] ++
          formatText (text "</feature>") [] := by
    rw [← twoRegisters_elements]
    rfl
  rw [formatText_element, text_ofList, text_ofList, text_ofList, text_ofList, text_ofList,
    text_ofList, text_ofList, text_ofList, text_ofList, text_ofList] at hdocument
  refine (register_description_complete_iff _ ?_ _).mpr ?_
  · rw [hdocument]
    decide +kernel
  · rw [hdocument]
    decide +kernel

/-- Elements take more than forty characters each. -/
theorem elements_length (rs0 rs : List RegisterOffsetData) (n : Nat)
    (hnamed : ∀ r ∈ rs, r.name ≠ none) :
    41 * rs.length ≤ ((rs.zipIdx n).flatMap (registerElement (tablePlatform rs0))).length := by
  induction rs generalizing n with
  | nil => exact Nat.zero_le _
  | cons r rs ih =>
    have hrest := ih (n + 1) fun r' hr' => hnamed r' (List.mem_cons_of_mem r hr')
    obtain ⟨Name, hname⟩ := Option.ne_none_iff_exists'.mp (hnamed r List.mem_cons_self)
    have helement : registerElement (tablePlatform rs0) (r, n) =
        formatText (text "<reg name=\"%a\" bitsize=\"%d\" type=\"%a\" regnum=\"%d\"/>")
          [.text Name, .number (r.size * 8), .text r.type, .number n] := by
      rw [registerElement, hname, Option.elim_some]
      rfl
    have hlong : 41 ≤ (registerElement (tablePlatform rs0) (r, n)).length := by
      rw [helement, formatText_element, text_ofList, text_ofList, text_ofList, text_ofList,
        text_ofList]
      simp only [List.length_append, List.length_map, List.length_cons, List.length_nil]
      omega
    rw [List.zipIdx_cons, List.flatMap_cons, List.length_append, List.length_cons]
    omega

/-- A hundred sixty-four-bit registers, `r0` to `r99`. -/
def hundredRegisters : List RegisterOffsetData :=
  (List.range 100).map fun i =>
  ⟨8 * i, 8, some (char 'r' :: (Nat.toDigits 10 i).map char), text "int64"⟩

/-- The description of a hundred registers is sent cut. -/
theorem long_description_cut :
    maxResponseSize ≤ (registersDocument (tablePlatform hundredRegisters)).length ∧
      ¬ CompleteOrRefused (tablePlatform hundredRegisters) (Stub.initial ⟨fun _ => 0, []⟩)
        ((readTargetRegisters (tablePlatform hundredRegisters)).run
          (Stub.initial ⟨fun _ => 0, []⟩)).2 := by
  have hnamed : ∀ r ∈ hundredRegisters, r.name ≠ none := by
    intro r hr
    obtain ⟨i, -, rfl⟩ := List.mem_map.mp hr
    exact Option.some_ne_none _
  have helements := elements_length hundredRegisters hundredRegisters 0 hnamed
  have hhundred : hundredRegisters.length = 100 := by
    rw [hundredRegisters, List.length_map, List.length_range]
  have hlong : maxResponseSize ≤ (registersDocument (tablePlatform hundredRegisters)).length := by
    have hsize : maxResponseSize = 0x1000 := rfl
    have hregisters : (tablePlatform hundredRegisters).gRegisterOffsets = hundredRegisters := rfl
    rw [registersDocument, List.length_append, List.length_append, hregisters]
    omega
  have hreplied :=
    readTargetRegisters_replied (tablePlatform hundredRegisters) (Stub.initial ⟨fun _ => 0, []⟩)
  refine ⟨hlong, ?_⟩
  rintro (hcomplete | ⟨-, hrefused⟩)
  · have hcut := congrArg List.length (reply_injective (hreplied.symm.trans hcomplete))
    have hshort := (List.takeWhile_sublist (fun c : UInt8 => decide (c ≠ 0))
      (l := cutResponse (registersDocument (tablePlatform hundredRegisters)))).length_le
    rw [hcut, cutResponse_length] at hshort
    have hsize : 0 < maxResponseSize := by decide
    omega
  · have hfirst : ∃ rest, registersDocument (tablePlatform hundredRegisters) = char 'l' ::
        rest := by
      rw [registersDocument, text_ofList]
      exact ⟨_, rfl⟩
    obtain ⟨rest, hrest⟩ := hfirst
    have hsame := reply_injective (hreplied.symm.trans hrefused)
    rw [hrest] at hsame
    have hhead : char 'l' = char 'E' := (List.cons.inj hsame).1
    exact absurd hhead (by decide)

end UefiDebugger
