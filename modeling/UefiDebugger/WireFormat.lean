import UefiDebugger.Resends
import UefiDebugger.PacketDecoding
import UefiDebugger.SelfDelimiting
import UefiDebugger.RegisterTables

/-!
# What goes over the wire

The bytes given to `DebugTransportWrite` are a stream of acknowledgements and frames.  The frames
end at their first `#`, so that the stream has one reading; and nothing in their payloads means
anything to the protocol, because every reply is made of hexadecimal digits, of fixed strings, or of
the printed target description.
-/
namespace UefiDebugger
open HexText ByteString StateEffect SelfDelimiting

variable {σ : Type}

/-! ## The protocol's view -/

/-- What a stream is made of. -/
inductive Item where
  | plus
  | minus
  | frame (payload : List UInt8)
  deriving DecidableEq

/-- Two lower-case digits of the sum of a payload. -/
def checksumDigits (payload : List UInt8) : List UInt8 :=
  spellByte (UInt8.ofNat ((payload.map UInt8.toNat).sum % 256))

/-- An item, spelled. -/
def Item.bytes : Item → List UInt8
  | .plus => [char '+']
  | .minus => [char '-']
  | .frame payload => char '$' :: (payload ++ char '#' :: checksumDigits payload)

/-- A character that means nothing but itself in a payload. -/
def Plain (c : UInt8) : Prop := c ≠ char '#' ∧ c ≠ char '$' ∧ c ≠ char '}' ∧ c ≠ char '*'

instance (c : UInt8) : Decidable (Plain c) := by
  unfold Plain
  infer_instance

/-- An item as it may be sent. -/
def Item.WellFormed : Item → Prop
  | .frame payload => (∀ c ∈ payload, Plain c) ∧ payload.length ≤ maxResponseSize
  | _ => True

/-- The payloads of an item end at its `#`. -/
def Item.Clean : Item → Prop
  | .frame payload => char '#' ∉ payload
  | _ => True

theorem Item.WellFormed.clean {item : Item} (h : item.WellFormed) : item.Clean := by
  cases item with
  | frame payload => exact fun hmem => (h.1 _ hmem).1 rfl
  | plus => trivial
  | minus => trivial

/-- The items of a stream are delimited. -/
theorem code_items : Code Item.bytes Item.Clean := by
  refine ⟨fun item _ => by cases item <;> exact List.cons_ne_nil _ _, ?_⟩
  intro a b ha hb xs ys heq
  cases a with
  | plus =>
    cases b with
    | plus => exact ⟨rfl, (List.cons.inj heq).2⟩
    | minus => exact absurd (List.cons.inj heq).1 (by decide)
    | frame q => exact absurd (List.cons.inj heq).1 (by decide)
  | minus =>
    cases b with
    | plus => exact absurd (List.cons.inj heq).1 (by decide)
    | minus => exact ⟨rfl, (List.cons.inj heq).2⟩
    | frame q => exact absurd (List.cons.inj heq).1 (by decide)
  | frame p =>
    cases b with
    | plus => exact absurd (List.cons.inj heq).1 (by decide)
    | minus => exact absurd (List.cons.inj heq).1 (by decide)
    | frame q =>
      have hbody : p ++ char '#' :: (checksumDigits p ++ xs) = q ++ char '#' ::
          (checksumDigits q ++ ys) := by
        have h : (p ++ char '#' :: checksumDigits p) ++
            xs = (q ++ char '#' :: checksumDigits q) ++ ys :=
          (List.cons.inj heq).2
        rwa [List.append_assoc, List.append_assoc] at h
      obtain ⟨rfl, hrest⟩ := separator_inj ha hb hbody
      exact ⟨rfl, List.append_cancel_left hrest⟩

/-! ## The stub's view -/

/-- The bytes an output puts on the wire. -/
def Output.wire : Output → List UInt8
  | .ack true => [char '+']
  | .ack false => [char '-']
  | .packet bs => bs
  | .command _ => []

/-- The bytes passed to `DebugTransportWrite`. -/
def wire (outs : List Output) : List UInt8 := outs.flatMap Output.wire

/-- The string that a call of `SendGdbResponse` is passed. -/
def Response.string? (s : Stub σ) : Response → Option (List UInt8)
  | .resend => none
  | .text str => some str
  | .mResponse => some (cString s.mResponseFull.bytes pcdMaximumAsciiStringLength 1)

/-- The items of an output: a frame for each string passed to `SendGdbResponse`, and again for its
resends. -/
inductive Transcribes : List Output → List Item → Prop
  | nil : Transcribes [] []
  | plus {outs : List Output} {items : List Item} (rest : Transcribes outs items) :
      Transcribes (.ack true :: outs) (.plus :: items)
  | minus {outs : List Output} {items : List Item} (rest : Transcribes outs items) :
      Transcribes (.ack false :: outs) (.minus :: items)
  | frame {outs : List Output} {items : List Item} (str : List UInt8)
      (rest : Transcribes outs items) :
      Transcribes (.packet (gdbFrame str) :: outs) (.frame str :: items)
  | command {outs : List Output} {items : List Item} (payload : List UInt8)
      (rest : Transcribes outs items) : Transcribes (.command payload :: outs) items

theorem hexChar_digits : ∀ b : UInt8, [hexChar (b >>> 4), hexChar (b &&& 0xF)] = spellByte b :=
  forall_byte (by decide +kernel)

/-- `SendGdbResponse` frames a payload as the protocol does. -/
theorem gdbFrame_eq (payload : List UInt8) : gdbFrame payload = (Item.frame payload).bytes := by
  have hsum : UInt8.ofNat ((payload.map UInt8.toNat).sum % 256) = calculateSum8 payload := by
    rw [← calculateSum8_toNat, UInt8.ofNat_toNat]
  rw [Item.bytes, checksumDigits, hsum, ← hexChar_digits, gdbFrame]
  simp

theorem Transcribes.wire_eq {outs : List Output} {items : List Item} (h : Transcribes outs items) :
    wire outs = items.flatMap Item.bytes := by
  induction h with
  | nil => rfl
  | plus rest ih => exact congrArg (char '+' :: ·) ih
  | minus rest ih => exact congrArg (char '-' :: ·) ih
  | frame str rest ih =>
    rw [List.flatMap_cons, ← ih, ← gdbFrame_eq]
    rfl
  | command payload rest ih => exact ih

/-! ## Payloads -/

/-- The characters an argument can be printed with by `%a` or `%d`. -/
def PrintArg.characters : PrintArg → List UInt8
  | .text s => s
  | .number _ => HexText.text "0123456789-"

/-- `AsciiSPrint` only prints its format and its arguments, where the target description is made. -/
def PrintsArguments (P : Platform σ) : Prop :=
  ∀ Format args, DescriptionPrint P Format args → ∀ c ∈ P.baseLib.asciiSPrint (text Format) args,
    c ∈ text Format ∨ c ∈ args.flatMap PrintArg.characters

/-- The names and types in the tables of the architecture are plain. -/
structure PlainTexts (P : Platform σ) : Prop where
  names : ∀ r ∈ P.gRegisterOffsets, ∀ Name, r.name = some Name → ∀ c ∈ Name, Plain c
  types : ∀ r ∈ P.gRegisterOffsets, ∀ c ∈ r.type, Plain c
  targetArch : ∀ c ∈ P.gdbTargetInfo.targetArch, Plain c
  registersFeature : ∀ c ∈ P.gdbTargetInfo.registersFeature, Plain c

section Payloads
variable {P : Platform σ} {str : List UInt8}

theorem plain_of_all {bs : List UInt8} (h : bs.all (fun c => decide (Plain c)) = true) :
    ∀ c ∈ bs, Plain c :=
  fun c hc => of_decide_eq_true (List.all_eq_true.mp h c hc)

/-- The characters of a literal, without decoding it. -/
theorem plain_text {cs : List Char} (h : (cs.map char).all (fun c => decide (Plain c)) = true) :
    ∀ c ∈ text (String.ofList cs), Plain c := by
  rw [text_ofList]
  exact plain_of_all h

theorem plain_hexChars : ∀ c ∈ hexChars, Plain c := plain_of_all (by decide)

set_option maxRecDepth 2000 in
/-- The formats and the arguments of the target description are plain. -/
theorem plain_description (hP : PlainTexts P) {Format : String} {args : List PrintArg}
    (h : DescriptionPrint P Format args) :
    (∀ c ∈ text Format, Plain c) ∧ ∀ c ∈ args.flatMap PrintArg.characters, Plain c := by
  have hnumber : ∀ c ∈ text "0123456789-", Plain c := plain_text (by decide)
  cases h with
  | target =>
    refine ⟨plain_text (by decide +kernel), fun c hc => hP.targetArch c ?_⟩
    simpa [PrintArg.characters] using hc
  | feature =>
    refine ⟨plain_text (by decide +kernel), fun c hc => hP.registersFeature c ?_⟩
    simpa [PrintArg.characters] using hc
  | close => exact ⟨plain_text (by decide +kernel), fun c hc => absurd hc List.not_mem_nil⟩
  | @register r Name RegNumber listed named =>
    refine ⟨plain_text (by decide +kernel), fun c hc => ?_⟩
    simp only [List.flatMap_cons, List.flatMap_nil, List.append_nil, PrintArg.characters,
      List.mem_append] at hc
    rcases hc with hc | hc | hc | hc
    · exact hP.names r listed Name named c hc
    · exact hnumber c hc
    · exact hP.types r listed c hc
    · exact hnumber c hc

theorem Printed.plain (hprint : PrintsArguments P) (hP : PlainTexts P) {c : UInt8}
    (h : Printed P c) : Plain c := by
  obtain ⟨Format, args, hdescription, hc⟩ := h
  obtain ⟨hformat, hargs⟩ := plain_description hP hdescription
  rcases hprint Format args hdescription c hc with hc | hc
  · exact hformat c hc
  · exact hargs c hc

/-- The fixed replies. -/
theorem plain_fixed (h : str ∈ fixedReplies) : (Item.frame str).WellFormed := by
  have hall : fixedReplies.all (fun str => str.all (fun c => decide (Plain c)) &&
      decide (str.length ≤ maxResponseSize)) = true := by decide +kernel
  obtain ⟨hplain, hlen⟩ := Bool.and_eq_true_iff.mp (List.all_eq_true.mp hall str h)
  exact ⟨plain_of_all hplain, of_decide_eq_true hlen⟩

/-- **Every payload is plain, and short enough.** -/
theorem Said.wellFormed (hprint : PrintsArguments P) (hP : PlainTexts P)
    (hfits : TableFits P.gRegisterOffsets) (h : Said P True str) : (Item.frame str).WellFormed := by
  rcases h with h | ⟨ds, rfl, hhex, hlen⟩
  · cases h with
    | fixed listed => exact plain_fixed listed
    | memory digits fits =>
      refine ⟨fun c hc => plain_hexChars c (digits trivial c hc), (fits trivial).trans ?_⟩
      decide
    | registers digits fits =>
      exact ⟨fun c hc => plain_hexChars c (digits c hc), fits.trans hfits.response⟩
    | description printed fits =>
      exact ⟨fun c hc => (printed c hc).plain hprint hP, Nat.le_of_lt fits⟩
  · refine ⟨fun c hc => ?_, Nat.le_of_lt hlen⟩
    rcases List.mem_cons.mp hc with rfl | hc
    · decide
    · exact plain_hexChars c (hhex c hc)

/-- The texts of a register. -/
def registerTexts (r : RegisterOffsetData) : List UInt8 := r.name.getD [] ++ r.type

/-- It is enough to look at the texts, wherever the registers are. -/
theorem plainTexts_of_tables (rs : List RegisterOffsetData)
    (htexts : P.gRegisterOffsets.map registerTexts = rs.map registerTexts)
    (hrs : (rs.flatMap registerTexts).all (fun c => decide (Plain c)) = true)
    (htarget : (P.gdbTargetInfo.targetArch ++ P.gdbTargetInfo.registersFeature).all
      (fun c => decide (Plain c)) = true) : PlainTexts P := by
  have hregister : ∀ r ∈ P.gRegisterOffsets, ∀ c ∈ registerTexts r, Plain c := by
    intro r hr c hc
    have hmem : registerTexts r ∈ rs.map registerTexts := htexts ▸ List.mem_map_of_mem hr
    obtain ⟨r', hr', heq⟩ := List.mem_map.mp hmem
    exact plain_of_all hrs c (List.mem_flatMap.mpr ⟨r', hr', heq ▸ hc⟩)
  refine ⟨fun r hr Name hname c hc => hregister r hr c ?_, fun r hr c hc => hregister r hr c ?_,
    fun c hc => plain_of_all htarget c (List.mem_append_left _ hc),
    fun c hc => plain_of_all htarget c (List.mem_append_right _ hc)⟩
  · rw [registerTexts, hname]
    exact List.mem_append_left _ hc
  · exact List.mem_append_right _ hc

theorem X64.plainTexts (OFFSET_OF : String → Nat)
    (hrs : P.gRegisterOffsets = X64.gRegisterOffsets OFFSET_OF)
    (htarget : P.gdbTargetInfo = X64.gdbTargetInfo) : PlainTexts P := by
  refine plainTexts_of_tables (X64.gRegisterOffsets fun _ => 0) (by rw [hrs]; rfl)
    (by decide +kernel) ?_
  rw [htarget]
  decide

theorem AArch64.plainTexts (OFFSET_OF : String → Nat)
    (hrs : P.gRegisterOffsets = AArch64.gRegisterOffsets OFFSET_OF)
    (htarget : P.gdbTargetInfo = AArch64.gdbTargetInfo) : PlainTexts P := by
  refine plainTexts_of_tables (AArch64.gRegisterOffsets fun _ => 0) (by rw [hrs]; rfl)
    (by decide +kernel) ?_
  rw [htarget]
  decide

/-- What was framed can be transcribed. -/
theorem transcribes_of_framed (hprint : PrintsArguments P) (hP : PlainTexts P)
    (hfits : TableFits P.gRegisterOffsets) {outs : List Output}
    (h : ∀ bs ∈ packets outs, Framed P True bs) : ∃ items, Transcribes outs items ∧ ∀ item ∈ items,
    item.WellFormed := by
  induction outs with
  | nil => exact ⟨[], .nil, fun item hitem => absurd hitem List.not_mem_nil⟩
  | cons o outs ih =>
    have hsub : List.Sublist (packets outs) (packets (o :: outs)) :=
      (List.sublist_cons_self o outs).filterMap _
    obtain ⟨items, hitems, hformed⟩ := ih fun bs hbs => h bs (hsub.subset hbs)
    have hcons : ∀ item : Item, item.WellFormed → ∀ item' ∈ item :: items, item'.WellFormed := by
      intro item hitem item' hitem'
      rcases List.mem_cons.mp hitem' with rfl | hitem'
      · exact hitem
      · exact hformed item' hitem'
    cases o with
    | ack b =>
      cases b with
      | true => exact ⟨_, .plus hitems, hcons .plus trivial⟩
      | false => exact ⟨_, .minus hitems, hcons .minus trivial⟩
    | command p => exact ⟨items, .command p hitems, hformed⟩
    | packet bs =>
      obtain ⟨str, hsaid, rfl⟩ := h bs List.mem_cons_self
      exact ⟨_, .frame str hitems, hcons _ (hsaid.wellFormed hprint hP hfits)⟩

end Payloads

/-! ## The stream of a run -/

/-- **Everything the stub transmits parses back.**  In every run of the code with short reads, the
stream on the wire decodes as acknowledgements and frames in exactly one way; the payloads are plain
and at most `0x1000` characters long; and they are the strings that `SendGdbResponse` was passed. -/
theorem wire_decodes {P : Platform σ} (hprint : PrintsArguments P) (hP : PlainTexts P)
    (hfits : TableFits P.gRegisterOffsets) {s : Stub σ} (hs : s.output = []) {es : List (Event σ)}
    {m : Machine σ}
    (hrun : Machine.CodeRun P True (Machine.ShortReads P) (Machine.initial s) es m) :
    (∃ items, Transcribes m.stub.output items ∧ (∀ item ∈ items, item.WellFormed) ∧
      items.flatMap Item.bytes = wire m.stub.output ∧
      ∀ items', (∀ item ∈ items', item.Clean) → items'.flatMap Item.bytes = wire m.stub.output →
        items' = items) ∧
    ∀ (t : Stub σ) (Response : Response) (str : List UInt8), Response.string? t = some str →
      ((sendGdbResponse Response).run t).2.output = t.output ++ [.packet (gdbFrame str)] := by
  constructor
  · have hsound := Machine.sound_run (fun _ h _ => h) hs hrun
    obtain ⟨items, hitems, hformed⟩ := transcribes_of_framed hprint hP hfits hsound.heard
    have hclean : ∀ item ∈ items, item.Clean := fun item hitem => (hformed item hitem).clean
    refine ⟨items, hitems, hformed, hitems.wire_eq.symm, fun items' hclean' heq => ?_⟩
    exact code_items.flatMap_inj hclean' hclean (heq.trans hitems.wire_eq)
  · intro t Response str hstr
    cases Response with
    | resend => cases hstr
    | text str' =>
      obtain rfl : str' = str := Option.some.inj hstr
      exact output_sendGdbResponse_text str' t
    | mResponse =>
      obtain rfl : cString t.mResponseFull.bytes pcdMaximumAsciiStringLength 1 = str :=
        Option.some.inj hstr
      exact output_sendGdbResponse_mResponse t

/-! ## The registers of X64 -/

theorem mem_toDigits {n : Nat} {c : UInt8} (h : c ∈ (Nat.toDigits 10 n).map char) :
    c ∈ text "0123456789-" := by
  obtain ⟨d, hd, rfl⟩ := List.mem_map.mp h
  have hdigit := Nat.isDigit_of_mem_toDigits (by decide) (by decide) hd
  have hbyte : ∀ b : UInt8, 48 ≤ b.toNat ∧ b.toNat ≤ 57 → b ∈ text "0123456789-" :=
    forall_byte (by decide +kernel)
  simp only [Char.isDigit, Bool.and_eq_true, decide_eq_true_eq, ge_iff_le,
    UInt32.le_iff_toNat_le] at hdigit
  have hnine : d.val.toNat ≤ 57 := hdigit.2
  have hval : (char d).toNat = d.val.toNat % 256 := rfl
  refine hbyte _ ?_
  rw [hval, Nat.mod_eq_of_lt (by omega)]
  exact hdigit

/-- A format without `%llx` prints its own characters and those of its arguments. -/
theorem mem_formatText : ∀ (Format : List UInt8) (args : List PrintArg), ¬ [37, 108] <:+: Format →
    ∀ c ∈ formatText Format args, c ∈ Format ∨ c ∈ args.flatMap PrintArg.characters := by
  intro Format args
  have htail : ∀ {p f : List UInt8}, ¬ [37, 108] <:+: p ++ f → ¬ [37, 108] <:+: f := fun hno h =>
    hno (h.trans (List.suffix_append _ _).isInfix)
  fun_induction formatText Format args with
  | case1 f s args ih =>
    intro hno c hc
    rw [List.flatMap_cons, List.mem_append]
    rcases List.mem_append.mp hc with hc | hc
    · exact Or.inr (Or.inl hc)
    · rcases ih (htail (p := [37, 97]) hno) c hc with hc | hc
      · exact Or.inl (List.mem_append_right [37, 97] hc)
      · exact Or.inr (Or.inr hc)
  | case2 f n args ih =>
    intro hno c hc
    rw [List.flatMap_cons, List.mem_append]
    rcases List.mem_append.mp hc with hc | hc
    · exact Or.inr (Or.inl (mem_toDigits hc))
    · rcases ih (htail (p := [37, 100]) hno) c hc with hc | hc
      · exact Or.inl (List.mem_append_right [37, 100] hc)
      · exact Or.inr (Or.inr hc)
  | case3 f n args ih => exact fun hno => absurd ⟨[], 108 :: 120 :: f, rfl⟩ hno
  | case4 c f args _ _ _ ih =>
    intro hno d hd
    rcases List.mem_cons.mp hd with rfl | hd
    · exact Or.inl List.mem_cons_self
    · exact (ih (htail (p := [c]) hno) d hd).imp_left (List.mem_cons_of_mem c)
  | case5 args => exact fun _ c hc => absurd hc List.not_mem_nil

/-- The base library of the flat machine prints the target description as it should. -/
theorem printsArguments_documented {P : Platform σ} (hlib : P.baseLib = documentedBaseLib) :
    PrintsArguments P := by
  intro Format args h c hc
  rw [hlib] at hc
  refine mem_formatText _ _ ?_ c hc
  cases h with
  | target =>
    rw [text_ofList]
    decide +kernel
  | feature =>
    rw [text_ofList]
    decide +kernel
  | close =>
    rw [text_ofList]
    decide +kernel
  | register RegNumber listed named =>
    rw [text_ofList]
    decide +kernel
/-- The command that a stop is about to execute, if it is. -/
def Machine.command (m : Machine σ) : StubM σ Unit :=
  match m.frames with
  | ⟨_, .execute rest⟩ :: _ => rest.program
  | _ => pure ()

/-- Where a command begins can be seen from where it reads. -/
theorem readTop_executeGdbCommand (i n : Nat) :
    ((executeGdbCommand x64Platform i n).run (Stub.initial ⟨fun _ => 0, []⟩)).2.mRequest.readTop =
    i + 1 := by
  rw [executeGdbCommand, run_bind]
  rfl

/-- The stop at load has read `g`, and is about to execute it. -/
def registersAsked : Machine FlatMachine :=
  Machine.stopAtLoad.ticks x64Platform (Machine.readTicks (text "$g#67"))

theorem registersAsked_short : Machine.ShortReads x64Platform registersAsked := by
  intro f fs rest i n hframes hpoint hprogram hread
  have hcommand : registersAsked.command = executeGdbCommand x64Platform i n := by
    obtain ⟨T, point⟩ := f
    obtain rfl : point = .execute rest := hpoint
    rw [Machine.command, hframes]
    exact hprogram
  have htop : (registersAsked.command.run (Stub.initial ⟨fun _ => 0, []⟩)).2.mRequest.readTop =
      2 := by decide +kernel
  rw [hcommand, readTop_executeGdbCommand] at htop
  obtain rfl : i = 1 := by omega
  have hfirst : registersAsked.stub.mRequest.bytes 1 = char 'g' := by decide +kernel
  exact absurd (hfirst.symm.trans hread) (by decide)

/-- The theorem behind the reply with the registers of X64. -/
theorem wire_decodes_registers : ∃ items : List Item, (∀ item ∈ items, item.WellFormed) ∧
    items.flatMap Item.bytes = wire (registersAsked.tick x64Platform 0 []).stub.output := by
  have hstop : Machine.CodeRun x64Platform True (Machine.ShortReads x64Platform)
      (Machine.initial _) _ Machine.stopAtLoad :=
      (Machine.CodeRun.none _).snoc (Machine.shortReads_of_reading rfl) Machine.stopAtLoad_step
  have hread :=
    hstop.ticks (fun _ => Machine.shortReads_of_reading) (Machine.readTicks (text "$g#67")) _ _
    (by decide +kernel)
  have hrun :=
    hread.snoc registersAsked_short (.plain (.tick registersAsked 0 []) (Or.inr ⟨0, [], rfl⟩))
  obtain ⟨⟨items, -, hformed, hwire, -⟩, -⟩ := wire_decodes (printsArguments_documented rfl)
    (X64.plainTexts x64Layout rfl rfl) (X64.tableFits x64Layout) rfl hrun
  exact ⟨items, hformed, hwire⟩

end UefiDebugger
