import UefiDebugger.RegisterBlocks

/-!
# Register writes that are refused

`P` looks at the length of its value before it writes anything.  `G` looks at the length of what is
left when it comes to a register, and has written the registers in front by then; its error leaves
the context as it was only when those registers already held what the text spells.
-/
namespace UefiDebugger
open HexText ByteString PackedFields StateEffect

variable {σ : Type}

/-- If the command executed from `s` to `t`, begun in `s₁`, is answered by an error, it left the
context alone. -/
def RefusedUnchanged (s s₁ t : Stub σ) : Prop :=
  (∃ e, RepliedWith (errorString e) s₁ t) → t.context = s.context

/-- Every register has its bytes behind the cursor of `G`, or the context `c` already holds what the
bytes say of the registers in front of the first that does not. -/
def HeldOrComplete (fs : List RecordField) (bs : List UInt8) (c : Context) : Prop :=
  (∀ i f, fs[i]? = some f → cursor consumed fs i + f.size ≤ bs.length) ∨
    ∀ x b, latest consumed fs bs x = some b → c x = b

section Refusals
variable {P : Platform σ} {w : List UInt8} {s s₁ t : Stub σ} {o : RegisterOutcome}

/-- One reply only. -/
theorem Yields.not_refused (h : Yields o s₁ t) (hok : o.reply = text "OK") :
    ¬ ∃ e, RepliedWith (errorString e) s₁ t := by
  rintro ⟨e, herror⟩
  have hreply := h.reply
  rw [hok] at hreply
  exact ok_ne_errorString e (reply_injective (hreply.symm.trans herror))

theorem refusedUnchanged_of_context (h : Yields o s₁ t) (hcontext : o.context = s.context) :
    RefusedUnchanged s s₁ t :=
  fun _ => h.context.trans hcontext

theorem refusedUnchanged_of_ok (h : Yields o s₁ t) (hok : o.reply = text "OK") :
    RefusedUnchanged s s₁ t :=
  fun herror => absurd herror (h.not_refused hok)

/-- A write of one register does both or none. -/
theorem writeOutcome_ok_or_same (Register : Option RegisterOffsetData) (v : List UInt8)
    (c : Context) : (writeOutcome Register v c).reply = text "OK" ∨
    (writeOutcome Register v c).context = c := by
  cases Register with
  | none => exact Or.inr rfl
  | some r =>
    dsimp only [writeOutcome]
    split
    · exact Or.inr rfl
    · exact Or.inl rfl

theorem writeRegister_refusedUnchanged (h : Executes P s (char 'P' :: w) s₁ t) :
    RefusedUnchanged s s₁ t := by
  have hyields := h.registerWrite
  have houtcome : (writeRegisterOutcome P w s.context).reply = text "OK" ∨
      (writeRegisterOutcome P w s.context).context = s.context := by
    unfold writeRegisterOutcome
    split
    · exact writeOutcome_ok_or_same _ _ _
    · exact Or.inr rfl
  rcases houtcome with hok | hsame
  · exact refusedUnchanged_of_ok hyields hok
  · exact refusedUnchanged_of_context hyields hsame

theorem writeBlock_refusedUnchanged_iff (h : Executes P s (char 'G' :: w) s₁ t) :
    RefusedUnchanged s s₁ t ↔ HeldOrComplete P.registers (decodeHex (textAt w 0)) s.context := by
  have hyields := h.blockWrite
  set bs := decodeHex (textAt w 0) with hbs
  by_cases hcomplete : (load consumed P.registers bs s.context).1 = true
  · have hok : (writeBlockOutcome P w s.context).reply = text "OK" := if_pos hcomplete
    have hall := (load_complete_iff consumed_le P.registers bs s.context).mp hcomplete
    exact ⟨fun _ => Or.inl hall, fun _ => refusedUnchanged_of_ok hyields hok⟩
  · have hrefused : RepliedWith (errorString gdbErrorInternal) s₁ t := by
      have hreply := hyields.reply
      rwa [writeBlockOutcome, if_neg hcomplete] at hreply
    have hcontext : t.context = (load consumed P.registers bs s.context).2 := hyields.context
    have hshort : ¬ ∀ i f, P.registers[i]? = some f →
        cursor consumed P.registers i + f.size ≤ bs.length :=
      fun hall => hcomplete ((load_complete_iff consumed_le P.registers bs s.context).mpr hall)
    constructor
    · intro hunchanged
      have hsame := hcontext.symm.trans (hunchanged ⟨_, hrefused⟩)
      exact Or.inr ((load_eq_self_iff P.registers bs s.context).mp hsame)
    · rintro (hall | hheld)
      · exact absurd hall hshort
      · exact fun _ => hcontext.trans ((load_eq_self_iff P.registers bs s.context).mpr hheld)

end Refusals

/-- **When a refused register write changes nothing.**  A `P` that is answered by an error never
changes the context; a `G` exactly when it is complete for its cursor or the registers in front of
the first short one hold their bytes. -/
theorem register_refused_unchanged_iff (P : Platform σ) :
    (∀ (w : List UInt8) (s s₁ t : Stub σ), Executes P s (char 'G' :: w) s₁ t →
      (RefusedUnchanged s s₁ t ↔ HeldOrComplete P.registers (decodeHex (textAt w 0)) s.context)) ∧
    ∀ (w : List UInt8) (s s₁ t : Stub σ), Executes P s (char 'P' :: w) s₁ t →
    RefusedUnchanged s s₁ t :=
  ⟨fun _ _ _ _ h => writeBlock_refusedUnchanged_iff h, fun _ _ _ _ h =>
    writeRegister_refusedUnchanged h⟩

/-! ## A block of one register -/

/-- `G` with the digits of `rax` alone is refused, and `rax` is 1. -/
theorem refused_block_writes_rax :
    Executes x64Platform (writesBlock (text "0100000000000000"))
    (char 'G' :: text "0100000000000000") (writesBlock (text "0100000000000000"))
    (wroteBlock (text "0100000000000000")) ∧
      RepliedWith (errorString gdbErrorInternal) (writesBlock (text "0100000000000000"))
        (wroteBlock (text "0100000000000000")) ∧
      ¬ RefusedUnchanged (writesBlock (text "0100000000000000"))
      (writesBlock (text "0100000000000000")) (wroteBlock (text "0100000000000000")) := by
  have hexecutes := writesBlock_executes (d := text "0100000000000000") (by decide)
  obtain ⟨hreply, hcontext⟩ := hexecutes.blockWrite
  have hrefused :
      (load consumed x64Platform.registers (decodeHex (textAt (text "0100000000000000") 0))
      (writesBlock (text "0100000000000000")).context).1 ≠ true := by decide +kernel
  have hrax : (load consumed x64Platform.registers (decodeHex (textAt (text "0100000000000000") 0))
      (writesBlock (text "0100000000000000")).context).2 0 = 1 := by decide +kernel
  rw [writeBlockOutcome, if_neg hrefused] at hreply
  refine ⟨hexecutes, hreply, fun hunchanged => ?_⟩
  have hsame := congrFun (hcontext.symm.trans (hunchanged ⟨_, hreply⟩)) 0
  exact absurd (hrax.symm.trans hsame) (by decide)

theorem register_refused_unchanged_iff_short :
    RefusedUnchanged (writesBlock (text "01")) (writesBlock (text "01"))
    (wroteBlock (text "01")) := by
  have hexecutes := writesBlock_executes (d := text "01") (by decide)
  refine ((register_refused_unchanged_iff x64Platform).1 _ _ _ _ hexecutes).mpr
    (Or.inr fun x b hb => ?_)
  -- already `rax` is too short
  have hnone : latest consumed x64Platform.registers (decodeHex (textAt (text "01") 0)) x = none :=
    rfl
  rw [hnone] at hb
  cases hb

end UefiDebugger
