import UefiDebugger.PacketSize

/-!
# Damaged packets

A line that damages at most one character of each packet (changes it, loses it or adds one), makes
no `#` and adds no NUL by that, and pauses behind each transmission, never makes the stub execute
anything else than what was sent, and never throws it out of step with the packets that follow:
after the pause the stub waits for the next packet, and what it has executed of this one is the
packet itself, once, or nothing (`noisy_line`).  A `#` that the damage makes would end the packet
where the debugger did not: `$?X3f` with `#` for the `X` is a query.
-/
namespace UefiDebugger
open HexText ByteString StateEffect

variable {σ : Type}

/-! ## One damaged character -/

/-- At most one character of a list is damaged: changed to one that is no `#`, lost, or gained and
then neither a `#` nor a NUL. -/
inductive OneFaultWithoutHash : List UInt8 → List UInt8 → Prop
  | intact (w : List UInt8) : OneFaultWithoutHash w w
  | changed (pre : List UInt8) (x y : UInt8) (post : List UInt8) (visible : y ≠ char '#') :
      OneFaultWithoutHash (pre ++ x :: post) (pre ++ y :: post)
  | lost (pre : List UInt8) (x : UInt8) (post : List UInt8) : OneFaultWithoutHash (pre ++ x :: post)
      (pre ++ post)
  | gained (pre : List UInt8) (y : UInt8) (post : List UInt8) (visible : y ≠ char '#')
      (nonzero : y ≠ 0) : OneFaultWithoutHash (pre ++ post) (pre ++ y :: post)

/-- The characters of a packet. -/
def frameOf (p : List UInt8) (c d : UInt8) : List UInt8 := char '$' :: (p ++ [char '#', c, d])

/-- A packet as a debugger sends it: the payload has no frame character and no NUL, the checksum is
right, and the whole fits into the request buffer. -/
structure Wellformed (p : List UInt8) (c d : UInt8) : Prop where
  opens : char '$' ∉ p
  closes : char '#' ∉ p
  nonzero : 0 ∉ p
  fits : p.length + 4 ≤ maxRequestSize
  checksum : ChecksumOf p c d

/-- What can become of one transmission of `p`. -/
inductive AnswerTo (p : List UInt8) : List Verdict → Prop
  | unheard : AnswerTo p []
  | refused : AnswerTo p [.refused]
  | executed : AnswerTo p [.executed p]
  | trailed : AnswerTo p [.executed p, .refused]

/-! ## Pieces of a stream -/

theorem decode_append (es es' : List Receive) : ∀ d : Option (List UInt8), decode d (es ++ es') =
    ((decode (decode d es).1 es').1, (decode d es).2 ++ (decode (decode d es).1 es').2) := by
  induction es with
  | nil => exact fun d => rfl
  | cons e es ih =>
    intro d
    rw [List.cons_append, decode, ih, decode]
    simp only [List.append_assoc]

/-- Without a `$` nothing is a packet. -/
theorem decode_unopened {u : List UInt8} (h : char '$' ∉ u) :
    decode none (u.map .byte ++ [.timeout]) = (none, []) := by
  induction u with
  | nil => rfl
  | cons b u ih =>
    have hb : b ≠ char '$' := fun he => h (he ▸ List.mem_cons_self ..)
    rw [List.map_cons, List.cons_append, decode, decodeStep, if_neg hb, ih fun hu =>
      h (List.mem_cons_of_mem _ hu)]
    rfl

/-- A packet that is not complete when the stream pauses, or when the buffer is full, is refused. -/
theorem decode_unclosed (v : List UInt8) :
    ∀ {w : List UInt8} {n : Nat}, w.length + n + 1 = maxRequestSize → n ≠ 0 → Open (w ++ v.take n) →
    char '$' ∉ v.drop n →
      decode (some w) (v.map .byte ++ [.timeout]) = (none, [.refused]) := by
  induction v with
  | nil =>
    intro w n _ _ _ _
    rfl
  | cons b v ih =>
    intro w n hroom hn hopen hrest
    obtain ⟨n, rfl⟩ := Nat.exists_eq_succ_of_ne_zero hn
    have hsplit : w ++ (b :: v).take (n + 1) = (w ++ [b]) ++ v.take n := by simp
    rw [hsplit] at hopen
    rw [List.map_cons, List.cons_append, decode, decodeStep, hopen.of_append.splitPacket]
    by_cases hfull : maxRequestSize ≤ w.length + 2
    · have hzero : n = 0 := by omega
      subst hzero
      dsimp only
      rw [if_pos hfull, decode_unopened (u := v) hrest]
      rfl
    · dsimp only
      rw [if_neg hfull, ih (n := n) (by rw [List.length_append, List.length_singleton]; omega)
        (by omega) hopen hrest]
      rfl

/-- A complete packet, and what follows it before the pause. -/
theorem decode_closed {p : List UInt8} (hp : char '#' ∉ p) (c d : UInt8)
    (hfits : p.length + 4 ≤ maxRequestSize) {u : List UInt8} (hu : char '$' ∉ u) :
    decode none ((frameOf p c d ++ u).map .byte ++ [.timeout]) = (none, [judge p c d]) := by
  have hframe : (frameOf p c d ++ u).map Receive.byte ++ [.timeout] =
      packetEvents p c d ++ (u.map .byte ++ [.timeout]) := by
    rw [List.map_append, List.append_assoc]
    rfl
  rw [hframe, decode_append, decode_packet hp c d hfits, decode_unopened hu]
  rfl

/-! ## Judging -/

theorem judge_cases (p : List UInt8) (c d : UInt8) : judge p c d = .executed p ∨
    judge p c d = .refused := by
  rw [judge]
  split
  · exact Or.inl rfl
  · exact Or.inr rfl

theorem answerTo_judge (p : List UInt8) (c d : UInt8) : AnswerTo p [judge p c d] := by
  rcases judge_cases p c d with h | h
  · rw [h]
    exact .executed
  · rw [h]
    exact .refused

/-- The checksum of one payload refuses every payload with another sum. -/
theorem judge_other {p q : List UInt8} {c d : UInt8} (h : ChecksumOf p c d)
    (hsum : (q.map UInt8.toNat).sum % 256 ≠ (p.map UInt8.toNat).sum % 256) :
    judge q c d = .refused :=
  if_neg fun hq => hsum (hq.2.2.symm.trans h.2.2)

theorem sum_middle (p₁ : List UInt8) (x : UInt8) (p₂ : List UInt8) :
    ((p₁ ++ x :: p₂).map UInt8.toNat).sum = ((p₁ ++ p₂).map UInt8.toNat).sum + x.toNat := by
  simp only [List.map_append, List.map_cons, List.sum_append, List.sum_cons]
  omega

theorem hex_ne {c : UInt8} (h : isDigit c = true) : c ≠ char '$' ∧ c ≠ char '#' := by
  refine ⟨fun he => ?_, fun he => ?_⟩
  · rw [he] at h
    exact absurd h (by decide)
  · rw [he] at h
    exact absurd h (by decide)

/-! ## Where the damage is -/

/-- A character of a packet, with what is before and behind it. -/
inductive Place (p : List UInt8) (c d : UInt8) : List UInt8 → UInt8 → List UInt8 → Prop
  | opening : Place p c d [] (char '$') (p ++ [char '#', c, d])
  | payload (p₁ : List UInt8) (x : UInt8) (p₂ : List UInt8) (split : p = p₁ ++ x :: p₂) :
      Place p c d (char '$' :: p₁) x (p₂ ++ [char '#', c, d])
  | closing : Place p c d (char '$' :: p) (char '#') [c, d]
  | high : Place p c d (char '$' :: (p ++ [char '#'])) c [d]
  | low : Place p c d (char '$' :: (p ++ [char '#', c])) d []

theorem place_of_split {p : List UInt8} {c d : UInt8} {pre post : List UInt8} {x : UInt8}
    (h : frameOf p c d = pre ++ x :: post) : Place p c d pre x post := by
  cases pre with
  | nil =>
    obtain ⟨rfl, rfl⟩ := List.cons.inj h
    exact .opening
  | cons b pre =>
    obtain ⟨rfl, hrest⟩ := List.cons.inj h
    rcases List.append_eq_append_iff.mp hrest with ⟨a, rfl, htrailer⟩ | ⟨a, hp, htrailer⟩
    · rcases a with _ | ⟨a₀, _ | ⟨a₁, _ | ⟨a₂, a⟩⟩⟩
      · obtain ⟨rfl, rfl⟩ := List.cons.inj htrailer
        rw [List.append_nil]
        exact .closing
      · simp only [List.cons_append, List.nil_append, List.cons.injEq] at htrailer
        obtain ⟨rfl, rfl, rfl⟩ := htrailer
        exact .high
      · simp only [List.cons_append, List.nil_append, List.cons.injEq] at htrailer
        obtain ⟨rfl, rfl, rfl, rfl⟩ := htrailer
        exact .low
      · simp at htrailer
    · cases a with
      | nil =>
        obtain ⟨rfl, rfl⟩ := List.cons.inj htrailer
        rw [List.append_nil] at hp
        subst hp
        exact .closing
      | cons a₀ a =>
        obtain ⟨rfl, rfl⟩ := List.cons.inj htrailer
        exact .payload _ _ _ hp

/-- A place between two characters of a packet. -/
inductive Gap (p : List UInt8) (c d : UInt8) : List UInt8 → List UInt8 → Prop
  | before : Gap p c d [] (frameOf p c d)
  | payload (p₁ p₂ : List UInt8) (split : p = p₁ ++ p₂) :
      Gap p c d (char '$' :: p₁) (p₂ ++ [char '#', c, d])
  | high : Gap p c d (char '$' :: (p ++ [char '#'])) [c, d]
  | low : Gap p c d (char '$' :: (p ++ [char '#', c])) [d]
  | behind : Gap p c d (frameOf p c d) []

theorem gap_of_split {p : List UInt8} {c d : UInt8} {pre post : List UInt8}
    (h : frameOf p c d = pre ++ post) :
    Gap p c d pre post := by
  cases post with
  | nil =>
    rw [List.append_nil] at h
    subst h
    exact .behind
  | cons x post =>
    cases place_of_split h with
    | opening => exact .before
    | payload p₁ x p₂ split => exact .payload p₁ (x :: p₂) split
    | closing => exact .payload p [] (List.append_nil p).symm
    | high => exact .high
    | low => exact .low

/-! ## What becomes of it -/

section Faults
variable {p : List UInt8} {c d : UInt8}

/-- What is decoded of a transmission that ends with a pause. -/
def decoding (w : List UInt8) : Option (List UInt8) × List Verdict :=
  decode none (w.map .byte ++ [.timeout])

theorem decoding_frame {q : List UInt8} (hq : char '#' ∉ q) (hfits : q.length + 4 ≤ maxRequestSize)
    {u : List UInt8} (hu : char '$' ∉ u) : decoding (frameOf q c d ++ u) = (none, [judge q c d]) :=
    decode_closed hq c d hfits hu

theorem decoding_intact {q : List UInt8} (hq : char '#' ∉ q)
    (hfits : q.length + 4 ≤ maxRequestSize) :
    decoding (frameOf q c d) = (none, [judge q c d]) := by
  have hframe := decoding_frame (c := c) (d := d) hq hfits (u := []) List.not_mem_nil
  rwa [List.append_nil] at hframe

/-- A packet without an end. -/
theorem decoding_unclosed {v : List UInt8} (hopen : Open (v.take (maxRequestSize - 1)))
    (hrest : char '$' ∉ v.drop (maxRequestSize - 1)) :
    decoding (char '$' :: v) = (none, [.refused]) := by
  have hcollected :=
    decode_unclosed v (w := []) (n := maxRequestSize - 1) rfl (by decide) hopen hrest
  rw [decoding, List.map_cons, List.cons_append, decode, decodeStep, if_pos rfl, hcollected]
  rfl

theorem decoding_unclosed_short {v : List UInt8} (hopen : Open v)
    (hshort : v.length < maxRequestSize) :
    decoding (char '$' :: v) = (none, [.refused]) := by
  have hle : v.length ≤ maxRequestSize - 1 := Nat.le_sub_one_of_lt hshort
  refine decoding_unclosed ?_ ?_
  · rwa [List.take_of_length_le hle]
  · rw [List.drop_of_length_le hle]
    exact List.not_mem_nil

/-- What has no `#` is open. -/
theorem open_of_clean {v : List UInt8} (h : char '#' ∉ v) : Open v := by
  have hall : v.dropWhile (· ≠ char '#') = [] :=
    List.dropWhile_eq_nil_iff.mpr fun x hx => by simpa using fun he : x = char '#' => h (he ▸ hx)
  rw [Open, hall]
  decide

/-- A payload that the damage has changed is refused. -/
theorem decoding_other (h : Wellformed p c d) {q : List UInt8} (hq : char '#' ∉ q)
    (hfits : q.length + 4 ≤ maxRequestSize)
    (hsum : (q.map UInt8.toNat).sum % 256 ≠ (p.map UInt8.toNat).sum % 256) :
    decoding (frameOf q c d) = (none, [.refused]) := by
  rw [decoding_intact hq hfits, judge_other h.checksum hsum]

theorem not_opening {p : List UInt8} {c d : UInt8} (h : Wellformed p c d) :
    char '$' ∉ p ++ [char '#', c, d] := by
  have hc := (hex_ne h.checksum.1).1
  have hd := (hex_ne h.checksum.2.1).1
  simp only [List.mem_append, List.mem_cons, List.not_mem_nil, or_false, not_or]
  exact ⟨h.opens, by decide, Ne.symm hc, Ne.symm hd⟩

/-- A changed character. -/
theorem answered_changed (h : Wellformed p c d) {pre post : List UInt8} {x : UInt8}
    (hplace : Place p c d pre x post) {y : UInt8} (hy : y ≠ char '#') :
    ∃ vs, decoding (pre ++ y :: post) = (none, vs) ∧ AnswerTo p vs := by
  have hfits := h.fits
  cases hplace with
  | opening =>
    by_cases hsame : y = char '$'
    · subst hsame
      exact ⟨_, decoding_intact h.closes hfits,
        answerTo_judge p c d⟩
    · refine ⟨[], decode_unopened ?_, .unheard⟩
      rw [List.nil_append, List.mem_cons, not_or]
      exact ⟨Ne.symm hsame, not_opening h⟩
  | payload p₁ x p₂ split =>
    have hshape : char '$' :: p₁ ++ y :: (p₂ ++ [char '#', c, d]) =
        frameOf (p₁ ++ y :: p₂) c d := by
      simp [frameOf]
    have hclean : char '#' ∉ p₁ ++ y :: p₂ := by
      have hp := h.closes
      rw [split] at hp
      simp only [List.mem_append, List.mem_cons, not_or] at hp ⊢
      exact ⟨hp.1, Ne.symm hy, hp.2.2⟩
    have hlength : (p₁ ++ y :: p₂).length = p.length := by
      rw [split]
      simp
    rw [hshape]
    by_cases hsame : y = x
    · subst hsame
      rw [← split]
      exact ⟨_, decoding_intact h.closes hfits,
        answerTo_judge p c d⟩
    · refine ⟨_, decoding_other h hclean (hlength ▸ hfits) ?_, .refused⟩
      -- Sums that differ by less than 256 in one place differ modulo 256.
      have hne : y.toNat ≠ x.toNat := fun he => hsame (UInt8.toNat_inj.mp he)
      have hylt := y.toNat_lt
      have hxlt := x.toNat_lt
      rw [split, sum_middle, sum_middle]
      omega
  | closing =>
    have hc := (hex_ne h.checksum.1).2
    have hd := (hex_ne h.checksum.2.1).2
    -- Without its `#` the packet stays open, and the timeout refuses it.
    have hclean : char '#' ∉ p ++ y :: [c, d] := by
      simp only [List.mem_append, List.mem_cons, List.not_mem_nil, or_false, not_or]
      exact ⟨h.closes, Ne.symm hy, Ne.symm hc, Ne.symm hd⟩
    refine ⟨_, decoding_unclosed_short (open_of_clean hclean) ?_, .refused⟩
    show (p ++ y :: [c, d]).length < maxRequestSize
    simp only [List.length_append, List.length_cons, List.length_nil]
    omega
  | high =>
    have hshape : char '$' :: (p ++ [char '#']) ++ y :: [d] = frameOf p y d := by simp [frameOf]
    rw [hshape]
    exact ⟨_, decoding_intact h.closes hfits, answerTo_judge p y d⟩
  | low =>
    have hshape : char '$' :: (p ++ [char '#', c]) ++ y :: [] = frameOf p c y := by simp [frameOf]
    rw [hshape]
    exact ⟨_, decoding_intact h.closes hfits, answerTo_judge p c y⟩

/-- A lost character. -/
theorem answered_lost (h : Wellformed p c d) {pre post : List UInt8} {x : UInt8}
    (hplace : Place p c d pre x post) : ∃ vs, decoding (pre ++ post) = (none, vs) ∧
    AnswerTo p vs := by
  have hfits := h.fits
  have hc := (hex_ne h.checksum.1).2
  have hd := (hex_ne h.checksum.2.1).2
  cases hplace with
  | opening => exact ⟨[], decode_unopened (not_opening h), .unheard⟩
  | payload p₁ x p₂ split =>
    have hshape : char '$' :: p₁ ++ (p₂ ++ [char '#', c, d]) = frameOf (p₁ ++ p₂) c d := by
      simp [frameOf]
    have hmem : x ∈ p := by simp [split]
    have hclean : char '#' ∉ p₁ ++ p₂ := by
      have hp := h.closes
      rw [split] at hp
      simp only [List.mem_append, List.mem_cons, not_or] at hp ⊢
      exact ⟨hp.1, hp.2.2⟩
    have hlength : (p₁ ++ p₂).length + 1 = p.length := by
      rw [split]
      simp only [List.length_append, List.length_cons]
      omega
    rw [hshape]
    refine ⟨_, decoding_other h hclean (by omega) ?_, .refused⟩
    -- The sum lost a character that is not NUL.
    have hne : x.toNat ≠ 0 := fun he => h.nonzero ((UInt8.toNat_inj (b := 0)).mp he ▸ hmem)
    have hxlt := x.toNat_lt
    rw [split, sum_middle]
    omega
  | closing =>
    have hclean : char '#' ∉ p ++ [c, d] := by
      simp only [List.mem_append, List.mem_cons, List.not_mem_nil, or_false, not_or]
      exact ⟨h.closes, Ne.symm hc, Ne.symm hd⟩
    refine ⟨_, decoding_unclosed_short (open_of_clean hclean) ?_, .refused⟩
    show (p ++ [c, d]).length < maxRequestSize
    simp only [List.length_append, List.length_cons, List.length_nil]
    omega
  | high =>
    have hshape : char '$' :: (p ++ [char '#']) ++ [d] = char '$' :: (p ++ [char '#', d]) := by simp
    rw [hshape]
    -- One digit of the check sum is missing when the timeout comes.
    refine ⟨_, decoding_unclosed_short (open_payload h.closes d) ?_, .refused⟩
    simp only [List.length_append, List.length_cons, List.length_nil]
    omega
  | low =>
    rw [List.append_nil]
    refine ⟨_, decoding_unclosed_short (open_payload h.closes c) ?_, .refused⟩
    simp only [List.length_append, List.length_cons, List.length_nil]
    omega

/-- One more character in the payload. -/
theorem answered_lengthened (h : Wellformed p c d) {p₁ p₂ : List UInt8} (split : p = p₁ ++ p₂)
    {y : UInt8} (hy : y ≠ char '#') (hzero : y ≠ 0) :
    ∃ vs, decoding (frameOf (p₁ ++ y :: p₂) c d) = (none, vs) ∧ AnswerTo p vs := by
  have hfits := h.fits
  have hclean : char '#' ∉ p₁ ++ y :: p₂ := by
    have hp := h.closes
    rw [split] at hp
    simp only [List.mem_append, List.mem_cons, not_or] at hp ⊢
    exact ⟨hp.1, Ne.symm hy, hp.2⟩
  have hlength : (p₁ ++ y :: p₂).length = p.length + 1 := by
    rw [split]
    simp only [List.length_append, List.length_cons]
    omega
  refine ⟨[.refused], ?_, .refused⟩
  by_cases hroom : p.length + 5 ≤ maxRequestSize
  · refine decoding_other h hclean (by omega) ?_
    have hne : y.toNat ≠ 0 := fun he => hzero ((UInt8.toNat_inj (b := 0)).mp he)
    have hylt := y.toNat_lt
    rw [sum_middle, ← split]
    omega
  · -- The buffer is full one character before the end.
    have hfull : (p₁ ++ y :: p₂ ++ [char '#', c]).length = maxRequestSize - 1 := by
      rw [List.length_append, hlength, List.length_cons, List.length_singleton]
      omega
    have hshape : p₁ ++ y :: p₂ ++ [char '#', c, d] = (p₁ ++ y :: p₂ ++ [char '#', c]) ++ [d] := by
      simp
    refine decoding_unclosed ?_ ?_
    · rw [hshape, List.take_left' hfull]
      exact open_payload hclean c
    · rw [hshape, List.drop_left' hfull, List.mem_singleton]
      exact Ne.symm (hex_ne h.checksum.2.1).1

/-- An additional character. -/
theorem answered_gained (h : Wellformed p c d) {pre post : List UInt8} (hgap : Gap p c d pre post)
    {y : UInt8} (hy : y ≠ char '#') (hzero : y ≠ 0) :
    ∃ vs, decoding (pre ++ y :: post) = (none, vs) ∧ AnswerTo p vs := by
  have hfits := h.fits
  have hc := (hex_ne h.checksum.1).1
  have hd := (hex_ne h.checksum.2.1).1
  cases hgap with
  | before =>
    by_cases hopens : y = char '$'
    · subst hopens
      exact answered_lengthened h (List.nil_append p).symm hy hzero
    · refine ⟨_, ?_, answerTo_judge p c d⟩
      rw [List.nil_append, decoding, List.map_cons, List.cons_append, decode, decodeStep,
        if_neg hopens]
      exact decoding_intact h.closes hfits
  | payload p₁ p₂ split =>
    have hshape : char '$' :: p₁ ++ y :: (p₂ ++ [char '#', c, d]) =
        frameOf (p₁ ++ y :: p₂) c d := by
      simp [frameOf]
    rw [hshape]
    exact answered_lengthened h split hy hzero
  | high =>
    have hshape : char '$' :: (p ++ [char '#']) ++ y :: [c, d] = frameOf p y c ++ [d] := by
      simp [frameOf]
    rw [hshape]
    -- The packet is complete one character early; the digit behind it is no beginning.
    refine ⟨_, decoding_frame h.closes hfits ?_, answerTo_judge p y c⟩
    rw [List.mem_singleton]
    exact Ne.symm hd
  | low =>
    have hshape : char '$' :: (p ++ [char '#', c]) ++ y :: [d] = frameOf p c y ++ [d] := by
      simp [frameOf]
    rw [hshape]
    refine ⟨_, decoding_frame h.closes hfits ?_, answerTo_judge p c y⟩
    rw [List.mem_singleton]
    exact Ne.symm hd
  | behind =>
    by_cases hopens : y = char '$'
    · subst hopens
      -- A packet that only begins is refused when the timeout comes.
      have hevents : (frameOf p c d ++ [char '$']).map Receive.byte ++ [.timeout] =
          packetEvents p c d ++ [.byte (char '$'), .timeout] := by
        rw [List.map_append, List.append_assoc]
        rfl
      have hjudged : judge p c d = .executed p := if_pos h.checksum
      refine ⟨_, ?_, .trailed⟩
      rw [decoding, hevents, decode_append, decode_packet h.closes c d hfits, hjudged]
      rfl
    · refine ⟨_, decoding_frame h.closes hfits ?_, answerTo_judge p c d⟩
      rw [List.mem_singleton]
      exact Ne.symm hopens

/-- **One damaged character.** -/
theorem answered_fault (h : Wellformed p c d) {w : List UInt8}
    (hw : OneFaultWithoutHash (frameOf p c d) w) : ∃ vs, decoding w = (none, vs) ∧
    AnswerTo p vs := by
  generalize hf : frameOf p c d = f at hw
  cases hw with
  | intact =>
    subst hf
    exact ⟨_, decoding_intact h.closes h.fits, answerTo_judge p c d⟩
  | changed pre x y post visible => exact answered_changed h (place_of_split hf) visible
  | lost pre x post => exact answered_lost h (place_of_split hf)
  | gained pre y post visible nonzero => exact answered_gained h (gap_of_split hf) visible nonzero

end Faults

/-! ## A whole session -/

/-- One transmission: the packet that was sent, and the characters that arrive before the pause
behind it. -/
structure Transmission where
  payload : List UInt8
  high : UInt8
  low : UInt8
  received : List UInt8

/-- The transmission is of a packet, and at most one of its characters is damaged, without a new
`#`. -/
structure Transmission.Noisy (t : Transmission) : Prop where
  sent : Wellformed t.payload t.high t.low
  fault : OneFaultWithoutHash (frameOf t.payload t.high t.low) t.received

/-- What is said of a transmission. -/
def Transmission.verdicts (t : Transmission) : List Verdict := (decoding t.received).2

theorem Transmission.Noisy.answered {t : Transmission} (h : t.Noisy) :
    decoding t.received = (none, t.verdicts) ∧ AnswerTo t.payload t.verdicts := by
  obtain ⟨vs, hdecoded, hanswered⟩ := answered_fault h.sent h.fault
  rw [Transmission.verdicts, hdecoded]
  exact ⟨rfl, hanswered⟩

/-- The outcomes of the reads during transmissions: behind each of them the line pauses. -/
def noisyLine (ts : List Transmission) : List Receive :=
  ts.flatMap fun t => t.received.map .byte ++ [.timeout]

/-- Each transmission is decoded by itself. -/
theorem decode_noisyLine (ts : List Transmission) (h : ∀ t ∈ ts, t.Noisy) :
    decode none (noisyLine ts) = (none, ts.flatMap Transmission.verdicts) := by
  induction ts with
  | nil => rfl
  | cons t ts ih =>
    have hfirst : decode none (t.received.map .byte ++ [.timeout]) = (none, t.verdicts) :=
      (h t (List.mem_cons_self ..)).answered.1
    have hsplit : noisyLine (t :: ts) = (t.received.map .byte ++ [.timeout]) ++ noisyLine ts :=
      List.flatMap_cons
    rw [hsplit, decode_append, hfirst, ih fun u hu => h u (List.mem_cons_of_mem _ hu),
      List.flatMap_cons]

section Line
variable (P : Platform σ) (s : Stub σ) {point : InputPoint}

theorem decisions_noisyLine (hpoint : point = .first ∨ point = .returned) (ts : List Transmission)
    (h : ∀ t ∈ ts, t.Noisy) : decisions ((receiveAll P point (noisyLine ts)).run s).2.output =
      decisions s.output ++ (ts.flatMap Transmission.verdicts).flatMap Verdict.render := by
  have hstanding : Standing s.mRequest point none := by
    rcases hpoint with rfl | rfl <;> rfl
  have htop : Within s.mRequest.writeTop s := Nat.le_max_left _ _
  rw [(receiveAll_run P (noisyLine ts) hstanding htop).2.1, decode_noisyLine ts h]

/-- **A noisy line executes what was sent.**  Whatever the stub did before, when it waits for a
packet and a sequence of transmissions follows, each damaged in at most one character, without a new
`#` or a gained NUL, and followed by a pause, then what it acknowledges and executes falls into one
piece for each transmission, in order: nothing, a refusal, or the acknowledgement and execution of
that very packet, with at most a refusal of what trails it. -/
theorem noisy_line (hpoint : point = .first ∨ point = .returned) (ts : List Transmission)
    (h : ∀ t ∈ ts, t.Noisy) :
    ∃ answers, List.Forall₂ (fun t : Transmission => AnswerTo t.payload) ts answers ∧
      decisions ((receiveAll P point (noisyLine ts)).run s).2.output =
        decisions s.output ++ answers.flatten.flatMap Verdict.render := by
  refine ⟨ts.map Transmission.verdicts, ?_, ?_⟩
  · rw [List.forall₂_map_right_iff, List.forall₂_same]
    exact fun t ht => (h t ht).answered.2
  · rw [decisions_noisyLine P s hpoint ts h]
    rfl

end Line

/-- A transmission of the query for the reason of a stop. -/
def queryTransmission (received : List UInt8) : Transmission :=
  ⟨text "?", char '3', char 'f', received⟩

theorem wellformed_query : Wellformed (text "?") (char '3') (char 'f') :=
  ⟨by decide, by decide, by decide, by decide, by decide, by decide, by decide⟩

/-- The query with another character for its `?`, and intact. -/
theorem noisy_query : ∀ t ∈ [queryTransmission (text "$>#3f"), queryTransmission (text "$?#3f")],
    t.Noisy := by
  intro t ht
  rcases List.mem_cons.mp ht with rfl | ht
  · exact ⟨wellformed_query, .changed [char '$'] (char '?') (char '>') (text "#3f") (by decide)⟩
  · rw [List.mem_singleton.mp ht]
    exact ⟨wellformed_query, .intact _⟩

/-- The theorem at these two. -/
theorem noisy_line_query :
    ∃ answers, List.Forall₂ (fun t : Transmission => AnswerTo t.payload)
        [queryTransmission (text "$>#3f"), queryTransmission (text "$?#3f")] answers ∧
      decisions ((receiveAll flatPlatform .first (noisyLine [queryTransmission (text "$>#3f"),
          queryTransmission (text "$?#3f")])).run (Stub.initial ⟨fun _ => 0x90, []⟩)).2.output =
        decisions (Stub.initial (⟨fun _ => 0x90, []⟩ : FlatMachine)).output ++
          answers.flatten.flatMap Verdict.render :=
  noisy_line flatPlatform _ (Or.inl rfl) _ noisy_query

/-! ## Retransmission -/

/-- The payloads of the commands that were executed. -/
def commandsOf (output : List Output) : List (List UInt8) := output.filterMap fun
  | .command payload => some payload
  | _ => none

/-- The stub says `+` to a transmission. -/
def Transmission.Acknowledged (t : Transmission) : Prop :=
  .ack true ∈ t.verdicts.flatMap Verdict.render

/-- A packet that is sent again until it is acknowledged: the transmissions that got no `+`, and the
one that did. -/
structure Request where
  attempts : List Transmission
  last : Transmission

/-- The transmissions are of one packet, each damaged in at most one character, without a new
`#`. -/
structure Request.Retried (r : Request) : Prop where
  noisy : ∀ t ∈ r.attempts ++ [r.last], t.Noisy
  same : ∀ t ∈ r.attempts, t.payload = r.last.payload
  failed : ∀ t ∈ r.attempts, ¬ t.Acknowledged
  received : r.last.Acknowledged

/-- What is executed of a transmission is what is acknowledged. -/
theorem commands_of_answered {t : Transmission} (h : t.Noisy) :
    (t.Acknowledged ∧ commandsOf (t.verdicts.flatMap Verdict.render) = [t.payload]) ∨
      (¬ t.Acknowledged ∧ commandsOf (t.verdicts.flatMap Verdict.render) = []) := by
  have hanswered := h.answered.2
  rw [Transmission.Acknowledged]
  generalize t.verdicts = vs at hanswered ⊢
  cases hanswered with
  | unheard => exact Or.inr ⟨List.not_mem_nil, rfl⟩
  | refused => exact Or.inr ⟨by simp [Verdict.render], rfl⟩
  | executed => exact Or.inl ⟨by simp [Verdict.render], rfl⟩
  | trailed => exact Or.inl ⟨by simp [Verdict.render], rfl⟩

theorem commandsOf_append (a b : List Output) :
    commandsOf (a ++ b) = commandsOf a ++ commandsOf b :=
  List.filterMap_append

theorem commandsOf_decisions (output : List Output) :
    commandsOf (decisions output) = commandsOf output := by
  induction output with
  | nil => rfl
  | cons o output ih =>
    rw [decisions] at ih
    cases o with
    | packet bs => exact ih
    | ack b => exact ih
    | command p => exact congrArg (p :: ·) ih

theorem commands_attempts {ts : List Transmission} (hnoisy : ∀ t ∈ ts, t.Noisy)
    (hfailed : ∀ t ∈ ts, ¬ t.Acknowledged) :
    commandsOf ((ts.flatMap Transmission.verdicts).flatMap Verdict.render) = [] := by
  induction ts with
  | nil => rfl
  | cons t ts ih =>
    rw [List.flatMap_cons, List.flatMap_append, commandsOf_append,
      ih (fun u hu => hnoisy u (List.mem_cons_of_mem _ hu)) fun u hu =>
      hfailed u (List.mem_cons_of_mem _ hu)]
    rcases commands_of_answered (hnoisy t (List.mem_cons_self ..)) with ⟨hacknowledged,
      -⟩ | ⟨-, hnone⟩
    · exact absurd hacknowledged (hfailed t (List.mem_cons_self ..))
    · rw [hnone]
      rfl

/-- The transmissions of a session. -/
def transmissions (rs : List Request) : List Transmission :=
  rs.flatMap fun r => r.attempts ++ [r.last]

theorem noisy_transmissions {rs : List Request} (h : ∀ r ∈ rs, r.Retried) :
    ∀ t ∈ transmissions rs, t.Noisy := by
  intro t ht
  obtain ⟨r, hr, ht⟩ := List.mem_flatMap.mp ht
  exact (h r hr).noisy t ht

theorem commands_transmissions {rs : List Request} (h : ∀ r ∈ rs, r.Retried) :
    commandsOf (((transmissions rs).flatMap Transmission.verdicts).flatMap Verdict.render) =
      rs.map fun r => r.last.payload := by
  induction rs with
  | nil => rfl
  | cons r rs ih =>
    have hr := h r (List.mem_cons_self ..)
    have hlast := hr.noisy r.last (List.mem_append_right _ (List.mem_singleton_self _))
    have hsplit : transmissions (r :: rs) = r.attempts ++ r.last :: transmissions rs := by
      simp [transmissions]
    rw [hsplit, List.flatMap_append, List.flatMap_cons, List.flatMap_append, List.flatMap_append,
      commandsOf_append, commandsOf_append,
      commands_attempts (fun t ht => hr.noisy t (List.mem_append_left _ ht)) hr.failed,
      ih fun q hq => h q (List.mem_cons_of_mem _ hq)]
    rcases commands_of_answered hlast with ⟨-, hone⟩ | ⟨hnot, -⟩
    · rw [hone]
      rfl
    · exact absurd hr.received hnot

/-- **Retransmission over a noisy line is exactly once.**  When each packet is sent again until it
is acknowledged, and each transmission is damaged in at most one character, without a new `#` or a
gained NUL, and followed by a pause, the stub executes every packet once, in order, and nothing
else. -/
theorem retransmission_exactly_once (P : Platform σ) (s : Stub σ) {point : InputPoint}
    (hpoint : point = .first ∨ point = .returned) (rs : List Request) (h : ∀ r ∈ rs, r.Retried) :
    commandsOf ((receiveAll P point (noisyLine (transmissions rs))).run s).2.output =
      commandsOf s.output ++ rs.map fun r => r.last.payload := by
  rw [← commandsOf_decisions, decisions_noisyLine P s hpoint _ (noisy_transmissions h),
    commandsOf_append, commandsOf_decisions, commands_transmissions h]

/-- The query, damaged once and sent again. -/
def retriedQuery : Request := ⟨[queryTransmission (text "$>#3f")], queryTransmission (text "$?#3f")⟩

theorem retransmission_exactly_once_query :
    commandsOf ((receiveAll flatPlatform .first (noisyLine (transmissions [retriedQuery]))).run
        (Stub.initial ⟨fun _ => 0x90, []⟩)).2.output =
      commandsOf (Stub.initial (⟨fun _ => 0x90, []⟩ : FlatMachine)).output ++
        [retriedQuery].map fun r => r.last.payload :=
  retransmission_exactly_once flatPlatform _ (Or.inl rfl) _ fun r hr => by
    rw [List.mem_singleton.mp hr]
    refine ⟨noisy_query, fun t ht => ?_, fun t ht => ?_, ?_⟩
    · rw [List.mem_singleton.mp ht]
      rfl
    · rw [List.mem_singleton.mp ht, Transmission.Acknowledged]
      decide +kernel
    · show Output.ack true ∈ (queryTransmission (text "$?#3f")).verdicts.flatMap Verdict.render
      decide +kernel

end UefiDebugger
