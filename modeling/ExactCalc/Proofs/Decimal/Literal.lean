import ExactCalc.Proofs.Decimal.Value
import ExactCalc.Proofs.Text.Numeral

/-!
A grammar of decimals with a point. Digits may be missing on one side of the point but not on
both. The reader of decimals splits at the first point, and no digit is a point, so it finds the
sides that the grammar speaks of; it gives the number of the grammar as long as the digits after
the point can be counted in a scale.
-/

namespace ExactCalc.Decimal

open Text Numeral

/-- Digits around a point and the number that they spell. -/
inductive Pointed : List Char → ℚ → Prop
  | whole {whole fraction : List Char} {n : Nat} (hwhole : Digits whole n)
      (hfraction : ∀ c ∈ fraction, c.isDigit = true) :
      Pointed (whole ++ '.' :: fraction)
        (n + (Nat.ofDigitChars 10 fraction 0 : ℚ) / 10 ^ fraction.length)
  | fraction {fraction : List Char} {n : Nat} (hfraction : Digits fraction n) :
      Pointed ('.' :: fraction) ((n : ℚ) / 10 ^ fraction.length)

/-- The sides of a point, wherever the digits are. -/
def Sides (whole fraction : List Char) : Prop :=
  (∀ c ∈ whole, c.isDigit = true) ∧ (∀ c ∈ fraction, c.isDigit = true) ∧
    (whole ≠ [] ∨ fraction ≠ [])

theorem ofDigitChars_sides (whole fraction : List Char) :
    (Nat.ofDigitChars 10 (whole ++ fraction) 0 : ℚ) / 10 ^ fraction.length =
      (Nat.ofDigitChars 10 whole 0 : ℚ) +
        (Nat.ofDigitChars 10 fraction 0 : ℚ) / 10 ^ fraction.length := by
  have hpow : (10 : ℚ) ^ fraction.length ≠ 0 := pow_ne_zero _ (by decide)
  rw [Nat.ofDigitChars_append, Nat.ofDigitChars_eq_ofDigitChars_zero, Nat.cast_add, Nat.cast_mul,
    Nat.cast_pow, Nat.cast_ofNat, add_div, mul_div_cancel_left₀ _ hpow]

theorem not_point_mem {cs : List Char} (h : ∀ c ∈ cs, c.isDigit = true) : '.' ∉ cs :=
  fun hmem => absurd (h _ hmem) (by decide)

/-- The point of a text is where its sides meet. -/
theorem pointed_iff {whole fraction : List Char} (hpoint : '.' ∉ whole) {q : ℚ} :
    Pointed (whole ++ '.' :: fraction) q ↔
      Sides whole fraction ∧
        q = (Nat.ofDigitChars 10 (whole ++ fraction) 0 : ℚ) / 10 ^ fraction.length := by
  constructor
  · intro h
    generalize htext : whole ++ '.' :: fraction = text at h
    cases h with
    | @whole whole' fraction' n hwhole hfraction =>
        obtain ⟨rfl, rfl⟩ := split_unique hpoint (not_point_mem hwhole.2.1) htext
        exact ⟨⟨hwhole.2.1, hfraction, .inl hwhole.1⟩, by rw [ofDigitChars_sides, hwhole.2.2]⟩
    | @fraction fraction' n hfraction =>
        obtain ⟨rfl, rfl⟩ := split_unique hpoint (List.not_mem_nil (a := '.')) htext
        exact ⟨⟨by simp, hfraction.2.1, .inr hfraction.1⟩, by rw [List.nil_append, hfraction.2.2]⟩
  · rintro ⟨⟨hwhole, hfraction, hsome⟩, rfl⟩
    by_cases hempty : whole = []
    · subst hempty
      exact .fraction ⟨hsome.resolve_left (fun h => h rfl), hfraction, rfl⟩
    · rw [ofDigitChars_sides]
      exact .whole ⟨hempty, hwhole, rfl⟩ hfraction

/-! ### The reader -/

theorem splitPoint_append {whole : List Char} (hpoint : '.' ∉ whole) (fraction : List Char) :
    splitPoint (whole ++ '.' :: fraction) = (whole, fraction) := by
  rw [splitPoint, takeWhile_ne_append hpoint, dropWhile_ne_append hpoint]
  rfl

theorem splitPoint_of_not_mem {cs : List Char} (hpoint : '.' ∉ cs) : splitPoint cs = (cs, []) := by
  have hall : ∀ c ∈ cs, (c != '.') = true := fun c hc =>
    bne_iff_ne.2 (ne_of_mem_of_not_mem hc hpoint)
  rw [splitPoint, List.takeWhile_eq_self_iff.2 hall, List.dropWhile_eq_nil_iff.2 hall]
  rfl

theorem isDigitsOrEmpty_iff {cs : List Char} :
    isDigitsOrEmpty cs = true ↔ ∀ c ∈ cs, c.isDigit = true := by
  rw [isDigitsOrEmpty, isDigits, ← all_digitValue_iff]
  cases cs <;> simp

theorem sides_iff {whole fraction : List Char} :
    Sides whole fraction ↔
      ¬((whole.isEmpty && fraction.isEmpty) || !isDigitsOrEmpty whole ||
        !isDigitsOrEmpty fraction) = true := by
  rw [Sides, ← isDigitsOrEmpty_iff, ← isDigitsOrEmpty_iff, ← List.isEmpty_eq_false_iff,
    ← List.isEmpty_eq_false_iff]
  cases whole.isEmpty <;> cases fraction.isEmpty <;> cases isDigitsOrEmpty whole <;>
    cases isDigitsOrEmpty fraction <;> decide

/-- The digits on both sides of the point are the mantissa and those after it are counted. -/
theorem unsigned?_iff_of_splitPoint {cs whole fraction : List Char}
    (hsplit : splitPoint cs = (whole, fraction)) {mantissa scale : Nat} :
    unsigned? cs = some (mantissa, scale) ↔
      Sides whole fraction ∧ fraction.length ≤ maxScale ∧
        Nat.ofDigitChars 10 (whole ++ fraction) 0 = mantissa ∧ fraction.length = scale := by
  have hread : unsigned? cs =
      if (whole.isEmpty && fraction.isEmpty) || !isDigitsOrEmpty whole ||
          !isDigitsOrEmpty fraction then none
      else if maxScale < fraction.length then none
      else some (value 10 (whole ++ fraction), fraction.length) := by
    rw [unsigned?, hsplit]
  rw [hread, Option.ite_none_left_eq_some, Option.ite_none_left_eq_some, ← sides_iff, Nat.not_lt,
    Option.some.injEq, Prod.mk.injEq]
  refine and_congr_right fun hsides => ?_
  rw [value_eq_ofDigitChars (List.forall_mem_append.2 ⟨hsides.1, hsides.2.1⟩)]

theorem unsigned?_iff {whole fraction : List Char} (hpoint : '.' ∉ whole) {mantissa scale : Nat} :
    unsigned? (whole ++ '.' :: fraction) = some (mantissa, scale) ↔
      Sides whole fraction ∧ fraction.length ≤ maxScale ∧
        Nat.ofDigitChars 10 (whole ++ fraction) 0 = mantissa ∧ fraction.length = scale :=
  unsigned?_iff_of_splitPoint (splitPoint_append hpoint fraction)

theorem Pointed.point_mem {cs : List Char} {q : ℚ} (h : Pointed cs q) : '.' ∈ cs := by
  cases h with
  | whole hwhole hfraction => exact List.mem_append_cons_self
  | fraction hfraction => exact List.mem_cons_self

theorem Pointed.forall_mem {cs : List Char} {q : ℚ} (h : Pointed cs q) :
    ∀ c ∈ cs, c.isDigit = true ∨ c = '.' := by
  cases h with
  | whole hwhole hfraction =>
      refine List.forall_mem_append.2 ⟨fun c hc => .inl (hwhole.2.1 c hc), ?_⟩
      exact List.forall_mem_cons.2 ⟨.inr rfl, fun c hc => .inl (hfraction c hc)⟩
  | fraction hfraction =>
      exact List.forall_mem_cons.2 ⟨.inr rfl, fun c hc => .inl (hfraction.2.1 c hc)⟩

theorem Pointed.head {cs : List Char} {q : ℚ} (h : Pointed cs q) :
    cs.head? ≠ some '-' ∧ cs.head? ≠ some '+' := by
  constructor
  all_goals
    intro hhead
    exact absurd (h.forall_mem _ (List.mem_of_head? hhead)) (by decide)

theorem point_mem_splitSign {cs : List Char} : '.' ∈ (splitSign cs).2 ↔ '.' ∈ cs := by
  rw [splitSign.eq_def]
  split <;> simp

theorem length_splitSign_le (cs : List Char) : (splitSign cs).2.length ≤ cs.length := by
  rw [splitSign.eq_def]
  split <;> simp

/-- A text without blanks around it is read by its sign and the rest. -/
theorem literal?_of_trim_eq {cs : List Char} (htrim : trim cs = cs) :
    literal? cs = (unsigned? (splitSign cs).2).map fun (mantissa, scale) =>
      ofParts (splitSign cs).1 mantissa scale := by
  rw [literal?, htrim]

theorem literal?_trim (cs : List Char) : literal? (trim cs) = literal? cs := by
  rw [literal?, literal?, trim_trim]

/-- The number that is read is spelled by the text. -/
theorem signed_pointed_of_literal? {cs : List Char} (htrim : trim cs = cs) (hpoint : '.' ∈ cs)
    {d : Decimal} (h : literal? cs = some d) : Signed Pointed cs d.toRat := by
  obtain ⟨whole, fraction, hbody, hfirst⟩ :=
    List.eq_append_cons_of_mem (point_mem_splitSign.2 hpoint)
  rw [literal?_of_trim_eq htrim, hbody, Option.map_eq_some_iff] at h
  obtain ⟨⟨mantissa, scale⟩, hparts, rfl⟩ := h
  obtain ⟨hsides, -, rfl, rfl⟩ := (unsigned?_iff hfirst).1 hparts
  rw [signed_iff fun h => h.head, hbody]
  exact ⟨_, (pointed_iff hfirst).2 ⟨hsides, rfl⟩, toRat_ofParts _ _ _⟩

/-- The number that a text spells is read from it, unless there are too many digits to count. -/
theorem literal?_iff {cs : List Char} (htrim : trim cs = cs) (hpoint : '.' ∈ cs)
    (hlength : cs.length ≤ maxScale) {q : ℚ} :
    (literal? cs).map toRat = some q ↔ Signed Pointed cs q := by
  constructor
  · intro h
    obtain ⟨d, hd, rfl⟩ := Option.map_eq_some_iff.1 h
    exact signed_pointed_of_literal? htrim hpoint hd
  · intro h
    obtain ⟨whole, fraction, hbody, hfirst⟩ :=
      List.eq_append_cons_of_mem (point_mem_splitSign.2 hpoint)
    -- What follows the point is part of the text, so its digits can be counted.
    have hcount : fraction.length ≤ maxScale := by
      have hle := length_splitSign_le cs
      rw [hbody, List.length_append, List.length_cons] at hle
      omega
    rw [signed_iff fun h => h.head, hbody] at h
    obtain ⟨_, hpointed, rfl⟩ := h
    obtain ⟨hsides, rfl⟩ := (pointed_iff hfirst).1 hpointed
    have hparts := (unsigned?_iff hfirst).2 ⟨hsides, hcount, rfl, rfl⟩
    rw [literal?_of_trim_eq htrim, hbody, hparts, Option.map_some, Option.map_some, toRat_ofParts]

/-- A text spells one number. -/
theorem signed_pointed_unique {cs : List Char} {q q' : ℚ} (h : Signed Pointed cs q)
    (h' : Signed Pointed cs q') : q = q' := by
  rw [signed_iff fun h => h.head] at h h'
  obtain ⟨y, hy, rfl⟩ := h
  obtain ⟨y', hy', rfl⟩ := h'
  obtain ⟨whole, fraction, hbody, hfirst⟩ := List.eq_append_cons_of_mem hy.point_mem
  rw [hbody, pointed_iff hfirst] at hy hy'
  rw [hy.2, hy'.2]

end ExactCalc.Decimal
