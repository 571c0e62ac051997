import ExactCalc.Proofs.Decimal.Render

/-!
Decimal literals as a grammar. A literal has a sign, which may be missing, digits, and a point with
the other digits behind it, which may be missing too; it has one digit at least. The reader takes
the literals between blanks and nothing else, and it takes back the text of every decimal that has
one with its digits, its scale and its sign and not only as a decimal of the same number.
-/

namespace ExactCalc.Decimal

open Text Numeral

/-! ### The grammar -/

inductive Sign where
  | none
  | plus
  | minus
  deriving DecidableEq

def Sign.text : Sign → List Char
  | none => []
  | plus => ['+']
  | minus => ['-']

/-- A point and the digits behind it, if there is one. -/
def pointText : Option (List Char) → List Char
  | none => []
  | some fraction => '.' :: fraction

structure Literal where
  sign : Sign
  whole : List Char
  fraction? : Option (List Char)
  sides : Sides whole (fraction?.getD [])

namespace Literal

def fraction (l : Literal) : List Char :=
  l.fraction?.getD []

def text (l : Literal) : List Char :=
  l.sign.text ++ (l.whole ++ pointText l.fraction?)

/-- All digits are the mantissa and those behind the point are counted. -/
def decimal (l : Literal) : Decimal :=
  ofParts (l.sign = .minus) (Nat.ofDigitChars 10 (l.whole ++ l.fraction) 0) l.fraction.length

theorem isDigit_or_point_of_mem (l : Literal) :
    ∀ c ∈ l.whole ++ pointText l.fraction?, c.isDigit = true ∨ c = '.' := by
  obtain ⟨hwhole, hfraction, -⟩ := l.sides
  refine List.forall_mem_append.2 ⟨fun c hc => .inl (hwhole c hc), ?_⟩
  cases hpoint : l.fraction? with
  | none => exact fun c hc => absurd hc List.not_mem_nil
  | some fraction =>
      rw [hpoint] at hfraction
      exact List.forall_mem_cons.2 ⟨.inr rfl, fun c hc => .inl (hfraction c hc)⟩

/-- The sign is not part of what follows it. -/
theorem splitSign_text (l : Literal) :
    splitSign l.text = (decide (l.sign = .minus), l.whole ++ pointText l.fraction?) := by
  rw [text]
  cases l.sign with
  | none =>
      apply splitSign_of_ne
      all_goals
        intro hhead
        exact absurd (l.isDigit_or_point_of_mem _ (List.mem_of_head? hhead)) (by decide)
  | plus | minus => rfl

theorem eq_decimal_iff {l : Literal} {d : Decimal} :
    d = l.decimal ↔
      d.mantissa = Nat.ofDigitChars 10 (l.whole ++ l.fraction) 0 ∧ d.scale = l.fraction.length ∧
        (d.isNegative = true ↔ l.sign = .minus ∧ d.mantissa ≠ 0) := by
  constructor
  · rintro rfl
    refine ⟨rfl, rfl, ?_⟩
    rw [decimal, isNegative_ofParts, decide_eq_true_iff, mantissa_ofParts]
  · rintro ⟨hmantissa, hscale, hsign⟩
    refine eq_of_parts (Bool.eq_iff_iff.2 ?_) hmantissa hscale
    rw [decimal, isNegative_ofParts, decide_eq_true_iff, ← hmantissa]
    exact hsign

end Literal

/-! ### The reader -/

theorem exists_sign (cs : List Char) :
    ∃ sign : Sign, cs = sign.text ++ (splitSign cs).2 ∧
      (splitSign cs).1 = decide (sign = .minus) := by
  rw [splitSign.eq_def]
  split
  · exact ⟨.minus, rfl, rfl⟩
  · exact ⟨.plus, rfl, rfl⟩
  · exact ⟨.none, rfl, rfl⟩

/-- A text is cut at its first point. -/
theorem exists_pointText (cs : List Char) :
    ∃ (whole : List Char) (fraction? : Option (List Char)),
      cs = whole ++ pointText fraction? ∧ '.' ∉ whole := by
  by_cases hpoint : '.' ∈ cs
  · obtain ⟨whole, fraction, htext, hfirst⟩ := List.eq_append_cons_of_mem hpoint
    exact ⟨whole, some fraction, htext, hfirst⟩
  · exact ⟨cs, none, (List.append_nil cs).symm, hpoint⟩

theorem splitPoint_pointText {whole : List Char} (hpoint : '.' ∉ whole)
    (fraction? : Option (List Char)) :
    splitPoint (whole ++ pointText fraction?) = (whole, fraction?.getD []) := by
  cases fraction? with
  | none => rw [pointText, List.append_nil, splitPoint_of_not_mem hpoint, Option.getD_none]
  | some fraction => exact splitPoint_append hpoint fraction

/-- The reader takes the literals between blanks whose digits behind the point can be counted. -/
theorem literal?_eq_some_iff {cs : List Char} {d : Decimal} :
    literal? cs = some d ↔
      ∃ l : Literal, trim cs = l.text ∧ l.fraction.length ≤ maxScale ∧ d = l.decimal := by
  rw [← literal?_trim, literal?_of_trim_eq (trim_trim cs), Option.map_eq_some_iff]
  constructor
  · rintro ⟨⟨mantissa, scale⟩, hparts, rfl⟩
    obtain ⟨sign, htext, hsign⟩ := exists_sign (trim cs)
    obtain ⟨whole, fraction?, hbody, hpoint⟩ := exists_pointText (splitSign (trim cs)).2
    rw [hbody, unsigned?_iff_of_splitPoint (splitPoint_pointText hpoint _)] at hparts
    obtain ⟨hsides, hmax, rfl, rfl⟩ := hparts
    rw [hbody] at htext
    rw [hsign]
    exact ⟨⟨sign, whole, fraction?, hsides⟩, htext, hmax, rfl⟩
  · rintro ⟨l, htext, hmax, rfl⟩
    have hsplit := splitPoint_pointText (not_point_mem l.sides.1) l.fraction?
    rw [htext, l.splitSign_text]
    exact ⟨_, (unsigned?_iff_of_splitPoint hsplit).2 ⟨l.sides, hmax, rfl, rfl⟩, rfl⟩

theorem parse_eq_ok_iff {text : String} {d : Decimal} :
    parse text = .ok d ↔ literal? text.toList = some d := by
  rw [← toOption_parse, toOption_eq_some_iff]

/-- The parts of a decimal whose sign is checked pass the check again. -/
theorem ofParts_ofParts (negative : Bool) (mantissa scale : Nat) :
    ofParts (ofParts negative mantissa scale).isNegative mantissa scale =
      ofParts negative mantissa scale :=
  ofParts_isNegative_ofParts negative id scale scale

/-- What is read is a literal between blanks, and its digits, the number of those behind its point
and its sign are the mantissa, the scale and the sign of the decimal. A decimal whose scale zeros
can be filled up to has a text, which is read as that very decimal. -/
theorem literals_read :
    (∀ (text : String) (d : Decimal), parse text = .ok d ↔
      ∃ l : Literal, trim text.toList = l.text ∧ l.fraction.length < 2 ^ 32 ∧
        d.mantissa = Nat.ofDigitChars 10 (l.whole ++ l.fraction) 0 ∧
        d.scale = l.fraction.length ∧
        (d.isNegative = true ↔ l.sign = .minus ∧ d.mantissa ≠ 0)) ∧
    ∀ (negative : Bool) (mantissa scale : Nat), scale < maxPadding →
      ∃ printed, (ofParts negative mantissa scale).render? = some printed ∧
        parse printed = .ok (ofParts negative mantissa scale) := by
  have hmax {n : Nat} : n ≤ maxScale ↔ n < 2 ^ 32 := Nat.le_sub_one_iff_lt (by decide)
  constructor
  · intro text d
    simp only [parse_eq_ok_iff, literal?_eq_some_iff, hmax, Literal.eq_decimal_iff]
  · intro negative mantissa scale hscale
    obtain ⟨printed, hprinted⟩ := exists_render? (d := ofParts negative mantissa scale) hscale
    refine ⟨printed, hprinted, ?_⟩
    rw [parse_eq_ok_iff, literal?_of_render? hprinted]
    exact congrArg some (ofParts_ofParts negative mantissa scale)

/-- A zero keeps its scale and loses its sign, and zeros are put in front of a mantissa that is
shorter than the scale. -/
theorem literals_read_of_zeros :
    let zero := ofParts true 0 2
    let small := ofParts true 5 3
    (∃ l : Literal, trim " -.00\n".toList = l.text ∧ l.sign = .minus ∧
      parse " -.00\n" = .ok zero) ∧
    zero.isNegative = false ∧
    3 < maxPadding ∧ small.render? = some "-0.005" ∧ parse "-0.005" = .ok small := by
  intro zero small
  let l : Literal := ⟨.minus, [], some ['0', '0'], ⟨nofun, List.forall_iff_forall_mem.1 (by decide),
    .inr (by decide)⟩⟩
  have htext : trim " -.00\n".toList = l.text := by decide
  have hread : parse " -.00\n" = .ok zero :=
    (literals_read.1 _ zero).2 ⟨l, htext, by decide, by decide, by decide, by decide⟩
  obtain ⟨printed, hprinted, hback⟩ := literals_read.2 true 5 3 (by decide)
  have hsmall : small.render? = some "-0.005" := by decide
  obtain rfl : "-0.005" = printed := Option.some.inj (hsmall.symm.trans hprinted)
  exact ⟨⟨l, htext, rfl, hread⟩, rfl, by decide, hsmall, hback⟩

end ExactCalc.Decimal
