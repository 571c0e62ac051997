import ExactCalc.Calculator.WordCommand
import ExactCalc.Proofs.Word.Literal
import ExactCalc.Proofs.Word.Operations

/-!
Arithmetic of the calculator on words, from the operands as they are written to the text that is
printed. Decimal operands stand for integers of any size, every step keeps to their classes modulo
`2 ^ width`, and each class has one integer that is printed for it. So what is printed is the sum,
the difference or the product of the integers themselves, brought into the range of the width at the
end, and integers of one class are interchangeable.
-/

namespace ExactCalc

open Text Numeral

variable {width : Nat} {hwidth : 0 < width} {signed : Bool} {r s i x y : Int}

namespace Word

/-- The integer that is printed for the class of another one: with a sign it lies between minus half
the modulus and half of it, without a sign between zero and the modulus. -/
structure Represents (width : Nat) (signed : Bool) (r i : Int) : Prop where
  modEq : r ≡ i [ZMOD 2 ^ width]
  low : (if signed then -2 ^ (width - 1) else 0) ≤ r
  high : r < if signed then 2 ^ (width - 1) else 2 ^ width

/-- The reading of a word lies in the range of its signedness. -/
theorem represents_reading (hwidth : 0 < width) (signed : Bool) (i : Int) :
    Represents width signed ((wrap width hwidth i).reading signed) i := by
  cases signed with
  | false =>
      exact ⟨value_wrap_modEq i, Int.natCast_nonneg _, value_lt_two_pow (wrap width hwidth i)⟩
  | true =>
      obtain ⟨hlow, hhigh⟩ := toInt_bounds (wrap width hwidth i)
      exact ⟨toInt_wrap_modEq i, hlow, hhigh⟩

theorem Represents.reading_eq (hwidth : 0 < width) (h : Represents width signed r i) :
    (wrap width hwidth i).reading signed = r := by
  have hsame := (represents_reading hwidth signed i).modEq.trans h.modEq.symm
  cases signed with
  | false =>
      have hread := represents_reading hwidth false i
      calc ((wrap width hwidth i).reading false)
          = (wrap width hwidth i).reading false % 2 ^ width :=
            (Int.emod_eq_of_lt hread.low hread.high).symm
        _ = r % 2 ^ width := hsame
        _ = r := Int.emod_eq_of_lt h.low h.high
  | true => exact toInt_eq_of_bounds hsame h.low h.high

/-- Each class has one such integer. -/
theorem existsUnique_represents (hwidth : 0 < width) (signed : Bool) (i : Int) :
    ∃! r, Represents width signed r i :=
  ⟨_, represents_reading hwidth signed i, fun _ h => (h.reading_eq hwidth).symm⟩

theorem represents_emod (width : Nat) (i : Int) : Represents width false (i % 2 ^ width) i := by
  have hpos : (0 : Int) < 2 ^ width := Int.pow_pos (by decide)
  exact ⟨Int.mod_modEq i _, Int.emod_nonneg i hpos.ne', Int.emod_lt_of_pos i hpos⟩

end Word

open Word

/-- The sign that is printed for the order of two integers. -/
theorem orderingSymbol_compare (r s : Int) :
    orderingSymbol (Ord.compare r s) = if r < s then "<" else if r = s then "=" else ">" := by
  cases h : Ord.compare r s with
  | lt =>
      rw [if_pos (Int.compare_eq_lt.1 h)]
      rfl
  | eq =>
      obtain rfl := Int.compare_eq_eq.1 h
      rw [if_neg (Int.lt_irrefl r), if_pos rfl]
      rfl
  | gt =>
      have hgt := Int.compare_eq_gt.1 h
      rw [if_neg (Int.lt_asymm hgt), if_neg (Int.ne_of_gt hgt)]
      rfl

namespace WordCommand

variable {lhs rhs lhs' rhs' : String}

/-- An operation on the classes of two operands, and the text of its result. -/
theorem binary_of_integers (hwidth : 0 < width) (hlhs : Integer (trim lhs.toList) x)
    (hrhs : Integer (trim rhs.toList) y) {operation : Word → Word → Except Fault Word}
    (hop : operation (wrap width hwidth x) (wrap width hwidth y) = .ok (wrap width hwidth i))
    (hr : Represents width signed r i) :
    binary ⟨width, signed, .value⟩ lhs rhs operation = .ok (some (toString r)) := by
  have htext : WordOutput.render? ⟨width, signed, .value⟩ (wrap width hwidth i) =
      some (toString r) := by
    rw [← hr.reading_eq hwidth]
    rfl
  rw [binary, parseOperand_of_integer hlhs, parseOperand_of_integer hrhs, ofInt_of_pos hwidth,
    ofInt_of_pos hwidth, ← htext]
  simp only [bind, Except.bind, hop]
  rfl

theorem compare_of_integers (hwidth : 0 < width) (hlhs : Integer (trim lhs.toList) x)
    (hrhs : Integer (trim rhs.toList) y) (hr : Represents width signed r x)
    (hs : Represents width signed s y) (style : Word.Style) :
    (compare lhs rhs).run ⟨width, signed, style⟩ =
      .ok (some (if r < s then "<" else if r = s then "=" else ">")) := by
  have hsame : (wrap width hwidth x).width = (wrap width hwidth y).width := rfl
  have horder : (wrap width hwidth x).order (wrap width hwidth y) signed =
      .ok (Ord.compare r s) := by
    rw [order_of_width_eq hsame, hr.reading_eq hwidth, hs.reading_eq hwidth]
  rw [run, parseOperand_of_integer hlhs, parseOperand_of_integer hrhs, ofInt_of_pos hwidth,
    ofInt_of_pos hwidth, ← orderingSymbol_compare]
  simp only [bind, Except.bind, horder]
  rfl

/-- Integers of one class are one operand. -/
theorem parseOperand_congr (hwidth : 0 < width) (h : Integer (trim lhs.toList) x)
    (h' : Integer (trim lhs'.toList) y) (hclass : x ≡ y [ZMOD 2 ^ width]) :
    parseOperand lhs width = parseOperand lhs' width := by
  rw [parseOperand_of_integer h, parseOperand_of_integer h', ofInt_of_pos hwidth,
    ofInt_of_pos hwidth, wrap_eq_wrap_iff.2 hclass]

/-- Each of the four commands depends on its operands as words. -/
theorem run_congr {output : WordOutput}
    (hlhs : parseOperand lhs output.width = parseOperand lhs' output.width)
    (hrhs : parseOperand rhs output.width = parseOperand rhs' output.width)
    {command : String → String → WordCommand} (hcommand : command ∈ [add, sub, mul, compare]) :
    (command lhs rhs).run output = (command lhs' rhs').run output := by
  simp only [List.mem_cons, List.not_mem_nil, or_false] at hcommand
  rcases hcommand with rfl | rfl | rfl | rfl
  all_goals simp only [run, binary, hlhs, hrhs]

/-- What is printed for a sum, a difference or a product is the integer of its class in the range
of the width and the signedness, two operands are compared by those integers, and another integer
of the same class in the place of an operand changes nothing, in whichever style results are
printed. -/
theorem run_residues (hwidth : 0 < width) (hlhs : Integer (trim lhs.toList) x)
    (hrhs : Integer (trim rhs.toList) y) (signed : Bool) :
    (∀ i, (∃! r, Represents width signed r i) ∧ Represents width false (i % 2 ^ width) i) ∧
    (∀ r, Represents width signed r (x + y) →
      (add lhs rhs).run ⟨width, signed, .value⟩ = .ok (some (toString r))) ∧
    (∀ r, Represents width signed r (x - y) →
      (sub lhs rhs).run ⟨width, signed, .value⟩ = .ok (some (toString r))) ∧
    (∀ r, Represents width signed r (x * y) →
      (mul lhs rhs).run ⟨width, signed, .value⟩ = .ok (some (toString r))) ∧
    (∀ r s, Represents width signed r x → Represents width signed s y →
      (compare lhs rhs).run ⟨width, signed, .value⟩ =
        .ok (some (if r < s then "<" else if r = s then "=" else ">"))) ∧
    ∀ {lhs' rhs' : String} {x' y' : Int}, Integer (trim lhs'.toList) x' →
      Integer (trim rhs'.toList) y' → x ≡ x' [ZMOD 2 ^ width] → y ≡ y' [ZMOD 2 ^ width] →
      ∀ command ∈ [add, sub, mul, compare], ∀ style : Word.Style,
        (command lhs' rhs').run ⟨width, signed, style⟩ =
          (command lhs rhs).run ⟨width, signed, style⟩ := by
  refine ⟨fun i => ⟨existsUnique_represents hwidth signed i, represents_emod width i⟩,
    fun r hr => binary_of_integers hwidth hlhs hrhs (add_wrap x y) hr,
    fun r hr => binary_of_integers hwidth hlhs hrhs (sub_wrap x y) hr,
    fun r hr => binary_of_integers hwidth hlhs hrhs (mul_wrap x y) hr,
    fun r s hr hs => compare_of_integers hwidth hlhs hrhs hr hs .value, ?_⟩
  intro lhs' rhs' x' y' hlhs' hrhs' hx hy command hcommand style
  exact run_congr (parseOperand_congr hwidth hlhs' hlhs hx.symm)
    (parseOperand_congr hwidth hrhs' hrhs hy.symm) hcommand

/-- In eight bits `300` is `44`, which is more than `-45` and less than `211`, and `300 - 45` is the
word of ones. -/
theorem run_residues_of_eight_bits :
    0 < 8 ∧ Integer (trim " +300".toList) 300 ∧ Integer (trim "-045".toList) (-45) ∧
      Represents 8 true (-1) (300 + -45) ∧
      (add " +300" "-045").run ⟨8, true, .value⟩ = .ok (some "-1") ∧
      (compare " +300" "-045").run ⟨8, true, .value⟩ = .ok (some ">") ∧
      (compare " +300" "-045").run ⟨8, false, .value⟩ = .ok (some "<") ∧
      Integer (trim "44".toList) 44 ∧ Integer (trim "211".toList) 211 ∧
      300 ≡ 44 [ZMOD 2 ^ 8] ∧ -45 ≡ 211 [ZMOD 2 ^ 8] ∧
      (mul "44" "211").run ⟨8, true, .hex⟩ = (mul " +300" "-045").run ⟨8, true, .hex⟩ := by
  have hlhs : Integer (trim " +300".toList) 300 := integer?_iff.1 (by decide)
  have hrhs : Integer (trim "-045".toList) (-45) := integer?_iff.1 (by decide)
  have hlhs' : Integer (trim "44".toList) 44 := integer?_iff.1 (by decide)
  have hrhs' : Integer (trim "211".toList) 211 := integer?_iff.1 (by decide)
  have hsum : Represents 8 true (-1) (300 + -45) := ⟨by decide, by decide, by decide⟩
  have hx : 300 ≡ 44 [ZMOD 2 ^ 8] := by decide
  have hy : -45 ≡ 211 [ZMOD 2 ^ 8] := by decide
  have hwidth : 0 < 8 := by decide
  obtain ⟨-, hadd, -, -, hcompare, hcongr⟩ := run_residues hwidth hlhs hrhs true
  obtain ⟨-, -, -, -, hcompare', -⟩ := run_residues hwidth hlhs hrhs false
  refine ⟨hwidth, hlhs, hrhs, hsum, hadd (-1) hsum, ?_, ?_, hlhs', hrhs', hx, hy,
    hcongr hlhs' hrhs' hx hy mul (by simp) .hex⟩
  · exact hcompare 44 (-45) ⟨by decide, by decide, by decide⟩ ⟨by decide, by decide, by decide⟩
  · exact hcompare' 44 211 ⟨by decide, by decide, by decide⟩ ⟨by decide, by decide, by decide⟩

end WordCommand

end ExactCalc
