import ExactCalc.Proofs.Calculator.Arithmetic
import ExactCalc.Proofs.Calculator.Specifier
import ExactCalc.Proofs.Word.Operand
import ExactCalc.Proofs.Word.Render
import ExactCalc.Proofs.Word.Widths

/-!
Runs that are broken off. The text of a result is put together at the end, where all operands are
read and nothing is at fault, so a run that is broken off has a result. On words it is one of too
many bits in binary digits, and how many there are is known from the command and the width of the
operands. On rationals it is an expansion of too many digits.
-/

namespace ExactCalc

open Numeral

namespace Word

variable {text : String} {width : Nat} {a : Word}

theorem width_of_parseOperand (h : parseOperand text width = .ok a) : a.width = width := by
  cases width with
  | zero => exact absurd h parseOperand_zero_ne_ok
  | succ width =>
      obtain ⟨i, -, rfl⟩ := (parseOperand_eq_ok_iff width.succ_pos).1 h
      rfl

end Word

namespace WordCommand

/-- The style in which a command prints. -/
def printedStyle (output : WordOutput) : WordCommand → Except Fault Word.Style
  | format _ spec => Word.Style.parse spec
  | _ => .ok output.style

/-- The width of the word that a command prints. The order of two words is not one. -/
def printedWidth? (width : Nat) : WordCommand → Option Nat
  | compare _ _ => none
  | extract _ high low => some (high - low + 1)
  | extend _ extra | signExtend _ extra => some (width + extra)
  | resize _ width => some width
  | _ => some width

/-- The result is to be printed in more binary digits than zeros can be filled up to. -/
def Unprintable (command : WordCommand) (output : WordOutput) : Prop :=
  command.printedStyle output = .ok .binary ∧
    ∃ width, command.printedWidth? output.width = some width ∧ maxPadding < width

variable {command : WordCommand} {output : WordOutput} {value lhs rhs spec : String} {width : Nat}

/-- A run that prints a word of a known width is broken off exactly where there is a word and the
width is too great. -/
theorem run_eq_none_iff_of_map {result : Except Fault Word} {style : Word.Style} {signed : Bool}
    (hrun : command.run output = result.map fun a => a.renderAs? style signed)
    (hstyle : command.printedStyle output = .ok style)
    (hprinted : command.printedWidth? output.width = some width)
    (hwidth : ∀ a, result = .ok a → a.width = width) :
    command.run output = .ok none ↔
      (∃ text?, command.run output = .ok text?) ∧ command.Unprintable output := by
  rw [hrun, Unprintable, hstyle, hprinted]
  cases result with
  | error fault => simp [Except.map]
  | ok a => simp [Except.map, Word.renderAs?_eq_none_iff, hwidth a rfl]

theorem unary_eq_map (output : WordOutput) (value : String)
    (operation : Word → Except Fault Word) :
    unary output value operation =
      (Word.parseOperand value output.width >>= operation).map output.render? := by
  rw [unary]
  cases Word.parseOperand value output.width with
  | error fault => rfl
  | ok a =>
      cases hresult : operation a <;>
        simp [bind, Except.bind, Except.map, hresult, pure, Except.pure]

theorem binary_eq_map (output : WordOutput) (lhs rhs : String)
    (operation : Word → Word → Except Fault Word) :
    binary output lhs rhs operation =
      (do
        let a ← Word.parseOperand lhs output.width
        let b ← Word.parseOperand rhs output.width
        operation a b).map output.render? := by
  rw [binary]
  cases Word.parseOperand lhs output.width with
  | error fault => rfl
  | ok a =>
      cases Word.parseOperand rhs output.width with
      | error fault => rfl
      | ok b =>
          cases hresult : operation a b <;>
            simp [bind, Except.bind, Except.map, hresult, pure, Except.pure]

theorem run_eq_none_iff_of_unary (op : Word.Unary)
    (hrun : command.run output = unary output value op.apply)
    (hstyle : command.printedStyle output = .ok output.style)
    (hprinted : command.printedWidth? output.width = some (op.resultWidth output.width)) :
    command.run output = .ok none ↔
      (∃ text?, command.run output = .ok text?) ∧ command.Unprintable output := by
  refine run_eq_none_iff_of_map (hrun.trans (unary_eq_map output value op.apply)) hstyle hprinted
    fun b hb => ?_
  obtain ⟨a, hread, happly⟩ := bind_eq_ok_iff.1 hb
  rw [op.width_of_apply happly, Word.width_of_parseOperand hread]

theorem run_eq_none_iff_of_binary {operation : Word → Word → Except Fault Word}
    (hrun : command.run output = binary output lhs rhs operation)
    (hstyle : command.printedStyle output = .ok output.style)
    (hprinted : command.printedWidth? output.width = some output.width)
    (hwidth : ∀ {a b c}, operation a b = .ok c → c.width = a.width) :
    command.run output = .ok none ↔
      (∃ text?, command.run output = .ok text?) ∧ command.Unprintable output := by
  refine run_eq_none_iff_of_map (hrun.trans (binary_eq_map output lhs rhs operation)) hstyle
    hprinted fun c hc => ?_
  obtain ⟨a, hread, hc⟩ := bind_eq_ok_iff.1 hc
  obtain ⟨b, -, happly⟩ := bind_eq_ok_iff.1 hc
  rw [hwidth happly, Word.width_of_parseOperand hread]

theorem run_compare_ne_none : (compare lhs rhs).run output ≠ .ok none := by
  simp only [run, Ne, bind_eq_ok_iff]
  rintro ⟨a, -, b, -, ordering, -, hprinted⟩
  cases hprinted

theorem run_format_eq_none_iff : (format value spec).run output = .ok none ↔
    (∃ text?, (format value spec).run output = .ok text?) ∧
      (format value spec).Unprintable output := by
  cases hspec : Word.Style.parse spec with
  | error fault =>
      have hrefused (text? : Option String) : (format value spec).run output ≠ .ok text? := by
        simp [run, Word.format, hspec, bind_eq_ok_iff, Except.map]
      exact iff_of_false (hrefused none) fun h => h.1.elim hrefused
  | ok style =>
      exact run_eq_none_iff_of_map (run_format value spec output hspec) hspec rfl fun a ha =>
        Word.width_of_parseOperand ha

theorem run_resize (value : String) (width : Nat) (output : WordOutput) :
    (resize value width).run output =
      unary output value (Word.Unary.resize width output.signed).apply := by
  rw [run]
  cases output.signed <;> rfl

/-- A run without a fault is broken off exactly where its result is not printable. -/
theorem run_eq_none_iff (command : WordCommand) (output : WordOutput) :
    command.run output = .ok none ↔
      (∃ text?, command.run output = .ok text?) ∧ command.Unprintable output := by
  cases command with
  | add lhs rhs => exact run_eq_none_iff_of_binary rfl rfl rfl (Word.Binary.width_of_apply .add)
  | sub lhs rhs => exact run_eq_none_iff_of_binary rfl rfl rfl (Word.Binary.width_of_apply .sub)
  | mul lhs rhs => exact run_eq_none_iff_of_binary rfl rfl rfl (Word.Binary.width_of_apply .mul)
  | and lhs rhs => exact run_eq_none_iff_of_binary rfl rfl rfl (Word.Binary.width_of_apply .and)
  | or lhs rhs => exact run_eq_none_iff_of_binary rfl rfl rfl (Word.Binary.width_of_apply .or)
  | xor lhs rhs => exact run_eq_none_iff_of_binary rfl rfl rfl (Word.Binary.width_of_apply .xor)
  | udiv lhs rhs => exact run_eq_none_iff_of_binary rfl rfl rfl (Word.Division.width_of_apply .udiv)
  | urem lhs rhs => exact run_eq_none_iff_of_binary rfl rfl rfl (Word.Division.width_of_apply .urem)
  | sdiv lhs rhs => exact run_eq_none_iff_of_binary rfl rfl rfl (Word.Division.width_of_apply .sdiv)
  | srem lhs rhs => exact run_eq_none_iff_of_binary rfl rfl rfl (Word.Division.width_of_apply .srem)
  | smod lhs rhs => exact run_eq_none_iff_of_binary rfl rfl rfl (Word.Division.width_of_apply .smod)
  | not value => exact run_eq_none_iff_of_unary .not rfl rfl rfl
  | shiftLeft value distance => exact run_eq_none_iff_of_unary (.shiftLeft distance) rfl rfl rfl
  | shiftRight value distance =>
      exact run_eq_none_iff_of_unary (.shiftRight distance output.signed) rfl rfl rfl
  | rotateLeft value distance => exact run_eq_none_iff_of_unary (.rotateLeft distance) rfl rfl rfl
  | rotateRight value distance => exact run_eq_none_iff_of_unary (.rotateRight distance) rfl rfl rfl
  | extract value high low => exact run_eq_none_iff_of_unary (.extract high low) rfl rfl rfl
  | extend value extra => exact run_eq_none_iff_of_unary (.extend extra false) rfl rfl rfl
  | signExtend value extra => exact run_eq_none_iff_of_unary (.extend extra true) rfl rfl rfl
  | resize value width =>
      exact run_eq_none_iff_of_unary (.resize width output.signed) (run_resize value width output)
        rfl rfl
  | compare lhs rhs =>
      refine iff_of_false run_compare_ne_none ?_
      rintro ⟨-, -, width, hprinted, -⟩
      exact nomatch hprinted
  | format value spec => exact run_format_eq_none_iff

end WordCommand

namespace RationalCommand

/-- The result of a calculation is to be printed in more digits than zeros can be filled up to. The
other commands print no expansion to the scale in force. -/
def Unprintable (command : RationalCommand) (output : RationalOutput) : Prop :=
  ∃ (calculation : Calculation String) (values : Calculation ℚ) (q : ℚ),
    calculation.command = command ∧ calculation.Reads values ∧ values.exact = .ok q ∧
      ¬output.Printable q

variable {output : RationalOutput} {value lhs rhs spec : String}

theorem unprintable_of_run (calculation : Calculation String)
    (h : calculation.command.run output = .ok none) : calculation.command.Unprintable output := by
  obtain ⟨values, q, hreads, hexact⟩ := Calculation.exists_reads_of_run h
  refine ⟨calculation, values, q, rfl, hreads, hexact, fun hprintable => ?_⟩
  obtain ⟨text, htext, -⟩ :=
    (Calculation.evaluates_run calculation output).prints values q hreads hexact hprintable
  exact nomatch h.symm.trans htext

theorem run_round_ne_none : (round value).run output ≠ .ok none := by
  simp only [run, Ne, bind_eq_ok_iff]
  rintro ⟨a, -, hprinted⟩
  cases hprinted

theorem run_compare_ne_none : (compare lhs rhs).run output ≠ .ok none := by
  simp only [run, Ne, bind_eq_ok_iff]
  rintro ⟨⟨a, b⟩, -, hprinted⟩
  cases hprinted

/-- The default scale is one that zeros can be filled up to. -/
theorem run_format_ne_none : (format value spec).run output ≠ .ok none := by
  cases hspec : Rational.Style.parse spec with
  | error fault => simp [run, Rational.format, hspec, bind_eq_ok_iff, Except.map]
  | ok style =>
      rw [run_format value spec output hspec]
      cases Rational.parse value with
      | error fault =>
          intro hnone
          cases hnone
      | ok a =>
          have hscale : Decimal.defaultScale < maxPadding := by decide
          let byDefault : RationalOutput := ⟨style, Decimal.defaultScale, output.tieRule⟩
          have hprintable : byDefault.Printable a.toRat :=
            RationalOutput.printable_of_lt hscale a.toRat
          obtain ⟨text, htext⟩ := RationalOutput.exists_render? hprintable
          intro hnone
          cases htext.symm.trans (Except.ok.inj hnone)

/-- A run is broken off exactly where its result is not printable. -/
theorem run_eq_none_iff (command : RationalCommand) (output : RationalOutput) :
    command.run output = .ok none ↔ command.Unprintable output := by
  constructor
  · intro h
    cases command with
    | add lhs rhs => exact unprintable_of_run (.binary .add lhs rhs) h
    | sub lhs rhs => exact unprintable_of_run (.binary .sub lhs rhs) h
    | mul lhs rhs => exact unprintable_of_run (.binary .mul lhs rhs) h
    | div lhs rhs => exact unprintable_of_run (.binary .div lhs rhs) h
    | neg value => exact unprintable_of_run (.unary .neg value) h
    | abs value => exact unprintable_of_run (.unary .abs value) h
    | reciprocal value => exact unprintable_of_run (.unary .reciprocal value) h
    | pow value exponent => exact unprintable_of_run (.unary (.pow exponent) value) h
    | parse value => exact unprintable_of_run (.unary .parse value) h
    | round value => exact absurd h run_round_ne_none
    | compare lhs rhs => exact absurd h run_compare_ne_none
    | format value spec => exact absurd h run_format_ne_none
  · rintro ⟨calculation, values, q, rfl, hreads, hexact, hprintable⟩
    exact (Calculation.evaluates_run calculation output).brokenOff values q hreads hexact hprintable

end RationalCommand

end ExactCalc
