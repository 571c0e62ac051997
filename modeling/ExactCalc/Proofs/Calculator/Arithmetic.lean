import ExactCalc.Calculator.RationalCommand
import ExactCalc.Proofs.Decimal.Normal
import ExactCalc.Proofs.Rational.Agreement
import ExactCalc.Proofs.Rational.Power
import ExactCalc.Proofs.Rational.Render
import Mathlib.Algebra.Ring.GeomSum

/-!
Arithmetic of the calculator on rationals, from the operands as they are written to the text that is
printed. A calculation is an operation with its operands, which are texts on the command line,
structures while it runs and numbers in the statements. The operands are read from the left, the
operation is exact, and what is printed is read again as the result, or as its expansion in the
decimal style. So all that counts of an operand is its number. An expansion with too many digits is
not printed: the run is broken off, although there is a result and nothing is at fault.
-/

namespace ExactCalc

open Numeral

/-- The number that a text is read as, or why it is not read. -/
def Rational.valueOf (text : String) : Except Fault ℚ :=
  (Rational.parse text).map Rational.toRat

inductive UnaryOperation where
  | neg
  | abs
  | reciprocal
  | pow (exponent : Int)
  | parse
  deriving DecidableEq

inductive BinaryOperation where
  | add
  | sub
  | mul
  | div
  deriving DecidableEq

inductive Calculation (α : Type) where
  | unary (operation : UnaryOperation) (value : α)
  | binary (operation : BinaryOperation) (lhs rhs : α)

namespace Calculation

variable {α β γ : Type}

def operands : Calculation α → List α
  | unary _ value => [value]
  | binary _ lhs rhs => [lhs, rhs]

def map (f : α → β) : Calculation α → Calculation β
  | unary operation value => unary operation (f value)
  | binary operation lhs rhs => binary operation (f lhs) (f rhs)

/-- Calculations that agree by a function on the operands agree by every function that it decides.
-/
theorem map_eq_map_of_imp {f : α → β} {g : α → γ} (hfg : ∀ x y, f x = f y → g x = g y)
    {calculation calculation' : Calculation α} (h : calculation.map f = calculation'.map f) :
    calculation.map g = calculation'.map g := by
  cases calculation with
  | unary operation value =>
      cases calculation' with
      | unary operation' value' =>
          obtain ⟨rfl, hvalue⟩ := unary.inj h
          exact congrArg (unary operation) (hfg _ _ hvalue)
      | binary operation' lhs' rhs' => contradiction
  | binary operation lhs rhs =>
      cases calculation' with
      | unary operation' value' => contradiction
      | binary operation' lhs' rhs' =>
          obtain ⟨rfl, hlhs, hrhs⟩ := binary.inj h
          exact congrArg₂ (binary operation) (hfg _ _ hlhs) (hfg _ _ hrhs)

def command : Calculation String → RationalCommand
  | unary .neg value => .neg value
  | unary .abs value => .abs value
  | unary .reciprocal value => .reciprocal value
  | unary (.pow exponent) value => .pow value exponent
  | unary .parse value => .parse value
  | binary .add lhs rhs => .add lhs rhs
  | binary .sub lhs rhs => .sub lhs rhs
  | binary .mul lhs rhs => .mul lhs rhs
  | binary .div lhs rhs => .div lhs rhs

/-- The result between numbers, which the zeros that cannot be divided by do not have. -/
def exact : Calculation ℚ → Except Fault ℚ
  | unary .neg p => .ok (-p)
  | unary .abs p => .ok |p|
  | unary .reciprocal p => if p = 0 then .error .reciprocalOfZero else .ok (1 / p)
  | unary (.pow exponent) p =>
      if exponent < 0 ∧ p = 0 then .error .reciprocalOfZero else .ok (p ^ exponent)
  | unary .parse p => .ok p
  | binary .add p q => .ok (p + q)
  | binary .sub p q => .ok (p - q)
  | binary .mul p q => .ok (p * q)
  | binary .div p q => if q = 0 then .error .zeroDivisor else .ok (p / q)

def Reads (calculation : Calculation String) (values : Calculation ℚ) : Prop :=
  calculation.map Rational.valueOf = values.map .ok

end Calculation

/-- A text from which a number is read again, or in the decimal style the number rounded to a whole
number of units of the last digit. -/
def RationalOutput.Prints (output : RationalOutput) (q : ℚ) (text : String) : Prop :=
  match output.style with
  | .fraction | .general => Rational.valueOf text = .ok q
  | .decimal =>
      ∃ n : ℤ, TieRule.toEven.Rounds (q * 10 ^ output.decimalScale) n ∧
        Rational.valueOf text = .ok (n / 10 ^ output.decimalScale)

/-- In the decimal style the rounded number takes no more digits after the point than zeros can be
filled up to. -/
def RationalOutput.Printable (output : RationalOutput) (q : ℚ) : Prop :=
  output.style = .decimal →
    ∀ n : ℤ, TieRule.toEven.Rounds (q * 10 ^ output.decimalScale) n →
      ∃ scale < maxPadding, ∃ k : ℤ, (n : ℚ) / 10 ^ output.decimalScale = k / 10 ^ scale

/-- A result is what a calculation comes to: a text of the exact result, no text where that cannot
be printed, or the first fault from the left, and the fault of the operation only where all
operands are read. -/
structure Evaluates (calculation : Calculation String) (output : RationalOutput)
    (result : Except Fault (Option String)) : Prop where
  isOk_iff : (∃ text, result = .ok (some text)) ↔
    ∃ values q, calculation.Reads values ∧ values.exact = .ok q ∧ output.Printable q
  prints : ∀ values q, calculation.Reads values → values.exact = .ok q → output.Printable q →
    ∃ text, result = .ok (some text) ∧ output.Prints q text
  brokenOff : ∀ values q, calculation.Reads values → values.exact = .ok q → ¬output.Printable q →
    result = .ok none
  unread : ∀ front text back fault, calculation.operands = front ++ text :: back →
    (∀ other ∈ front, ∃ q, Rational.valueOf other = .ok q) → Rational.valueOf text = .error fault →
    result = .error fault
  undefined : ∀ values fault, calculation.Reads values → values.exact = .error fault →
    result = .error fault ∧ fault.kind = .division

namespace Calculation

/-! ### Between structures -/

def apply : Calculation Rational → Except Fault Rational
  | unary .neg a => .ok (-a)
  | unary .abs a => .ok a.abs
  | unary .reciprocal a => a.reciprocal
  | unary (.pow exponent) a => a.pow exponent
  | unary .parse a => .ok a
  | binary .add a b => .ok (a + b)
  | binary .sub a b => .ok (a - b)
  | binary .mul a b => .ok (a * b)
  | binary .div a b => a.div b

theorem map_toRat_apply (calculation : Calculation Rational) :
    calculation.apply.map Rational.toRat = (calculation.map Rational.toRat).exact := by
  cases calculation with
  | unary operation a =>
      cases operation with
      | neg | abs | parse => simp [apply, map, exact, Except.map]
      | reciprocal =>
          simp only [apply, map, exact, Rational.map_toRat_reciprocal, Rational.toRat_eq_zero_iff]
      | pow exponent =>
          simp only [apply, map, exact, Rational.map_toRat_pow, Rational.toRat_eq_zero_iff]
  | binary operation a b =>
      cases operation with
      | add | sub | mul => simp [apply, map, exact, Except.map]
      | div => simp only [apply, map, exact, Rational.map_toRat_div, Rational.toRat_eq_zero_iff]

/-- Only a division can fail. -/
theorem kind_of_exact {values : Calculation ℚ} {fault : Fault} (h : values.exact = .error fault) :
    fault.kind = .division := by
  revert h
  fun_cases exact values
  all_goals rintro ⟨⟩
  all_goals rfl

/-! ### Operands in their order -/

/-- The operands are taken from the left, and the first one that fails ends it. -/
def traverse (f : α → Except Fault β) : Calculation α → Except Fault (Calculation β)
  | unary operation value => do return unary operation (← f value)
  | binary operation lhs rhs => do return binary operation (← f lhs) (← f rhs)

variable {f : α → Except Fault β} {front back : List α} {x : α} {fault : Fault}

theorem traverse_eq_ok_iff {calculation : Calculation α} {results : Calculation β} :
    calculation.traverse f = .ok results ↔ calculation.map f = results.map .ok := by
  cases calculation with
  | unary operation value =>
      cases results <;> cases hvalue : f value <;>
        simp [traverse, map, hvalue, bind, Except.bind, pure, Except.pure]
  | binary operation lhs rhs =>
      cases results <;> cases hlhs : f lhs <;> cases hrhs : f rhs <;>
        simp [traverse, map, hlhs, hrhs, bind, Except.bind, pure, Except.pure]

theorem traverse_map (f : α → Except Fault β) (calculation : Calculation α) :
    (calculation.map f).traverse id = calculation.traverse f := by
  cases calculation <;> rfl

/-- What is done to each result may be done at the end. -/
theorem traverse_comp (f : α → Except Fault β) (g : β → γ) (calculation : Calculation α) :
    calculation.traverse (fun x => (f x).map g) = (calculation.traverse f).map (map g) := by
  cases calculation with
  | unary operation value =>
      rw [traverse, traverse]
      cases f value <;> rfl
  | binary operation lhs rhs =>
      rw [traverse, traverse]
      cases f lhs <;> cases f rhs <;> rfl

theorem traverse_eq_error {calculation : Calculation α}
    (hoperands : calculation.operands = front ++ x :: back)
    (hfront : ∀ y ∈ front, ∃ b, f y = .ok b) (hx : f x = .error fault) :
    calculation.traverse f = .error fault := by
  cases calculation with
  | unary operation value =>
      obtain ⟨rfl, rfl, rfl⟩ : front = [] ∧ x = value ∧ back = [] := by
        simpa [operands, List.cons_eq_append_iff] using hoperands
      simp [traverse, hx, bind, Except.bind]
  | binary operation lhs rhs =>
      cases front with
      | nil =>
          obtain ⟨rfl, rfl⟩ : lhs = x ∧ [rhs] = back := by simpa [operands] using hoperands
          simp [traverse, hx, bind, Except.bind]
      | cons y front =>
          obtain ⟨rfl, rfl, rfl, rfl⟩ : lhs = y ∧ front = [] ∧ x = rhs ∧ back = [] := by
            simpa [operands, List.cons_eq_append_iff] using hoperands
          obtain ⟨b, hb⟩ := hfront lhs List.mem_cons_self
          simp [traverse, hb, hx, bind, Except.bind]

end Calculation

/-! ### Operands as they are written -/

namespace Rational

variable {text text' : String} {q : ℚ} {fault : Fault}

theorem valueOf_eq_ok_iff : valueOf text = .ok q ↔ ∃ a, parse text = .ok a ∧ a.toRat = q :=
  map_toRat_eq_ok_iff

theorem valueOf_eq_error_iff : valueOf text = .error fault ↔ parse text = .error fault :=
  map_toRat_eq_error_iff

/-- Texts of one number are read as one structure. -/
theorem parse_eq_of_valueOf_eq (h : valueOf text = valueOf text') : parse text = parse text' := by
  cases hread : parse text' with
  | error fault => rwa [valueOf_eq_error_iff.2 hread, valueOf_eq_error_iff] at h
  | ok a =>
      rw [valueOf_eq_ok_iff.2 ⟨a, hread, rfl⟩] at h
      exact eq_ok_of_map_toRat h

end Rational

/-! ### Results as they are printed -/

namespace RationalOutput

variable {output : RationalOutput} {a : Rational}

theorem prints_of_render? {text : String} (h : output.render? a = some text) :
    output.Prints a.toRat text := by
  rw [render?] at h
  rw [Prints]
  cases hstyle : output.style with
  | fraction | general =>
      rw [hstyle] at h
      cases h
      exact Rational.valueOf_eq_ok_iff.2 ⟨a, Rational.parse_render a, rfl⟩
  -- The expansion may have fewer digits than the scale, but it is that many units all the same.
  | decimal =>
      rw [hstyle] at h
      refine ⟨(a * Rational.ofInt (10 ^ output.decimalScale)).round .toEven, ?_, ?_⟩
      · rw [← Rational.toRat_mul_ofInt_pow]
        exact Rational.rounds_round _ .toEven
      · rw [Rational.valueOf_eq_ok_iff, ← Rational.toRat_toDecimal, ← Rational.toRat_ofDecimal]
        exact ⟨_, Rational.parse_of_render? h, rfl⟩

/-- The text of a result is missing exactly where its expansion has too many digits. -/
theorem render?_eq_none_iff : output.render? a = none ↔ ¬output.Printable a.toRat := by
  rw [render?, Printable]
  cases output.style with
  | fraction | general => simp [Rational.renderAs?]
  | decimal =>
      have hnormal := Rational.normal_toDecimal a output.decimalScale
      have hvalue := Rational.toRat_toDecimal a output.decimalScale
      rw [Rational.renderAs?, Decimal.render?_eq_none_iff, ← Nat.not_lt, not_iff_not]
      simp only [true_imp_iff, ← Rational.toRat_mul_ofInt_pow, ← Rational.round_eq_iff,
        forall_eq', ← hvalue]
      constructor
      · exact fun hlt => ⟨_, hlt, hnormal.scale_le_iff.1 le_rfl⟩
      · rintro ⟨scale, hlt, hunits⟩
        exact (hnormal.scale_le_iff.2 hunits).trans_lt hlt

theorem exists_render? (h : output.Printable a.toRat) :
    ∃ text, output.render? a = some text := by
  rw [← Option.ne_none_iff_exists', Ne, render?_eq_none_iff]
  exact not_not.2 h

theorem printable_of_lt (h : output.decimalScale < maxPadding) (q : ℚ) : output.Printable q :=
  fun _ n _ => ⟨_, h, n, rfl⟩

/-- The digits of a third go on as far as the scale. -/
theorem not_printable_third (hstyle : output.style = .decimal)
    (hscale : maxPadding ≤ output.decimalScale) : ¬output.Printable (1 / 3) := by
  intro hprintable
  -- The expansion is three times as many units as a row of ones.
  obtain ⟨ones, hones⟩ : (9 : ℤ) ∣ 10 ^ output.decimalScale - 1 := by
    simpa using sub_one_dvd_pow_sub_one (10 : ℤ) output.decimalScale
  have hpow : (10 : ℚ) ^ output.decimalScale = 9 * ones + 1 := by
    have hsum : (10 : ℤ) ^ output.decimalScale = 9 * ones + 1 := by linarith
    exact_mod_cast hsum
  have hrounds : TieRule.toEven.Rounds (1 / 3 * 10 ^ output.decimalScale) (3 * ones) := by
    apply TieRule.Rounds.of_lt
    have hrest : (1 / 3 * 10 ^ output.decimalScale - (3 * ones : ℤ) : ℚ) = 1 / 3 := by
      rw [hpow]
      push_cast
      ring
    rw [hrest]
    norm_num
  obtain ⟨scale, hlt, k, hk⟩ := hprintable hstyle _ hrounds
  obtain ⟨more, hmore⟩ := Nat.exists_eq_add_of_lt (hlt.trans_le hscale)
  -- With fewer digits it would end in a zero.
  have hzero : 3 * ones = k * 10 ^ more * 10 := by
    rw [div_eq_div_iff (by positivity) (by positivity), hmore] at hk
    have hcross : 3 * ones * 10 ^ scale = k * 10 ^ more * 10 * 10 ^ scale := by
      have hcast : 3 * ones * 10 ^ scale = k * 10 ^ (scale + more + 1) := by exact_mod_cast hk
      rw [hcast]
      ring
    exact Int.eq_of_mul_eq_mul_right (by positivity) hcross
  rw [hmore, pow_succ] at hones
  omega

end RationalOutput

/-! ### Runs -/

namespace Calculation

variable {calculation calculation' : Calculation String} {values : Calculation ℚ}
  {output : RationalOutput}

theorem reads_iff : calculation.Reads values ↔
    ∃ structures, calculation.traverse Rational.parse = .ok structures ∧
      structures.map Rational.toRat = values := by
  have hvalues : calculation.traverse Rational.valueOf =
      (calculation.traverse Rational.parse).map (map Rational.toRat) :=
    traverse_comp Rational.parse Rational.toRat calculation
  rw [Reads, ← traverse_eq_ok_iff, hvalues]
  cases calculation.traverse Rational.parse <;> simp [Except.map]

/-- A run reads the operands, carries out the operation and prints. -/
theorem run_command (calculation : Calculation String) (output : RationalOutput) :
    calculation.command.run output =
      (calculation.traverse Rational.parse >>= apply).map output.render? := by
  -- Whichever operands are read, both sides come to the same operation on the same structures.
  cases calculation with
  | unary operation text =>
      cases hread : Rational.parse text <;> cases operation <;>
        simp [command, RationalCommand.run, traverse, apply, hread, bind, Except.bind, pure,
          Except.pure, Except.map]
  | binary operation lhs rhs =>
      cases hlhs : Rational.parse lhs <;> cases hrhs : Rational.parse rhs <;> cases operation <;>
        simp [command, RationalCommand.run, RationalCommand.operands, traverse, apply, hlhs, hrhs,
          bind, Except.bind, pure, Except.pure, Except.map]

theorem run_eq_error_of_traverse {fault : Fault}
    (h : calculation.traverse Rational.parse = .error fault) :
    calculation.command.run output = .error fault := by
  rw [run_command, h]
  rfl

theorem run_of_traverse {structures : Calculation Rational}
    (h : calculation.traverse Rational.parse = .ok structures) :
    calculation.command.run output = structures.apply.map output.render? := by
  rw [run_command, h]
  rfl

/-- A calculation with a result prints the structure of the result. -/
theorem exists_run_of_exact {q : ℚ} (h : calculation.Reads values) (hexact : values.exact = .ok q)
    (output : RationalOutput) :
    ∃ a : Rational, calculation.command.run output = .ok (output.render? a) ∧ a.toRat = q := by
  obtain ⟨structures, hread, rfl⟩ := reads_iff.1 h
  rw [← map_toRat_apply, Rational.map_toRat_eq_ok_iff] at hexact
  obtain ⟨a, happly, hvalue⟩ := hexact
  refine ⟨a, ?_, hvalue⟩
  rw [run_of_traverse hread, happly]
  rfl

/-- A calculation without a result fails for the reason that the operation gives. -/
theorem run_of_exact_eq_error {fault : Fault} (h : calculation.Reads values)
    (hexact : values.exact = .error fault) (output : RationalOutput) :
    calculation.command.run output = .error fault := by
  obtain ⟨structures, hread, rfl⟩ := reads_iff.1 h
  rw [← map_toRat_apply, Rational.map_toRat_eq_error_iff] at hexact
  rw [run_of_traverse hread, hexact]
  rfl

/-- A run without a fault has a result, printed or not. -/
theorem exists_reads_of_run {text? : Option String}
    (h : calculation.command.run output = .ok text?) :
    ∃ values q, calculation.Reads values ∧ values.exact = .ok q := by
  cases hread : calculation.traverse Rational.parse with
  | error fault =>
      rw [run_eq_error_of_traverse hread] at h
      contradiction
  | ok structures =>
      have hreads := reads_iff.2 ⟨structures, hread, rfl⟩
      cases hexact : (structures.map Rational.toRat).exact with
      | error fault =>
          rw [run_of_exact_eq_error hreads hexact] at h
          contradiction
      | ok q => exact ⟨_, q, hreads, hexact⟩

theorem evaluates_run (calculation : Calculation String) (output : RationalOutput) :
    Evaluates calculation output (calculation.command.run output) where
  isOk_iff := by
    constructor
    · rintro ⟨text, htext⟩
      obtain ⟨values, q, hreads, hexact⟩ := exists_reads_of_run htext
      obtain ⟨a, hrun, rfl⟩ := exists_run_of_exact hreads hexact output
      have hprinted : output.render? a = some text := Except.ok.inj (hrun.symm.trans htext)
      refine ⟨values, _, hreads, hexact, not_not.1 fun hnot => ?_⟩
      rw [RationalOutput.render?_eq_none_iff.2 hnot] at hprinted
      exact nomatch hprinted
    · rintro ⟨values, q, hreads, hexact, hprintable⟩
      obtain ⟨a, hrun, rfl⟩ := exists_run_of_exact hreads hexact output
      obtain ⟨text, htext⟩ := RationalOutput.exists_render? hprintable
      exact ⟨text, hrun.trans (congrArg _ htext)⟩
  prints values q hreads hexact hprintable := by
    obtain ⟨a, hrun, rfl⟩ := exists_run_of_exact hreads hexact output
    obtain ⟨text, htext⟩ := RationalOutput.exists_render? hprintable
    exact ⟨text, hrun.trans (congrArg _ htext), RationalOutput.prints_of_render? htext⟩
  brokenOff values q hreads hexact hprintable := by
    obtain ⟨a, hrun, rfl⟩ := exists_run_of_exact hreads hexact output
    rw [hrun, RationalOutput.render?_eq_none_iff.2 hprintable]
  unread front text back fault hoperands hfront htext := by
    refine run_eq_error_of_traverse (traverse_eq_error hoperands (fun other hother => ?_)
      (Rational.valueOf_eq_error_iff.1 htext))
    obtain ⟨q, hq⟩ := hfront other hother
    obtain ⟨a, ha, -⟩ := Rational.valueOf_eq_ok_iff.1 hq
    exact ⟨a, ha⟩
  undefined values fault hreads hexact :=
    ⟨run_of_exact_eq_error hreads hexact output, kind_of_exact hexact⟩

/-- Operands of the same numbers are the same to a run. -/
theorem run_congr (h : calculation.map Rational.valueOf = calculation'.map Rational.valueOf)
    (output : RationalOutput) :
    calculation.command.run output = calculation'.command.run output := by
  have hparse : calculation.map Rational.parse = calculation'.map Rational.parse :=
    map_eq_map_of_imp (fun _ _ => Rational.parse_eq_of_valueOf_eq) h
  rw [run_command, run_command, ← traverse_map, hparse, traverse_map]

/-- A calculation prints its exact result in the style that is asked for if it can be printed, or
fails with the first fault from the left, and it comes to the same with other operands of the same
numbers. -/
theorem run_calculation (calculation : Calculation String) (output : RationalOutput) :
    Evaluates calculation output (calculation.command.run output) ∧
      ∀ calculation' : Calculation String,
        calculation'.map Rational.valueOf = calculation.map Rational.valueOf →
        calculation'.command.run output = calculation.command.run output :=
  ⟨evaluates_run calculation output, fun _ h => run_congr h output⟩

/-- Three spellings of one half. A third of it is printed with two digits, and nothing divides it
by zero. -/
theorem run_calculation_of_halves :
    RationalOutput.Printable ⟨.decimal, 2, .toEven⟩ (1 / 6) ∧
      (∃ text, (RationalCommand.div "2/4" "3").run ⟨.decimal, 2, .toEven⟩ = .ok (some text) ∧
        RationalOutput.Prints ⟨.decimal, 2, .toEven⟩ (1 / 6) text) ∧
      (RationalCommand.div "+1/2" "3").run ⟨.decimal, 2, .toEven⟩ =
        (RationalCommand.div "2/4" "3").run ⟨.decimal, 2, .toEven⟩ ∧
      (RationalCommand.div "0.5" "0").run ⟨.fraction, 2, .toEven⟩ = .error .zeroDivisor := by
  have hprintable : RationalOutput.Printable ⟨.decimal, 2, .toEven⟩ (1 / 6) :=
    RationalOutput.printable_of_lt (by decide) _
  have hfraction : Rational.valueOf "2/4" = .ok (1 / 2) :=
    Rational.valueOf_eq_ok_iff.2 ⟨Rational.ofFraction 2 4 (by decide), rfl, by norm_num⟩
  have hsigned : Rational.valueOf "+1/2" = .ok (1 / 2) :=
    Rational.valueOf_eq_ok_iff.2 ⟨Rational.ofFraction 1 2 (by decide), rfl, by norm_num⟩
  have hdecimal : Rational.valueOf "0.5" = .ok (1 / 2) :=
    Rational.valueOf_eq_ok_iff.2 ⟨Rational.ofFraction 5 10 (by decide), rfl, by norm_num⟩
  have hthree : Rational.valueOf "3" = .ok 3 :=
    Rational.valueOf_eq_ok_iff.2 ⟨Rational.ofInt 3, rfl, by norm_num⟩
  have hzero : Rational.valueOf "0" = .ok 0 :=
    Rational.valueOf_eq_ok_iff.2 ⟨Rational.ofInt 0, rfl, by norm_num⟩
  obtain ⟨heval, hsame⟩ := run_calculation (binary .div "2/4" "3") ⟨.decimal, 2, .toEven⟩
  obtain ⟨hfail, -⟩ := run_calculation (binary .div "0.5" "0") ⟨.fraction, 2, .toEven⟩
  have hreads : (binary .div "2/4" "3").Reads (binary .div (1 / 2) 3) :=
    congrArg₂ (binary .div) hfraction hthree
  have hzeros : (binary .div "0.5" "0").Reads (binary .div (1 / 2) 0) :=
    congrArg₂ (binary .div) hdecimal hzero
  refine ⟨hprintable, heval.prints _ _ hreads (by norm_num [exact]) hprintable,
    hsame (binary .div "+1/2" "3") ?_, (hfail.undefined _ _ hzeros (by norm_num [exact])).1⟩
  exact congrArg₂ (binary .div) (hsigned.trans hfraction.symm) rfl

/-- A third to 65535 digits is a result without a text, although its operands are read and it is
divided by three. -/
theorem run_calculation_fails_for_third :
    let output : RationalOutput := ⟨.decimal, 65535, .toEven⟩
    (binary .div "1" "3").Reads (binary .div 1 3) ∧ (binary .div 1 3).exact = .ok (1 / 3) ∧
      (RationalCommand.div "1" "3").run output = .ok none ∧
      ¬∃ text, (RationalCommand.div "1" "3").run output = .ok (some text) := by
  intro output
  have hreads : (binary .div "1" "3").Reads (binary .div 1 3) :=
    congrArg₂ (binary .div)
      (Rational.valueOf_eq_ok_iff.2 ⟨Rational.ofInt 1, rfl, by norm_num⟩)
      (Rational.valueOf_eq_ok_iff.2 ⟨Rational.ofInt 3, rfl, by norm_num⟩)
  have hexact : (binary .div 1 3).exact = .ok (1 / 3) := by norm_num [exact]
  have hnone : (RationalCommand.div "1" "3").run output = .ok none :=
    (evaluates_run (binary .div "1" "3") output).brokenOff _ _ hreads hexact
      (RationalOutput.not_printable_third rfl (by decide))
  refine ⟨hreads, hexact, hnone, ?_⟩
  rintro ⟨text, htext⟩
  exact nomatch hnone.symm.trans htext

end Calculation

end ExactCalc
