import ExactCalc.Json.Exchange
import ExactCalc.Proofs.Rational.Field
import ExactCalc.Proofs.Rational.Pair
import ExactCalc.Rational.Binary64
import ExactCalc.Rational.Order
import Mathlib.Data.Finset.Card

/-!
Rationals that come out of a composition of calls. The same calls run on pairs that promise nothing,
and the two runs agree to the end: no fraction with denominator zero is ever reduced, and what is
stored is in lowest terms. Equality of what is stored is then equality of numbers.
-/

namespace ExactCalc.Rational

open Text

/-! ### Sources -/

inductive Literal where
  | fraction (num den : Int)
  | integer (i : Int)
  | decimal (d : Decimal)

namespace Literal

def value? : Literal → Option Rational
  | .fraction num den => (make num den).toOption
  | .integer i => some (Rational.ofInt i)
  | .decimal d => some (ofDecimal d)

def run : Literal → Except Stop Pair
  | .fraction num den => if den = 0 then .error .refused else Pair.reduce num den
  | .integer i => .ok (Pair.ofInt i)
  | .decimal d => Pair.reduce d.coefficient (10 ^ d.scale)

theorem run_eq (l : Literal) : l.run = outcome (l.value?.map pair) := by
  cases l with
  | fraction num den =>
      rw [run, value?, make]
      by_cases hden : den = 0
      · rw [if_pos hden, dif_pos hden]
        rfl
      · rw [if_neg hden, dif_neg hden]
        exact Pair.reduce_eq num hden
  | integer i => rfl
  | decimal d =>
      have hcast : ((10 ^ d.scale : Nat) : Int) = 10 ^ d.scale := Int.natCast_pow 10 d.scale
      rw [run, ← hcast]
      exact Pair.reduce_of_pos _ _

/-- A slash makes a fraction, otherwise a point makes a decimal. -/
def ofText? (text : String) : Option Literal :=
  match splitSlash? (trim text.toList) with
  | some (num, den) => do some (.fraction (← Numeral.integer? num) (← Numeral.integer? den))
  | none =>
      if (trim text.toList).contains '.' then
        (Decimal.literal? (trim text.toList)).map .decimal
      else (Numeral.integer? (trim text.toList)).map .integer

theorem toOption_parse (text : String) :
    (parse text).toOption = (ofText? text).bind value? := by
  rw [parse, ofText?]
  cases hempty : (trim text.toList).isEmpty with
  | true =>
      rw [List.isEmpty_iff.1 hempty]
      rfl
  | false =>
      rw [if_neg Bool.false_ne_true]
      cases splitSlash? (trim text.toList) with
      | some sides =>
          obtain ⟨num, den⟩ := sides
          show (parseFraction num den).toOption = Option.bind (do
            some (fraction (← Numeral.integer? num) (← Numeral.integer? den))) value?
          rw [toOption_parseFraction]
          cases Numeral.integer? num with
          | none => rfl
          | some n => cases Numeral.integer? den <;> rfl
      | none =>
          show (if (trim text.toList).contains '.' then _ else _ : Except Fault Rational).toOption =
            Option.bind (if (trim text.toList).contains '.' then _ else _) value?
          by_cases hpoint : (trim text.toList).contains '.' = true
          · rw [if_pos hpoint, if_pos hpoint, toOption_map, Decimal.toOption_parse,
              String.toList_ofList]
            cases Decimal.literal? (trim text.toList) <;> rfl
          · rw [if_neg hpoint, if_neg hpoint, toOption_map, Numeral.toOption_parseInteger,
              String.toList_ofList]
            cases Numeral.integer? (trim text.toList) <;> rfl

end Literal

inductive Source where
  | literal (l : Literal)
  | text (content : String)
  | binary64 (x : Binary64)
  | json (content : String)

namespace Source

def value? : Source → Option Rational
  | .literal l => l.value?
  | .text content => (parse content).toOption
  | .binary64 x => (ofBinary64 x).toOption
  | .json content => ofJson? content

/-- An exponent of two that is negative goes into the denominator. -/
def runBinary64 (x : Binary64) : Except Stop Pair :=
  let significand := Numeral.signed x.negative x.significand
  if !x.isFinite then .error .refused
  else if 0 ≤ x.exponent then .ok (Pair.ofInt (significand * 2 ^ x.exponent.toNat))
  else Pair.reduce significand (2 ^ (-x.exponent).toNat)

def run : Source → Except Stop Pair
  | .literal l => l.run
  | .text content => do (← outcome (Literal.ofText? content)).run
  | .binary64 x => runBinary64 x
  | .json content => do
      let spelled := (Json.parse? content).bind Json.asText?
      (← outcome (spelled.bind Literal.ofText?)).run

theorem run_text (content : String) :
    (Source.text content).run = outcome ((Source.text content).value?.map pair) := by
  rw [run, value?, Literal.toOption_parse]
  cases Literal.ofText? content with
  | none => rfl
  | some l => exact l.run_eq

theorem run_json (content : String) :
    (Source.json content).run = outcome ((Source.json content).value?.map pair) := by
  have hvalue : (Source.json content).value? =
      ((Json.parse? content).bind Json.asText?).bind fun text => (Source.text text).value? := by
    rw [Option.bind_assoc]
    rfl
  rw [run, hvalue]
  cases (Json.parse? content).bind Json.asText? with
  | none => rfl
  | some text => exact run_text text

/-- One of the two powers of two is always `1`. -/
theorem run_binary64 (x : Binary64) :
    runBinary64 x = outcome ((Source.binary64 x).value?.map pair) := by
  rw [value?, runBinary64, ofBinary64]
  cases x.isFinite with
  | false => rfl
  | true =>
      have hpow : 0 < 2 ^ (-x.exponent).toNat := Nat.pow_pos (by decide)
      show (if 0 ≤ x.exponent then _ else _ : Except Stop Pair) = .ok (reduce
        (Numeral.signed x.negative (x.significand * 2 ^ x.exponent.toNat))
        (2 ^ (-x.exponent).toNat) hpow).pair
      rw [Numeral.signed_mul, natCast_two_pow]
      by_cases hexponent : 0 ≤ x.exponent
      · have hden : 2 ^ (-x.exponent).toNat = 1 := by
          rw [Int.toNat_of_nonpos (Int.neg_nonpos_of_nonneg hexponent), Nat.pow_zero]
        rw [if_pos hexponent, reduce_of_den_eq_one _ _ hden]
        rfl
      · have hnum : (2 : Int) ^ x.exponent.toNat = 1 := by
          rw [Int.toNat_of_nonpos (Int.le_of_lt (Int.not_le.1 hexponent)), Int.pow_zero]
        rw [if_neg hexponent, hnum, Int.mul_one, ← natCast_two_pow]
        exact Pair.reduce_of_pos _ hpow

theorem run_eq (s : Source) : s.run = outcome (s.value?.map pair) := by
  cases s with
  | literal l => exact l.run_eq
  | text content => exact run_text content
  | binary64 x => exact run_binary64 x
  | json content => exact run_json content

end Source

/-! ### Calls -/

inductive Unary where
  | neg
  | abs
  | reciprocal
  | pow (exponent : Int)

inductive Binary where
  | add
  | sub
  | mul
  | div

inductive Fold where
  | sum
  | product

namespace Unary

def apply : Unary → Rational → Except Fault Rational
  | .neg, a => .ok (-a)
  | .abs, a => .ok a.abs
  | .reciprocal, a => a.reciprocal
  | .pow exponent, a => a.pow exponent

def run : Unary → Pair → Except Stop Pair
  | .neg, p => p.neg
  | .abs, p => p.abs
  | .reciprocal, p => p.reciprocal
  | .pow exponent, p => p.pow exponent

theorem run_pair (op : Unary) (a : Rational) :
    op.run a.pair = outcome ((op.apply a).toOption.map pair) := by
  cases op with
  | neg => exact Pair.neg_pair a
  | abs => exact Pair.abs_pair a
  | reciprocal => exact Pair.reciprocal_pair a
  | pow exponent => exact Pair.pow_pair a exponent

end Unary

namespace Binary

def apply : Binary → Rational → Rational → Except Fault Rational
  | .add, a, b => .ok (a + b)
  | .sub, a, b => .ok (a - b)
  | .mul, a, b => .ok (a * b)
  | .div, a, b => a.div b

def run : Binary → Pair → Pair → Except Stop Pair
  | .add, p, q => p.add q
  | .sub, p, q => p.sub q
  | .mul, p, q => p.mul q
  | .div, p, q => p.div q

theorem run_pair (op : Binary) (a b : Rational) :
    op.run a.pair b.pair = outcome ((op.apply a b).toOption.map pair) := by
  cases op with
  | add => exact Pair.add_pair a b
  | sub => exact Pair.sub_pair a b
  | mul => exact Pair.mul_pair a b
  | div => exact Pair.div_pair a b

end Binary

namespace Fold

def apply : Fold → List Rational → Rational
  | .sum, terms => Rational.sum terms
  | .product, factors => Rational.product factors

def run : Fold → List Pair → Except Stop Pair
  | .sum, terms => Pair.sum terms
  | .product, factors => Pair.product factors

theorem run_pair (op : Fold) (items : List Rational) :
    op.run (items.map pair) = .ok (op.apply items).pair := by
  cases op with
  | sum => exact Pair.sum_pair items
  | product => exact Pair.product_pair items

end Fold

/-- A composition of calls. -/
inductive Expression where
  | source (s : Source)
  | unary (op : Unary) (operand : Expression)
  | binary (op : Binary) (left right : Expression)
  | fold (op : Fold) (items : List Expression)

namespace Expression

mutual

def value? : Expression → Option Rational
  | source s => s.value?
  | unary op operand => do (op.apply (← operand.value?)).toOption
  | binary op left right => do (op.apply (← left.value?) (← right.value?)).toOption
  | fold op items => do some (op.apply (← values? items))

def values? : List Expression → Option (List Rational)
  | [] => some []
  | e :: items => do some ((← e.value?) :: (← values? items))

end

mutual

/-- The same calls on pairs. -/
def run : Expression → Except Stop Pair
  | source s => s.run
  | unary op operand => do op.run (← operand.run)
  | binary op left right => do op.run (← left.run) (← right.run)
  | fold op items => do op.run (← runs items)

def runs : List Expression → Except Stop (List Pair)
  | [] => .ok []
  | e :: items => do .ok ((← e.run) :: (← runs items))

end

mutual

/-- The run on pairs follows the calls on rationals, refusals included. -/
theorem run_eq : ∀ e : Expression, e.run = outcome (e.value?.map pair)
  | source s => s.run_eq
  | unary op operand => by
      rw [run, value?, run_eq operand]
      cases operand.value? with
      | none => rfl
      | some a => exact op.run_pair a
  | binary op left right => by
      rw [run, value?, run_eq left, run_eq right]
      cases left.value? with
      | none => rfl
      | some a =>
          cases right.value? with
          | none => rfl
          | some b => exact op.run_pair a b
  | fold op items => by
      rw [run, value?, runs_eq items]
      cases values? items with
      | none => rfl
      | some items => exact op.run_pair items

theorem runs_eq : ∀ items : List Expression,
    runs items = outcome ((values? items).map (List.map pair))
  | [] => rfl
  | e :: items => by
      rw [runs, values?, run_eq e, runs_eq items]
      cases e.value? with
      | none => rfl
      | some a => cases values? items <;> rfl

end

end Expression

/-! ### One structure for each number -/

theorem Pair.canonical (a : Rational) :
    0 < a.pair.den ∧ Int.gcd a.pair.num a.pair.den = 1 ∧
      (a.pair.num = 0 → a.pair = Pair.ofInt 0) := by
  refine ⟨Int.natCast_pos.2 a.den_pos, a.coprime, fun hnum => ?_⟩
  rw [num_eq_zero_iff.1 hnum]
  rfl

theorem nodup_eraseDups {α : Type} [DecidableEq α] (items : List α) : items.eraseDups.Nodup := by
  -- The recursion is on the filtered tail, so the induction is on the length.
  induction hlength : items.length using Nat.strong_induction_on generalizing items with
  | _ length ih =>
      cases items with
      | nil => exact List.nodup_nil
      | cons a items =>
          have hshort := List.length_filter_le (fun b => !b == a) items
          rw [List.length_cons] at hlength
          rw [List.eraseDups_cons, List.nodup_cons, List.mem_eraseDups, List.mem_filter]
          refine ⟨by simp, ih _ ?_ _ rfl⟩
          omega

theorem length_eraseDups {α : Type} [DecidableEq α] (items : List α) :
    items.eraseDups.length = items.toFinset.card := by
  rw [← List.toFinset_card_of_nodup (nodup_eraseDups items)]
  congr 1
  ext a
  rw [List.mem_toFinset, List.mem_toFinset, List.mem_eraseDups]

theorem distinctCount_eq_card (values : List Rational) :
    distinctCount values = (values.map toRat).toFinset.card := by
  have himage : (values.map toRat).toFinset = values.toFinset.image toRat := by
    ext q
    rw [List.mem_toFinset, List.mem_map, Finset.mem_image]
    simp only [List.mem_toFinset]
  rw [distinctCount, length_eraseDups, himage, Finset.card_image_of_injective _ toRat_injective]

/-- The calls never reduce a fraction with denominator zero, what they store is in lowest terms with
a positive denominator, and values are equal, and count once, exactly if their numbers are. -/
theorem Expression.rational_canonical (e f : Expression) (items : List Expression) :
    e.run = outcome (e.value?.map pair) ∧ e.run ≠ .error .zeroReduced ∧
    (∀ p, e.run = .ok p →
      0 < p.den ∧ Int.gcd p.num p.den = 1 ∧ (p.num = 0 → p = Pair.ofInt 0)) ∧
    (∀ a b, e.value? = some a → f.value? = some b → (a = b ↔ a.toRat = b.toRat)) ∧
    ∀ values, values? items = some values →
      distinctCount values = (values.map toRat).toFinset.card := by
  have hrun := e.run_eq
  refine ⟨hrun, ?_, ?_, fun a b _ _ => toRat_injective.eq_iff.symm,
    fun values _ => distinctCount_eq_card values⟩
  · rw [hrun]
    cases e.value? <;> exact fun h => nomatch h
  · intro p hp
    rw [hrun] at hp
    cases hvalue : e.value? with
    | none => rw [hvalue] at hp; contradiction
    | some a =>
        rw [hvalue] at hp
        obtain rfl : a.pair = p := Except.ok.inj hp
        exact Pair.canonical a

/-- A quotient of negative numbers and a decimal. -/
theorem Expression.quarter_canonical :
    let e := binary .div (source (.literal (.fraction 3 (-6)))) (source (.literal (.integer (-2))))
    let f := source (.literal (.decimal ⟨26, 2⟩))
    let a : Rational := ⟨1, 4, by decide, by decide⟩
    let b : Rational := ⟨13, 50, by decide, by decide⟩
    e.value? = some a ∧ f.value? = some b ∧ (a = b ↔ a.toRat = b.toRat) ∧
      e.run = .ok ⟨1, 4⟩ ∧ Int.gcd 1 4 = 1 ∧
      values? [e, f] = some [a, b] ∧ distinctCount [a, b] = ([a, b].map toRat).toFinset.card := by
  intro e f a b
  have he : e.value? = some a := by decide
  have hf : f.value? = some b := by decide
  have hitems : values? [e, f] = some [a, b] := by
    rw [values?, he, values?, hf]
    rfl
  have hcanonical := Expression.rational_canonical e f [e, f]
  have hrun : e.run = .ok ⟨1, 4⟩ := by
    rw [hcanonical.1, he]
    rfl
  exact ⟨he, hf, hcanonical.2.2.2.1 a b he hf, hrun, (hcanonical.2.2.1 _ hrun).2.1, hitems,
    hcanonical.2.2.2.2 _ hitems⟩

end ExactCalc.Rational
