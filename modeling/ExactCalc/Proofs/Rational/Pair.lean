import ExactCalc.Rational.Arith

/-!
The operations on two integers with no promise about them. A pair may have any denominator, and a
fraction with denominator zero stops the run when it reaches the reduction. On the pairs that
rationals store this never happens: each operation gives the pair of the rational that it gives on
the rationals themselves, or refuses as it does there.
-/

namespace ExactCalc.Rational

structure Pair where
  num : Int
  den : Int
  deriving DecidableEq

/-- Why a run on pairs ends early: a call refuses what it is given, or a fraction with denominator
zero is to be reduced. -/
inductive Stop where
  | refused
  | zeroReduced
  deriving DecidableEq

def pair (a : Rational) : Pair :=
  ⟨a.num, a.den⟩

/-- A run that stops only where a call refuses. -/
def outcome {α : Type} : Option α → Except Stop α
  | some a => .ok a
  | none => .error .refused

namespace Pair

def ofInt (i : Int) : Pair :=
  ⟨i, 1⟩

/-- Lowest terms, the sign in the numerator, and zero as `0/1`. -/
def reduce (num den : Int) : Except Stop Pair :=
  if den = 0 then .error .zeroReduced
  else if num = 0 then .ok (ofInt 0)
  else
    let num' := if den < 0 then -num else num
    let den' := if den < 0 then -den else den
    .ok ⟨num' / Int.gcd num' den', den' / Int.gcd num' den'⟩

def add (p q : Pair) : Except Stop Pair :=
  reduce (p.num * q.den + q.num * p.den) (p.den * q.den)

def sub (p q : Pair) : Except Stop Pair :=
  reduce (p.num * q.den - q.num * p.den) (p.den * q.den)

def mul (p q : Pair) : Except Stop Pair :=
  reduce (p.num * q.num) (p.den * q.den)

def neg (p : Pair) : Except Stop Pair :=
  reduce (-p.num) p.den

def abs (p : Pair) : Except Stop Pair :=
  if p.num < 0 then p.neg else .ok p

def div (p q : Pair) : Except Stop Pair :=
  if q.num = 0 then .error .refused else reduce (p.num * q.den) (p.den * q.num)

def reciprocal (p : Pair) : Except Stop Pair :=
  if p.num = 0 then .error .refused else reduce p.den p.num

def mulWhen (condition : Prop) [Decidable condition] (p q : Pair) : Except Stop Pair :=
  if condition then mul p q else .ok p

def powLoop (result base : Pair) (exponent : Nat) : Except Stop Pair :=
  if exponent = 0 then .ok result
  else do
    let result ← mulWhen (exponent % 2 = 1) result base
    let base ← mulWhen (exponent / 2 ≠ 0) base base
    powLoop result base (exponent / 2)
termination_by exponent

def pow (p : Pair) (exponent : Int) : Except Stop Pair := do
  let power ← powLoop (ofInt 1) p exponent.natAbs
  if exponent < 0 then power.reciprocal else .ok power

def sum (terms : List Pair) : Except Stop Pair :=
  terms.foldlM add (ofInt 0)

def product (factors : List Pair) : Except Stop Pair :=
  factors.foldlM mul (ofInt 1)

end Pair

/-! ### Reduction -/

/-- A rational is in lowest terms already. -/
theorem reduce_num_den (a : Rational) : reduce a.num a.den a.den_pos = a :=
  eq_of_num_mul_den (reduce_num_mul a.num a.den a.den_pos)

theorem reduce_of_den_eq_one (num : Int) {den : Nat} (hden : 0 < den) (hone : den = 1) :
    reduce num den hden = ofInt num := by
  subst hone
  exact eq_of_num_mul_den (reduce_num_mul num 1 hden)

theorem ofFraction_of_pos (num : Int) {den : Nat} (hden : 0 < den) (hne : (den : Int) ≠ 0) :
    ofFraction num den hne = reduce num den hden := by
  simp only [ofFraction, Int.natAbs_natCast, if_neg (Int.not_lt.2 (Int.natCast_nonneg den))]

theorem ofFraction_zero {den : Int} (hden : den ≠ 0) : ofFraction 0 den hden = zero := by
  apply eq_of_num_mul_den
  simp [ofFraction, reduce, zero]

namespace Pair

/-- The reduction of pairs gives what the rational of the fraction stores. -/
theorem reduce_eq (num : Int) {den : Int} (hden : den ≠ 0) :
    reduce num den = .ok (ofFraction num den hden).pair := by
  rw [reduce, if_neg hden]
  by_cases hnum : num = 0
  · subst hnum
    rw [if_pos rfl, ofFraction_zero]
    rfl
  · have habs : (if den < 0 then -den else den) = den.natAbs := by omega
    rw [if_neg hnum, habs]
    rfl

theorem reduce_of_pos (num : Int) {den : Nat} (hden : 0 < den) :
    reduce num den = .ok (Rational.reduce num den hden).pair := by
  have hne : (den : Int) ≠ 0 := by omega
  rw [reduce_eq num hne, ofFraction_of_pos num hden]

/-! ### Operations -/

theorem add_pair (a b : Rational) : add a.pair b.pair = .ok (a + b).pair :=
  reduce_of_pos _ (Nat.mul_pos a.den_pos b.den_pos)

theorem sub_pair (a b : Rational) : sub a.pair b.pair = .ok (a - b).pair :=
  reduce_of_pos _ (Nat.mul_pos a.den_pos b.den_pos)

theorem mul_pair (a b : Rational) : mul a.pair b.pair = .ok (a * b).pair :=
  reduce_of_pos _ (Nat.mul_pos a.den_pos b.den_pos)

theorem neg_pair (a : Rational) : neg a.pair = .ok (-a).pair := by
  have hreduce := reduce_num_den (-a)
  calc neg a.pair
      = .ok (Rational.reduce (-a).num (-a).den (-a).den_pos).pair := reduce_of_pos _ a.den_pos
    _ = .ok (-a).pair := by rw [hreduce]

theorem abs_pair (a : Rational) : abs a.pair = .ok a.abs.pair := by
  by_cases hneg : a.num < 0
  · have habs : a.abs = -a := if_pos (decide_eq_true hneg)
    rw [habs]
    exact (if_pos hneg).trans (neg_pair a)
  · have habs : a.abs = a := if_neg (by simpa [isNegative] using hneg)
    rw [habs]
    exact if_neg hneg

theorem div_pair (a b : Rational) :
    div a.pair b.pair = outcome ((a.div b).toOption.map pair) := by
  rw [div, Rational.div]
  by_cases hzero : b.num = 0
  · rw [dif_pos hzero]
    exact if_pos hzero
  · have hden : (a.den : Int) * b.num ≠ 0 :=
      Int.mul_ne_zero (Int.natCast_ne_zero.2 (Nat.pos_iff_ne_zero.1 a.den_pos)) hzero
    rw [dif_neg hzero]
    exact (if_neg hzero).trans (reduce_eq _ hden)

theorem reciprocal_pair (a : Rational) :
    reciprocal a.pair = outcome (a.reciprocal.toOption.map pair) := by
  rw [reciprocal, Rational.reciprocal]
  by_cases hzero : a.num = 0
  · rw [dif_pos hzero]
    exact if_pos hzero
  · rw [dif_neg hzero]
    exact (if_neg hzero).trans (reduce_eq _ hzero)

theorem mulWhen_pair (condition : Prop) [Decidable condition] (a b : Rational) :
    mulWhen condition a.pair b.pair = .ok (if condition then a * b else a).pair := by
  rw [mulWhen]
  split
  · exact mul_pair a b
  · rfl

theorem powLoop_pair (result base : Rational) (exponent : Nat) :
    powLoop result.pair base.pair exponent = .ok (Rational.powLoop result base exponent).pair := by
  induction result, base, exponent using Rational.powLoop.induct with
  | case1 result base =>
      rw [powLoop, Rational.powLoop]
      rfl
  | case2 result base exponent hpos ih =>
      -- Both products of the step have a result, so the step goes on with their pairs.
      have hbase := mulWhen_pair (exponent / 2 ≠ 0) base base
      rw [ite_not] at hbase
      rw [powLoop, if_neg hpos, mulWhen_pair, Rational.powLoop, if_neg hpos]
      change (mulWhen _ base.pair base.pair >>= fun base => powLoop _ base _) = _
      rw [hbase]
      exact ih

theorem pow_pair (a : Rational) (exponent : Int) :
    pow a.pair exponent = outcome ((a.pow exponent).toOption.map pair) := by
  have hpower : powLoop (ofInt 1) a.pair exponent.natAbs = .ok (a.powNat exponent.natAbs).pair :=
    powLoop_pair one a exponent.natAbs
  rw [pow, Rational.pow, hpower]
  by_cases hneg : exponent < 0
  · rw [if_pos hneg]
    exact (if_pos hneg).trans (reciprocal_pair _)
  · rw [if_neg hneg]
    exact if_neg hneg

/-- A fold of an operation that always has a result. -/
theorem foldlM_pair {step : Pair → Pair → Except Stop Pair}
    {step' : Rational → Rational → Rational}
    (hstep : ∀ a b : Rational, step a.pair b.pair = .ok (step' a b).pair)
    (items : List Rational) (start : Rational) :
    (items.map pair).foldlM step start.pair = .ok (items.foldl step' start).pair := by
  induction items generalizing start with
  | nil => rfl
  | cons a items ih =>
      rw [List.map_cons, List.foldlM_cons, hstep, List.foldl_cons]
      exact ih (step' start a)

theorem sum_pair (terms : List Rational) :
    sum (terms.map pair) = .ok (Rational.sum terms).pair :=
  foldlM_pair add_pair terms zero

theorem product_pair (factors : List Rational) :
    product (factors.map pair) = .ok (Rational.product factors).pair :=
  foldlM_pair mul_pair factors one

end Pair

end ExactCalc.Rational
