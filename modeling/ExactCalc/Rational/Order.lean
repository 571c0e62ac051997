import ExactCalc.Rational.Basic

/-!
The order of the rationals. Two numbers over one denominator are compared by their numerators, other
numbers by cross multiplication.
-/

namespace ExactCalc.Rational

def order (a b : Rational) : Ordering :=
  if a.den = b.den then compare a.num b.num
  else compare (a.num * b.den) (b.num * a.den)

instance : Ord Rational := ⟨order⟩

def least (a b : Rational) : Rational :=
  if order a b == .gt then b else a

def greatest (a b : Rational) : Rational :=
  if order a b == .gt then a else b

def sorted (values : List Rational) : List Rational :=
  values.mergeSort fun a b => order a b != .gt

def distinctCount (values : List Rational) : Nat :=
  values.eraseDups.length

theorem compare_mul_right {d : Int} (hd : 0 < d) (m n : Int) :
    compare (m * d) (n * d) = compare m n := by
  cases h : compare m n with
  | lt =>
      exact Int.compare_eq_lt.2 (Int.mul_lt_mul_of_pos_right (Int.compare_eq_lt.1 h) hd)
  | eq =>
      rw [Int.compare_eq_eq.1 h]
      exact Int.compare_eq_eq.2 rfl
  | gt =>
      exact Int.compare_eq_gt.2 (Int.mul_lt_mul_of_pos_right (Int.compare_eq_gt.1 h) hd)

/-- Numbers over one denominator are in the order of their cross products too. -/
theorem order_eq_compare_mul (a b : Rational) :
    order a b = compare (a.num * b.den) (b.num * a.den) := by
  rw [order]
  split
  · next h => rw [h, compare_mul_right (Int.natCast_pos.2 b.den_pos)]
  · rfl

theorem order_eq_eq_iff {a b : Rational} : order a b = .eq ↔ a = b := by
  rw [order_eq_compare_mul, Std.LawfulEqCmp.compare_eq_iff_eq]
  exact ⟨eq_of_num_mul_den, fun h => by rw [h]⟩

end ExactCalc.Rational
