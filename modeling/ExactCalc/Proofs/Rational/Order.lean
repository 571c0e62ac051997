import ExactCalc.Proofs.Rational.Field
import ExactCalc.Rational.Order
import Mathlib.Data.List.Sort

/-!
The order of rationals is that of the numbers they stand for, whichever of its two comparisons is
made. So it is total, no two numbers are equal in it but those that are one structure, and it goes
along with sums and with products, against products by a negative factor. The numbers of a list have
one ascending arrangement, in whatever order they are given.
-/

namespace ExactCalc.Rational

variable {a b c : Rational} {values values' ascending : List Rational}

theorem toRat_lt_toRat_iff : a.toRat < b.toRat ↔ a.num * b.den < b.num * a.den := by
  rw [Rat.lt_iff, num_toRat, num_toRat, den_toRat, den_toRat]

/-- Denominators are positive, so cross products are in the order of the numbers. -/
theorem order_compares (a b : Rational) : (order a b).Compares a.toRat b.toRat := by
  rw [order_eq_compare_mul]
  cases h : compare (a.num * b.den) (b.num * a.den) with
  | lt => exact toRat_lt_toRat_iff.2 (Int.compare_eq_lt.1 h)
  | eq => exact congrArg toRat (eq_of_num_mul_den (Int.compare_eq_eq.1 h))
  | gt => exact toRat_lt_toRat_iff.2 (Int.compare_eq_gt.1 h)

theorem order_eq_cmp (a b : Rational) : order a b = cmp a.toRat b.toRat :=
  (order_compares a b).cmp_eq.symm

theorem order_ne_gt_iff : order a b ≠ .gt ↔ a.toRat ≤ b.toRat :=
  (order_compares a b).ne_gt

theorem order_swap (a b : Rational) : (order a b).swap = order b a := by
  rw [order_eq_cmp, order_eq_cmp, cmp_swap]

/-- The numerator has the sign of the number. -/
theorem cmp_num_zero (a : Rational) : cmp a.num 0 = cmp a.toRat 0 := by
  calc cmp a.num 0
      = cmp (a.num : ℚ) ((0 : ℤ) : ℚ) := (Int.cast_strictMono.cmp_map_eq _ _).symm
    _ = cmp (a.toRat * a.den) (0 * a.den) := by
        rw [toRat, div_mul_cancel₀ _ a.den_ne_zero, zero_mul, Int.cast_zero]
    _ = cmp a.toRat 0 := cmp_mul_pos_right (Nat.cast_pos.2 a.den_pos) _ _

/-! ### Order and arithmetic -/

theorem order_eq_cmp_sub (a b : Rational) : order a b = cmp (a - b).num 0 := by
  rw [cmp_num_zero, toRat_sub, cmp_sub_zero, order_eq_cmp]

theorem order_add_right (a b c : Rational) : order (a + c) (b + c) = order a b := by
  rw [order_eq_cmp, order_eq_cmp, toRat_add, toRat_add, cmp_add_right]

theorem order_neg (a b : Rational) : order (-a) (-b) = order b a := by
  rw [order_eq_cmp, order_eq_cmp, toRat_neg, toRat_neg]
  exact StrictAnti.cmp_map_eq (fun _ _ => neg_lt_neg) _ _

theorem toRat_pos_iff : 0 < c.toRat ↔ c.isPositive = true := by
  rw [isPositive, decide_eq_true_iff, ← Rat.num_pos, num_toRat]

theorem order_mul_right (a b : Rational) (hc : c.isPositive = true) :
    order (a * c) (b * c) = order a b := by
  rw [order_eq_cmp, order_eq_cmp, toRat_mul, toRat_mul, cmp_mul_pos_right (toRat_pos_iff.2 hc)]

theorem order_mul_right_of_neg (a b : Rational) (hc : c.isNegative = true) :
    order (a * c) (b * c) = order b a := by
  have hneg : c.toRat < 0 := toRat_neg_iff.2 (of_decide_eq_true hc)
  rw [order_eq_cmp, order_eq_cmp, toRat_mul, toRat_mul, cmp_mul_neg_right hneg]

/-! ### Ascending lists -/

theorem pairwise_sorted (values : List Rational) :
    (sorted values).Pairwise fun x y => order x y ≠ .gt := by
  have htrans (x y z : Rational) (hxy : (order x y != .gt) = true)
      (hyz : (order y z != .gt) = true) : (order x z != .gt) = true := by
    rw [bne_iff_ne, order_ne_gt_iff] at hxy hyz ⊢
    exact hxy.trans hyz
  have htotal (x y : Rational) : (order x y != .gt || order y x != .gt) = true := by
    rw [Bool.or_eq_true, bne_iff_ne, bne_iff_ne, order_ne_gt_iff, order_ne_gt_iff]
    exact le_total _ _
  exact (List.pairwise_mergeSort htrans htotal values).imp bne_iff_ne.1

/-- There is one ascending arrangement of the numbers of a list. -/
theorem eq_sorted_iff : ascending = sorted values ↔
    ascending.Perm values ∧ ascending.Pairwise fun x y => order x y ≠ .gt := by
  constructor
  · rintro rfl
    exact ⟨List.mergeSort_perm values _, pairwise_sorted values⟩
  · rintro ⟨hperm, hpairwise⟩
    refine List.Perm.eq_of_pairwise ?_ hpairwise (pairwise_sorted values)
      (hperm.trans (List.mergeSort_perm values _).symm)
    intro x y _ _ hxy hyx
    exact toRat_injective (le_antisymm (order_ne_gt_iff.1 hxy) (order_ne_gt_iff.1 hyx))

theorem sorted_eq_of_perm (h : values.Perm values') : sorted values = sorted values' :=
  eq_sorted_iff.2 ⟨(List.mergeSort_perm values _).trans h, pairwise_sorted values⟩

/-- The order is that of the numbers and of the sign of a difference, it is total and knows equal
structures, sums and negation and products by a factor of either sign keep or reverse it, and a list
is sorted in one way alone, whatever its arrangement. -/
theorem order_exact (a b c : Rational) (values values' : List Rational) :
    (order a b = cmp a.toRat b.toRat ∧ order a b = cmp (a - b).num 0 ∧
      (order a b = .eq ↔ a = b)) ∧
    ((order a b).swap = order b a ∧ (order a b ≠ .gt ∨ order b a ≠ .gt) ∧
      (order a b ≠ .gt → order b a ≠ .gt → a = b) ∧
      (order a b ≠ .gt → order b c ≠ .gt → order a c ≠ .gt)) ∧
    (order (a + c) (b + c) = order a b ∧ order (-a) (-b) = order b a ∧
      (c.isPositive = true → order (a * c) (b * c) = order a b) ∧
      (c.isNegative = true → order (a * c) (b * c) = order b a)) ∧
    (∀ ascending, ascending = sorted values ↔
      ascending.Perm values ∧ ascending.Pairwise fun x y => order x y ≠ .gt) ∧
    (values.Perm values' → sorted values = sorted values') := by
  refine ⟨⟨order_eq_cmp a b, order_eq_cmp_sub a b, order_eq_eq_iff⟩,
    ⟨order_swap a b, ?_, ?_, ?_⟩,
    ⟨order_add_right a b c, order_neg a b, order_mul_right a b, order_mul_right_of_neg a b⟩,
    fun _ => eq_sorted_iff, sorted_eq_of_perm⟩
  · rw [order_ne_gt_iff, order_ne_gt_iff]
    exact le_total _ _
  · rw [order_ne_gt_iff, order_ne_gt_iff]
    exact fun hab hba => toRat_injective (le_antisymm hab hba)
  · rw [order_ne_gt_iff, order_ne_gt_iff, order_ne_gt_iff]
    exact le_trans

/-- A half below zero reverses the order of the thirds and a third keeps the order of its
neighbours; the three have one ascending list. -/
theorem order_exact_of_thirds :
    let third := ofFraction 1 3 (by decide)
    let twoThirds := ofFraction (-2) (-3) (by decide)
    let half := ofFraction 1 (-2) (by decide)
    half.isNegative = true ∧ order (third * half) (twoThirds * half) = order twoThirds third ∧
      third.isPositive = true ∧ order (half * third) (twoThirds * third) = order half twoThirds ∧
      order half third ≠ .gt ∧ order third twoThirds ≠ .gt ∧ order half twoThirds ≠ .gt ∧
      [third, half, twoThirds].Perm [twoThirds, third, half] ∧
      sorted [third, half, twoThirds] = sorted [twoThirds, third, half] := by
  intro third twoThirds half
  have hnegative : half.isNegative = true := by decide
  have hpositive : third.isPositive = true := by decide
  have hlow : order half third ≠ .gt := by decide
  have hhigh : order third twoThirds ≠ .gt := by decide
  have hperm : [third, half, twoThirds].Perm [twoThirds, third, half] := by decide
  have hreversed := (order_exact third twoThirds half [] []).2.2.1.2.2.2 hnegative
  have hkept := (order_exact half twoThirds third [] []).2.2.1.2.2.1 hpositive
  have hchain := (order_exact half third twoThirds [] []).2.1.2.2.2 hlow hhigh
  exact ⟨hnegative, hreversed, hpositive, hkept, hlow, hhigh, hchain, hperm,
    (order_exact third twoThirds half _ _).2.2.2.2 hperm⟩

end ExactCalc.Rational
