import ExactCalc.Proofs.Rational.Field

/-!
Powers of rationals. Squaring and multiplying along the bits of the exponent gives the power that
repeated multiplication gives, and a negative exponent turns it over, which only zero refuses. So
the laws of exponents hold between the results, for exponents of either sign.
-/

namespace ExactCalc.Rational

variable {a x y : Rational} {d e : Int}

/-- What the loop holds and what is left to multiply make up the power. -/
theorem toRat_powLoop (result base : Rational) (exponent : Nat) :
    (powLoop result base exponent).toRat = result.toRat * base.toRat ^ exponent := by
  induction result, base, exponent using powLoop.induct with
  | case1 result base =>
      rw [powLoop, if_pos rfl, pow_zero, mul_one]
  | case2 result base exponent hpos ih =>
      simp only [dite_eq_ite] at ih
      rw [powLoop, if_neg hpos, ih]
      -- The base is squared unless the bits are used up, and then the square would not count.
      have hbase : (if exponent / 2 = 0 then base else base * base).toRat ^ (exponent / 2) =
          base.toRat ^ (2 * (exponent / 2)) := by
        split
        · next hlast => rw [hlast, Nat.mul_zero]
        · rw [toRat_mul, ← sq, ← pow_mul]
      have hresult : (if exponent % 2 = 1 then result * base else result).toRat =
          result.toRat * base.toRat ^ (exponent % 2) := by
        rcases Nat.mod_two_eq_zero_or_one exponent with hbit | hbit
        · rw [hbit, if_neg (by decide), pow_zero, mul_one]
        · rw [hbit, if_pos rfl, pow_one, toRat_mul]
      rw [hbase, hresult, mul_assoc, ← pow_add, Nat.mod_add_div]

@[simp] theorem toRat_powNat (a : Rational) (exponent : Nat) :
    (a.powNat exponent).toRat = a.toRat ^ exponent := by
  rw [powNat, toRat_powLoop, toRat_one, one_mul]

theorem map_toRat_pow (a : Rational) (exponent : Int) :
    (a.pow exponent).map toRat =
      if exponent < 0 ∧ a = zero then .error .reciprocalOfZero else .ok (a.toRat ^ exponent) := by
  rw [pow]
  by_cases hneg : exponent < 0
  · obtain ⟨n, rfl⟩ : ∃ n : Nat, exponent = -(n : Int) := ⟨exponent.natAbs, by omega⟩
    have hn : n ≠ 0 := by omega
    have hzero : a.powNat n = zero ↔ a = zero := by
      rw [← toRat_eq_zero_iff, toRat_powNat, pow_eq_zero_iff hn, toRat_eq_zero_iff]
    rw [if_pos hneg, Int.natAbs_neg, Int.natAbs_natCast, map_toRat_reciprocal, toRat_powNat,
      zpow_neg, zpow_natCast, one_div]
    simp only [hneg, hzero, true_and]
  · obtain ⟨n, rfl⟩ : ∃ n : Nat, exponent = (n : Int) := ⟨exponent.natAbs, by omega⟩
    rw [if_neg hneg, if_neg fun h => hneg h.1, Int.natAbs_natCast, Except.map, toRat_powNat,
      zpow_natCast]

/-! ### Repeated multiplication -/

theorem powNat_eq_product (a : Rational) (n : Nat) :
    a.powNat n = product (List.replicate n a) := by
  apply toRat_injective
  rw [toRat_powNat, toRat_product, List.map_replicate, List.prod_replicate]

theorem pow_of_nonneg (he : 0 ≤ e) (a : Rational) :
    a.pow e = .ok (product (List.replicate e.natAbs a)) := by
  rw [pow, if_neg (not_lt.2 he), powNat_eq_product]

theorem pow_of_neg (he : e < 0) (a : Rational) :
    a.pow e = (product (List.replicate e.natAbs a)).reciprocal := by
  rw [pow, if_pos he, powNat_eq_product]

theorem product_replicate_ne_zero (ha : a ≠ zero) (n : Nat) :
    product (List.replicate n a) ≠ zero := by
  rw [← powNat_eq_product, ne_eq, ← toRat_eq_zero_iff, toRat_powNat]
  exact pow_ne_zero n (mt toRat_eq_zero_iff.1 ha)

theorem exists_reciprocal (ha : a ≠ zero) : ∃ b, a.reciprocal = .ok b ∧ a * b = one := by
  have hreciprocal := map_toRat_reciprocal a
  rw [if_neg ha] at hreciprocal
  obtain ⟨b, hb, hvalue⟩ := map_toRat_eq_ok_iff.1 hreciprocal
  refine ⟨b, hb, toRat_injective ?_⟩
  rw [toRat_mul, hvalue, mul_one_div_cancel (mt toRat_eq_zero_iff.1 ha), toRat_one]

theorem zero_pow_of_neg (he : e < 0) : zero.pow e = .error .reciprocalOfZero := by
  rw [← map_toRat_eq_error_iff, map_toRat_pow]
  exact if_pos ⟨he, rfl⟩

/-! ### The laws of exponents -/

theorem map_toRat_pow_of_ne_zero (ha : a ≠ zero) (e : Int) :
    (a.pow e).map toRat = .ok (a.toRat ^ e) := by
  rw [map_toRat_pow]
  exact if_neg fun h => ha h.2

theorem exists_pow (ha : a ≠ zero) (e : Int) : ∃ x, a.pow e = .ok x := by
  obtain ⟨x, hx, -⟩ := map_toRat_eq_ok_iff.1 (map_toRat_pow_of_ne_zero ha e)
  exact ⟨x, hx⟩

theorem toRat_of_pow (ha : a ≠ zero) (hx : a.pow e = .ok x) : x.toRat = a.toRat ^ e := by
  have hvalue := map_toRat_pow_of_ne_zero ha e
  rw [hx] at hvalue
  exact Except.ok.inj hvalue

theorem ne_zero_of_pow (ha : a ≠ zero) (hx : a.pow e = .ok x) : x ≠ zero := by
  rw [ne_eq, ← toRat_eq_zero_iff, toRat_of_pow ha hx]
  exact zpow_ne_zero e (mt toRat_eq_zero_iff.1 ha)

theorem pow_add_of_ne_zero (ha : a ≠ zero) (hx : a.pow d = .ok x) (hy : a.pow e = .ok y) :
    a.pow (d + e) = .ok (x * y) := by
  apply eq_ok_of_map_toRat
  rw [map_toRat_pow_of_ne_zero ha, toRat_mul, toRat_of_pow ha hx, toRat_of_pow ha hy,
    zpow_add₀ (mt toRat_eq_zero_iff.1 ha)]

theorem pow_mul_of_ne_zero (ha : a ≠ zero) (hx : a.pow d = .ok x) (hy : x.pow e = .ok y) :
    a.pow (d * e) = .ok y := by
  apply eq_ok_of_map_toRat
  rw [map_toRat_pow_of_ne_zero ha, toRat_of_pow (ne_zero_of_pow ha hx) hy, toRat_of_pow ha hx,
    zpow_mul]

/-- A power is the product of as many copies as its exponent says, and under a negative exponent the
reciprocal of that product, which zero alone does not have. The powers of a number other than zero
add their exponents when they are multiplied and multiply them when they are raised again. -/
theorem pow_repeats (a : Rational) (d e : Int) :
    (0 ≤ e → a.pow e = .ok (product (List.replicate e.natAbs a))) ∧ a.pow 0 = .ok one ∧
    (e < 0 → a ≠ zero → ∃ b, (product (List.replicate e.natAbs a)).reciprocal = .ok b ∧
      a.pow e = .ok b ∧ product (List.replicate e.natAbs a) * b = one) ∧
    (e < 0 → zero.pow e = .error .reciprocalOfZero) ∧ Fault.reciprocalOfZero.kind = .division ∧
    (a ≠ zero → ∃ x y z, a.pow d = .ok x ∧ a.pow e = .ok y ∧ a.pow (d + e) = .ok (x * y) ∧
      a.pow (d * e) = .ok z ∧ x.pow e = .ok z) := by
  refine ⟨fun he => pow_of_nonneg he a, pow_of_nonneg le_rfl a, fun he ha => ?_, zero_pow_of_neg,
    rfl, fun ha => ?_⟩
  · obtain ⟨b, hb, hone⟩ := exists_reciprocal (product_replicate_ne_zero ha e.natAbs)
    exact ⟨b, hb, (pow_of_neg he a).trans hb, hone⟩
  · obtain ⟨x, hx⟩ := exists_pow ha d
    obtain ⟨y, hy⟩ := exists_pow ha e
    obtain ⟨z, hz⟩ := exists_pow (ne_zero_of_pow ha hx) e
    exact ⟨x, y, z, hx, hy, pow_add_of_ne_zero ha hx hy, pow_mul_of_ne_zero ha hx hz, hz⟩

/-- Minus two thirds to the power of `3` and of `-2`, and zero to the latter. -/
theorem pow_repeats_of_two_thirds :
    let a := ofFraction (-2) 3 (by decide)
    (0 : Int) ≤ 3 ∧ a.pow 3 = .ok (product [a, a, a]) ∧
      (-2 : Int) < 0 ∧ a ≠ zero ∧ zero.pow (-2) = .error .reciprocalOfZero ∧
      ∃ b x y z, (product [a, a]).reciprocal = .ok b ∧ a.pow (-2) = .ok b ∧
        a.pow 3 = .ok x ∧ a.pow (-2) = .ok y ∧ a.pow 1 = .ok (x * y) ∧
        a.pow (-6) = .ok z ∧ x.pow (-2) = .ok z := by
  intro a
  have hcube : (0 : Int) ≤ 3 := by decide
  have hneg : (-2 : Int) < 0 := by decide
  have hne : a ≠ zero := by decide
  obtain ⟨-, -, hreciprocal, hzero, -, hlaws⟩ := pow_repeats a 3 (-2)
  obtain ⟨b, hb, hpow, -⟩ := hreciprocal hneg hne
  obtain ⟨x, y, z, hx, hy, hsum, hproduct, hraised⟩ := hlaws hne
  exact ⟨hcube, (pow_repeats a 0 3).1 hcube, hneg, hne, hzero hneg, b, x, y, z, hb, hpow, hx, hy,
    hsum, hproduct, hraised⟩

end ExactCalc.Rational
