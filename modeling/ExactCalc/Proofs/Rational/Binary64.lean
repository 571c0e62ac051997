import ExactCalc.Proofs.Binary64
import ExactCalc.Proofs.Rational.Field
import ExactCalc.Rational.Binary64
import Mathlib.Data.Nat.Prime.Basic

/-!
Reading binary floating point numbers as rationals. Scaling by a power of two, above or below the
line, loses nothing, and reducing the fraction keeps a power of two below it. So a finite pattern is
read as the number that its sign, its exponent and its fraction spell, and two patterns are read as
one rational only if they are the two zeros.
-/

namespace ExactCalc.Rational

open Numeral

variable {x y : Binary64} {a : Rational}

/-- A finite number is read exactly. -/
theorem map_toRat_ofBinary64 (x : Binary64) :
    (ofBinary64 x).map toRat =
      if x.isFinite then .ok x.toRat else .error (.notFinite x.nonFiniteName) := by
  rw [ofBinary64]
  cases hfinite : x.isFinite with
  | false => rfl
  | true =>
      simp only [Bool.not_true, Bool.false_eq_true, if_false, if_true, Except.map, toRat_reduce,
        signed_mul]
      rw [Binary64.toRat, ← Binary64.two_pow_div_two_pow]
      push_cast
      rw [mul_div_assoc]

theorem ofBinary64_eq_error_iff {fault : Fault} :
    ofBinary64 x = .error fault ↔
      x.isFinite = false ∧ fault = .notFinite x.nonFiniteName := by
  rw [ofBinary64]
  cases x.isFinite <;> simp [eq_comm]

theorem den_reduce_dvd (num : ℤ) {den : ℕ} (hden : 0 < den) : (reduce num den hden).den ∣ den :=
  Nat.div_dvd_of_dvd (Nat.gcd_dvd_right num.natAbs den)

theorem den_dvd_two_pow (h : ofBinary64 x = .ok a) : a.den ∣ 2 ^ (-x.exponent).toNat := by
  rw [ofBinary64] at h
  split at h
  · contradiction
  · obtain rfl := Except.ok.inj h
    exact den_reduce_dvd _ _

/-- Below the line there is a power of two. -/
theorem exists_den_eq_two_pow (h : ofBinary64 x = .ok a) : ∃ k ≤ 1074, a.den = 2 ^ k := by
  obtain ⟨k, hk, hden⟩ := (Nat.dvd_prime_pow Nat.prime_two).1 (den_dvd_two_pow h)
  exact ⟨k, hk.trans x.neg_exponent_le, hden⟩

/-- What is read is finite, and the number of the pattern. -/
theorem toRat_of_ofBinary64 (h : ofBinary64 x = .ok a) :
    x.isFinite = true ∧ a.toRat = x.toRat := by
  have hmap := map_toRat_ofBinary64 x
  rw [h, Except.map] at hmap
  split at hmap
  · next hfinite => exact ⟨hfinite, Except.ok.inj hmap⟩
  · contradiction

theorem exists_ofBinary64 (hfinite : x.isFinite = true) :
    ∃ a, ofBinary64 x = .ok a ∧ a.toRat = x.toRat := by
  rw [← map_toRat_eq_ok_iff, map_toRat_ofBinary64, if_pos hfinite]

theorem ofBinary64_eq_iff (hx : x.isFinite = true) (hy : y.isFinite = true) :
    ofBinary64 x = ofBinary64 y ↔ x.toRat = y.toRat := by
  obtain ⟨a, ha, hvalue⟩ := exists_ofBinary64 hx
  obtain ⟨b, hb, hvalue'⟩ := exists_ofBinary64 hy
  rw [ha, hb, Except.ok.injEq, ← toRat_injective.eq_iff, hvalue, hvalue']

/-! ### Patterns -/

/-- A pattern is refused for its greatest exponent alone, every other one is read as its number over
a power of two, and no two of them are read as one rational but the two zeros. -/
theorem ofBinary64_exact (bits : BitVec 64) :
    ((∃ fault, ofBinary64 (.ofBits bits.toNat) = .error fault) ↔
      Binary64.exponentField bits = 2047) ∧
    (∀ fault, ofBinary64 (.ofBits bits.toNat) = .error fault → fault.kind = .argument) ∧
    (Binary64.exponentField bits ≠ 2047 → ∃ a, ofBinary64 (.ofBits bits.toNat) = .ok a ∧
      a.toRat = Binary64.value bits ∧ ∃ k ≤ 1074, a.den = 2 ^ k) ∧
    ∀ bits' : BitVec 64, Binary64.exponentField bits ≠ 2047 →
      Binary64.exponentField bits' ≠ 2047 →
      (ofBinary64 (.ofBits bits.toNat) = ofBinary64 (.ofBits bits'.toNat) ↔
        bits = bits' ∨ (Binary64.exponentField bits = 0 ∧ Binary64.fractionField bits = 0) ∧
          Binary64.exponentField bits' = 0 ∧ Binary64.fractionField bits' = 0) := by
  have hfinite := Binary64.isFinite_ofBits bits
  refine ⟨?_, ?_, ?_, ?_⟩
  · simp only [ofBinary64_eq_error_iff, exists_and_left, exists_eq, and_true]
    rw [← Bool.not_eq_true, hfinite, not_not]
  · intro fault h
    rw [(ofBinary64_eq_error_iff.1 h).2]
    rfl
  · intro hexponent
    obtain ⟨a, hread, hvalue⟩ := exists_ofBinary64 (hfinite.2 hexponent)
    exact ⟨a, hread, hvalue.trans (Binary64.toRat_ofBits bits), exists_den_eq_two_pow hread⟩
  · intro bits' hexponent hexponent'
    rw [ofBinary64_eq_iff (hfinite.2 hexponent) ((Binary64.isFinite_ofBits bits').2 hexponent'),
      Binary64.toRat_eq_toRat_iff, Binary64.ofBits_toNat_injective.eq_iff,
      Binary64.magnitude_ofBits_eq_zero_iff, Binary64.magnitude_ofBits_eq_zero_iff]

/-- The smallest positive number, and the zeros without a sign and with one. -/
theorem ofBinary64_exact_of_zeros :
    Binary64.exponentField 1#64 ≠ 2047 ∧
      (∃ a, ofBinary64 (.ofBits (1#64).toNat) = .ok a ∧ a.toRat = Binary64.value 1#64 ∧
        ∃ k ≤ 1074, a.den = 2 ^ k) ∧
      Binary64.exponentField 0#64 ≠ 2047 ∧ Binary64.exponentField (BitVec.intMin 64) ≠ 2047 ∧
      ofBinary64 (.ofBits (0#64).toNat) = ofBinary64 (.ofBits (BitVec.intMin 64).toNat) := by
  have hsmallest : Binary64.exponentField 1#64 ≠ 2047 := by decide
  have hzero : Binary64.exponentField 0#64 ≠ 2047 := by decide
  have hsigned : Binary64.exponentField (BitVec.intMin 64) ≠ 2047 := by decide
  refine ⟨hsmallest, (ofBinary64_exact 1#64).2.2.1 hsmallest, hzero, hsigned, ?_⟩
  exact ((ofBinary64_exact 0#64).2.2.2 (BitVec.intMin 64) hzero hsigned).2 (by decide)

end ExactCalc.Rational
