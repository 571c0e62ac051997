import ExactCalc.Rounding
import ExactCalc.Text.Numeral
import Mathlib.Data.Rat.Floor
import Mathlib.Tactic.Linarith

/-!
What rounding to an integer means, said without dividing: the integer is at most one half away, and
where it is one half away it is the one that the tie rule takes. There is one such integer for each
rule, and a quotient of natural numbers, read with a sign, is rounded to it.
-/

namespace ExactCalc.TieRule

open Numeral

/-- Which of the two integers next to a number halfway between them the rule takes. -/
def Takes (rule : TieRule) (q : ℚ) (n : ℤ) : Prop :=
  match rule with
  | .toEven => Even n
  | .awayFromZero => |q| < |(n : ℚ)|
  | .toZero => |(n : ℚ)| < |q|
  | .toNegativeInfinity => n < q
  | .toPositiveInfinity => q < n

structure Rounds (rule : TieRule) (q : ℚ) (n : ℤ) : Prop where
  near : |q - n| ≤ 1 / 2
  tie : |q - n| = 1 / 2 → rule.Takes q n

/-- The rule seen from the other side of zero. -/
def mirror : TieRule → TieRule
  | .toNegativeInfinity => .toPositiveInfinity
  | .toPositiveInfinity => .toNegativeInfinity
  | .toEven => .toEven
  | .awayFromZero => .awayFromZero
  | .toZero => .toZero

@[simp] theorem mirror_mirror (rule : TieRule) : rule.mirror.mirror = rule := by
  cases rule <;> rfl

variable {rule : TieRule} {q : ℚ} {m n : ℤ}

/-! ### One integer for each number -/

theorem Rounds.of_lt (h : |q - n| < 1 / 2) : rule.Rounds q n :=
  ⟨h.le, fun htie => absurd htie h.ne⟩

theorem rounds_intCast (rule : TieRule) (n : ℤ) : rule.Rounds n n :=
  .of_lt (by norm_num)

/-- No other integer is nearer than one half. -/
theorem Rounds.half_le (h : rule.Rounds q n) (hne : m ≠ n) : 1 / 2 ≤ |q - m| := by
  have hapart : (1 : ℚ) ≤ |(m : ℚ) - n| := by
    exact_mod_cast Int.one_le_abs (sub_ne_zero.2 hne)
  have htriangle := abs_sub_le (m : ℚ) q n
  rw [abs_sub_comm (m : ℚ) q] at htriangle
  have hnear := h.near
  linarith

theorem Rounds.nearest (h : rule.Rounds q n) (k : ℤ) : |q - n| ≤ |q - k| := by
  by_cases hk : k = n
  · rw [hk]
  · exact h.near.trans (h.half_le hk)

/-- Another integer is as near only where the rule decided. -/
theorem Rounds.takes_of_eq (h : rule.Rounds q n) {k : ℤ} (hne : k ≠ n)
    (heq : |q - n| = |q - k|) : rule.Takes q n :=
  h.tie (le_antisymm h.near (heq ▸ h.half_le hne))

/-- A number halfway between two integers is nearer to zero than one of them only. -/
theorem abs_half (n : ℤ) :
    |(n : ℚ)| < |(n : ℚ) + 1 / 2| ∧ |(n : ℚ) + 1 / 2| < |(n : ℚ) + 1| ∨
      |(n : ℚ) + 1| < |(n : ℚ) + 1 / 2| ∧ |(n : ℚ) + 1 / 2| < |(n : ℚ)| := by
  rcases le_or_gt 0 n with hn | hn
  · have hn' : (0 : ℚ) ≤ n := Int.cast_nonneg hn
    left
    rw [abs_of_nonneg hn', abs_of_nonneg (by linarith), abs_of_nonneg (by linarith)]
    constructor <;> linarith
  · have hn' : (n : ℚ) + 1 ≤ 0 := by exact_mod_cast hn
    right
    rw [abs_of_nonpos hn', abs_of_nonpos (by linarith), abs_of_nonpos (by linarith)]
    constructor <;> linarith

/-- The rule takes one side of a number only. -/
theorem Takes.not_succ (h : rule.Takes (n + 1 / 2) n) :
    ¬rule.Takes (n + 1 / 2) (n + 1 : ℤ) := by
  intro h'
  cases rule with
  | toEven => exact (Int.even_add_one.1 h') h
  | awayFromZero | toZero =>
      rw [Takes, Int.cast_add, Int.cast_one] at h'
      rw [Takes] at h
      rcases abs_half n with ⟨hlow, hhigh⟩ | ⟨hlow, hhigh⟩ <;> linarith
  | toNegativeInfinity =>
      rw [Takes, Int.cast_add, Int.cast_one] at h'
      linarith
  | toPositiveInfinity =>
      rw [Takes] at h
      linarith

theorem Rounds.le_of_rounds (hm : rule.Rounds q m) (hn : rule.Rounds q n) : n ≤ m := by
  by_contra hlt
  have hne : m ≠ n := fun h => hlt h.ge
  have hsucc : (m : ℚ) + 1 ≤ n := by exact_mod_cast not_le.1 hlt
  have hnear := abs_le.1 hm.near
  have hnear' := abs_le.1 hn.near
  -- Both are one half away, so they are next to each other with the number between them.
  obtain rfl : q = m + 1 / 2 := by linarith
  obtain rfl : n = m + 1 := by
    have heq : (n : ℚ) = m + 1 := by linarith
    exact_mod_cast heq
  exact (hm.tie (le_antisymm hm.near (hn.half_le hne))).not_succ
    (hn.tie (le_antisymm hn.near (hm.half_le hne.symm)))

theorem Rounds.unique (hm : rule.Rounds q m) (hn : rule.Rounds q n) : m = n :=
  le_antisymm (hn.le_of_rounds hm) (hm.le_of_rounds hn)

/-! ### Halfway between two integers -/

theorem Rounds.eq_or_eq_succ {k : ℤ} (h : rule.Rounds (k + 1 / 2) n) : n = k ∨ n = k + 1 := by
  obtain ⟨hlow, hhigh⟩ := abs_le.1 h.near
  have hle : k ≤ n := by
    have hle : (k : ℚ) ≤ n := by linarith
    exact_mod_cast hle
  have hge : n ≤ k + 1 := by
    have hge : (n : ℚ) ≤ k + 1 := by linarith
    exact_mod_cast hge
  omega

/-- Both integers are one half away, so the rule decides. -/
theorem Rounds.takes_of_half {k : ℤ} (h : rule.Rounds (k + 1 / 2) n) :
    rule.Takes (k + 1 / 2) n := by
  apply h.tie
  rcases h.eq_or_eq_succ with rfl | rfl
  · rw [add_sub_cancel_left, abs_of_pos (by norm_num)]
  · rw [Int.cast_add, Int.cast_one, abs_of_neg (by linarith)]
    linarith

theorem Rounds.abs_eq_max {k : ℤ} (h : awayFromZero.Rounds (k + 1 / 2) n) :
    |n| = max |k| |k + 1| := by
  have htakes : |(k : ℚ) + 1 / 2| < |(n : ℚ)| := h.takes_of_half
  rcases h.eq_or_eq_succ with rfl | rfl
  · obtain ⟨hlow, hhigh⟩ := (abs_half n).resolve_left fun hout => htakes.asymm hout.1
    have hle : |n + 1| ≤ |n| := by exact_mod_cast (hlow.trans hhigh).le
    rw [max_eq_left hle]
  · rw [Int.cast_add, Int.cast_one] at htakes
    obtain ⟨hlow, hhigh⟩ := (abs_half k).resolve_right fun hout => htakes.asymm hout.1
    have hle : |k| ≤ |k + 1| := by exact_mod_cast (hlow.trans hhigh).le
    rw [max_eq_right hle]

theorem Rounds.abs_eq_min {k : ℤ} (h : toZero.Rounds (k + 1 / 2) n) : |n| = min |k| |k + 1| := by
  have htakes : |(n : ℚ)| < |(k : ℚ) + 1 / 2| := h.takes_of_half
  rcases h.eq_or_eq_succ with rfl | rfl
  · obtain ⟨hlow, hhigh⟩ := (abs_half n).resolve_right fun hout => htakes.asymm hout.2
    have hle : |n| ≤ |n + 1| := by exact_mod_cast (hlow.trans hhigh).le
    rw [min_eq_left hle]
  · rw [Int.cast_add, Int.cast_one] at htakes
    obtain ⟨hlow, hhigh⟩ := (abs_half k).resolve_left fun hout => htakes.asymm hout.2
    have hle : |k + 1| ≤ |k| := by exact_mod_cast (hlow.trans hhigh).le
    rw [min_eq_right hle]

theorem Rounds.eq_of_half {k : ℤ} (h : toNegativeInfinity.Rounds (k + 1 / 2) n) : n = k := by
  have htakes : (n : ℚ) < k + 1 / 2 := h.takes_of_half
  refine h.eq_or_eq_succ.resolve_right ?_
  rintro rfl
  rw [Int.cast_add, Int.cast_one] at htakes
  linarith

theorem Rounds.eq_succ_of_half {k : ℤ} (h : toPositiveInfinity.Rounds (k + 1 / 2) n) :
    n = k + 1 := by
  have htakes : (k : ℚ) + 1 / 2 < n := h.takes_of_half
  refine h.eq_or_eq_succ.resolve_left ?_
  rintro rfl
  linarith

/-- Elsewhere one integer is nearer than all others, and every rule rounds to it. -/
theorem Rounds.of_ne_half {rule' : TieRule} (h : rule.Rounds q n)
    (hq : ∀ k : ℤ, q ≠ k + 1 / 2) : rule'.Rounds q n := by
  refine .of_lt (lt_of_le_of_ne h.near fun htie => ?_)
  rcases (abs_eq (by norm_num)).1 htie with hup | hdown
  · exact hq n (by linarith)
  · refine hq (n - 1) ?_
    rw [Int.cast_sub, Int.cast_one]
    linarith

/-! ### The other side of zero -/

theorem Takes.neg (h : rule.Takes q n) : rule.mirror.Takes (-q) (-n : ℤ) := by
  cases rule with
  | toEven => exact Even.neg h
  | awayFromZero | toZero => rwa [mirror, Takes, Int.cast_neg, abs_neg, abs_neg]
  | toNegativeInfinity | toPositiveInfinity => rwa [mirror, Takes, Int.cast_neg, neg_lt_neg_iff]

theorem Rounds.neg (h : rule.Rounds q n) : rule.mirror.Rounds (-q) (-n : ℤ) := by
  have habs : |-q - ((-n : ℤ) : ℚ)| = |q - n| := by
    rw [Int.cast_neg, neg_sub_neg, abs_sub_comm]
  exact ⟨habs ▸ h.near, fun htie => (h.tie (habs ▸ htie)).neg⟩

/-! ### Along the number line -/

/-- The distances by which a number can move while the rule takes the same side of it. -/
def Translates (rule : TieRule) (k : ℤ) : Prop :=
  match rule with
  | .toEven => Even k
  | .toNegativeInfinity | .toPositiveInfinity => True
  | .awayFromZero | .toZero => k = 0

theorem Rounds.mono {q' : ℚ} (hq : q ≤ q') (hm : rule.Rounds q m) (hn : rule.Rounds q' n) :
    m ≤ n := by
  rcases hq.eq_or_lt with rfl | hlt
  · exact (hm.unique hn).le
  · by_contra hle
    have hsucc : (n : ℚ) + 1 ≤ m := by exact_mod_cast not_le.1 hle
    -- Half a unit on each side leaves no room for the two numbers between the integers.
    have hlow := (abs_le.1 hm.near).1
    have hhigh := (abs_le.1 hn.near).2
    linarith

theorem Takes.add {k : ℤ} (hk : rule.Translates k) (h : rule.Takes q n) :
    rule.Takes (q + k) (n + k : ℤ) := by
  cases rule with
  | toEven => exact Even.add h hk
  | awayFromZero | toZero =>
      obtain rfl : k = 0 := hk
      rwa [Int.cast_zero, add_zero, add_zero]
  | toNegativeInfinity | toPositiveInfinity => rwa [Takes, Int.cast_add, add_lt_add_iff_right]

theorem Rounds.add {k : ℤ} (hk : rule.Translates k) (h : rule.Rounds q n) :
    rule.Rounds (q + k) (n + k : ℤ) := by
  have hsame : q + k - ((n + k : ℤ) : ℚ) = q - n := by
    rw [Int.cast_add, add_sub_add_right_eq_sub]
  exact ⟨hsame ▸ h.near, fun htie => (h.tie (hsame ▸ htie)).add hk⟩

/-! ### Quotients -/

theorem quotient_true (rule : TieRule) (num den : ℕ) :
    rule.quotient true num den = rule.mirror.quotient false num den := by
  cases rule <;> rfl

/-- A whole number stays as it is. -/
theorem quotient_of_div_eq (rule : TieRule) (negative : Bool) {num den count : ℕ} (hden : 0 < den)
    (h : (num : ℚ) / den = count) : rule.quotient negative num den = count := by
  have hnum : num = count * den := by
    rw [div_eq_iff (Nat.cast_ne_zero.2 hden.ne')] at h
    exact_mod_cast h
  rw [hnum, quotient_of_dvd rule negative hden (Nat.dvd_mul_left den count),
    Nat.mul_div_cancel count hden]

/-- Ties to even without looking at the sign. -/
theorem quotient_toEven (negative : Bool) (num den : ℕ) :
    toEven.quotient negative num den =
      if den < 2 * (num % den) || (2 * (num % den) == den && num / den % 2 == 1) then num / den + 1
      else num / den := by
  rw [quotient]
  split
  · next h =>
    have hlt := Nat.compare_eq_lt.1 h
    rw [decide_eq_false hlt.asymm, beq_false_of_ne hlt.ne]
    rfl
  · next h =>
    have heq := Nat.compare_eq_eq.1 h
    rw [heq, decide_eq_false (lt_irrefl den), beq_self_eq_true]
    rfl
  · next h =>
    have hgt := Nat.compare_eq_gt.1 h
    rw [decide_eq_true hgt]
    rfl

theorem takes_up {whole : ℕ} (haway : rule.away false whole = true) :
    rule.Takes ((whole : ℚ) + 1 / 2) (whole + 1 : ℕ) := by
  have hlow : (0 : ℚ) ≤ whole := Nat.cast_nonneg whole
  cases rule with
  | toEven =>
      have hodd : whole % 2 = 1 := beq_iff_eq.1 haway
      exact (Int.even_coe_nat _).2 (Nat.even_add_one.2 (Nat.not_even_iff.2 hodd))
  | awayFromZero =>
      rw [Takes, Int.cast_natCast, Nat.cast_add_one, abs_of_nonneg (by linarith),
        abs_of_nonneg (by linarith)]
      linarith
  | toZero | toNegativeInfinity => contradiction
  | toPositiveInfinity =>
      rw [Takes, Int.cast_natCast, Nat.cast_add_one]
      linarith

theorem takes_down {whole : ℕ} (haway : ¬rule.away false whole = true) :
    rule.Takes ((whole : ℚ) + 1 / 2) whole := by
  have hlow : (0 : ℚ) ≤ whole := Nat.cast_nonneg whole
  cases rule with
  | toEven =>
      have heven : ¬whole % 2 = 1 := fun h => haway (beq_iff_eq.2 h)
      exact (Int.even_coe_nat _).2 (Nat.even_iff.2 (Nat.mod_two_ne_one.1 heven))
  | toZero =>
      rw [Takes, Int.cast_natCast, abs_of_nonneg hlow, abs_of_nonneg (by linarith)]
      linarith
  | toNegativeInfinity =>
      rw [Takes, Int.cast_natCast]
      linarith
  | awayFromZero | toPositiveInfinity => exact absurd rfl haway

/-- Halfway between two natural numbers. -/
theorem rounds_half (rule : TieRule) (whole : ℕ) :
    rule.Rounds ((whole : ℚ) + 1 / 2)
      (if rule.away false whole then whole + 1 else whole : ℕ) := by
  split
  · next haway =>
    refine ⟨?_, fun _ => takes_up haway⟩
    rw [Int.cast_natCast, Nat.cast_add_one, abs_le]
    constructor <;> linarith
  · next haway =>
    refine ⟨?_, fun _ => takes_down haway⟩
    rw [Int.cast_natCast, abs_le]
    constructor <;> linarith

theorem rounds_quotient_false (rule : TieRule) (num : ℕ) {den : ℕ} (hden : 0 < den) :
    rule.Rounds ((num : ℚ) / den) (rule.quotient false num den : ℕ) := by
  have hpos : (0 : ℚ) < den := Nat.cast_pos.2 hden
  have hdiv : (num : ℚ) = den * (num / den : ℕ) + (num % den : ℕ) := by
    exact_mod_cast (Nat.div_add_mod num den).symm
  have hmod : ((num % den : ℕ) : ℚ) < den := Nat.cast_lt.2 (Nat.mod_lt num hden)
  -- The part of the quotient after the point.
  obtain ⟨part, hpart⟩ : ∃ part : ℚ, part = (num % den : ℕ) / den := ⟨_, rfl⟩
  have hvalue : (num : ℚ) / den = (num / den : ℕ) + part := by
    rw [hpart, div_eq_iff hpos.ne', add_mul, div_mul_cancel₀ _ hpos.ne', mul_comm]
    exact hdiv
  have hzero : 0 ≤ part := hpart ▸ div_nonneg (Nat.cast_nonneg _) hpos.le
  have hone : part < 1 := by rwa [hpart, div_lt_one hpos]
  rw [hvalue, quotient]
  split
  · next h =>
    have hlt : (2 * (num % den : ℕ) : ℚ) < den := by exact_mod_cast Nat.compare_eq_lt.1 h
    have hhalf : part < 1 / 2 := by
      rw [hpart, div_lt_iff₀ hpos]
      linarith
    apply Rounds.of_lt
    rw [Int.cast_natCast, add_sub_cancel_left, abs_of_nonneg hzero]
    exact hhalf
  · next h =>
    have heq : (2 * (num % den : ℕ) : ℚ) = den := by exact_mod_cast Nat.compare_eq_eq.1 h
    have hhalf : part = 1 / 2 := by
      rw [hpart, div_eq_iff hpos.ne']
      linarith
    rw [hhalf]
    exact rounds_half rule _
  · next h =>
    have hgt : (den : ℚ) < 2 * (num % den : ℕ) := by exact_mod_cast Nat.compare_eq_gt.1 h
    have hhalf : 1 / 2 < part := by
      rw [hpart, lt_div_iff₀ hpos]
      linarith
    apply Rounds.of_lt
    rw [Int.cast_natCast, Nat.cast_add_one, abs_lt]
    constructor <;> linarith

/-- A quotient of natural numbers is rounded on the side of zero that its sign says. -/
theorem rounds_quotient (rule : TieRule) (negative : Bool) (num : ℕ) {den : ℕ} (hden : 0 < den) :
    rule.Rounds ((signed negative num : ℚ) / den)
      (signed negative (rule.quotient negative num den)) := by
  cases negative with
  | false => exact rounds_quotient_false rule num hden
  | true =>
      have h := (rounds_quotient_false rule.mirror num hden).neg
      rw [mirror_mirror, ← quotient_true, ← neg_div] at h
      rw [signed, if_pos rfl, signed, if_pos rfl, Int.cast_neg]
      exact h

end ExactCalc.TieRule
