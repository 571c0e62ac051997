import ExactCalc.Text.Numeral
import Mathlib.Data.List.Basic
import Mathlib.Tactic.IntervalCases

/-!
Digits in a radix, letters included. A number is printed in digits that are read as that number
again, and neither zeros in front of them nor capital letters make a difference. The digits of a
radix are letters and figures, which take one byte each and are no blanks.
-/

namespace ExactCalc.Numeral

open Text

variable {radix n : Nat} {c : Char} {cs : List Char}

/-! ### One digit -/

theorem digitValue_eq (c : Char) :
    digitValue c =
      if 48 ≤ c.toNat ∧ c.toNat ≤ 57 then c.toNat - 48
      else if 97 ≤ c.toNat ∧ c.toNat ≤ 122 then c.toNat - 97 + 10
      else if 65 ≤ c.toNat ∧ c.toNat ≤ 90 then c.toNat - 65 + 10
      else 36 := by
  simp only [digitValue, Char.le_def, UInt32.le_iff_toNat_le]
  rfl

theorem toNat_of_digitValue_lt (h : digitValue c < 36) : 48 ≤ c.toNat ∧ c.toNat ≤ 122 := by
  rw [digitValue_eq] at h
  split_ifs at h <;> omega

theorem isBlank_of_digitValue_lt (h : digitValue c < 36) : isBlank c = false := by
  obtain ⟨hlow, hhigh⟩ := toNat_of_digitValue_lt h
  simp only [isBlank, blankRanges, List.any_cons, List.any_nil, Bool.or_eq_false_iff,
    Bool.and_eq_false_iff, decide_eq_false_iff_not, and_true]
  omega

theorem utf8Size_of_digitValue_lt (h : digitValue c < 36) : c.utf8Size = 1 := by
  obtain ⟨-, hhigh⟩ := toNat_of_digitValue_lt h
  rw [Char.utf8Size_eq_one_iff, UInt32.le_iff_toNat_le]
  exact hhigh.trans (by decide)

theorem digitValue_digitChar (h : n < 16) : digitValue n.digitChar = n := by
  interval_cases n <;> rfl

/-! ### Letter case -/

theorem toNat_toUpper (c : Char) :
    c.toUpper.toNat = if 97 ≤ c.toNat ∧ c.toNat ≤ 122 then c.toNat - 32 else c.toNat := by
  split
  · next h =>
    have hletter : 'a'.val ≤ c.val ∧ c.val ≤ 'z'.val := h
    have hstep : ('A'.val - 'a'.val).toNat = 2 ^ 32 - 32 := rfl
    have hval : c.toUpper.val = c.val + ('A'.val - 'a'.val) := by
      delta Char.toUpper
      rw [dif_pos hletter]
    rw [Char.toNat, hval, UInt32.toNat_add, hstep]
    show (c.toNat + (2 ^ 32 - 32)) % 2 ^ 32 = c.toNat - 32
    omega
  · next h => exact congrArg Char.toNat (dif_neg h)

theorem toNat_toLower (c : Char) :
    c.toLower.toNat = if 65 ≤ c.toNat ∧ c.toNat ≤ 90 then c.toNat + 32 else c.toNat := by
  split
  · next h =>
    have hletter : 'A'.val ≤ c.val ∧ c.val ≤ 'Z'.val := h
    have hval : c.toLower.val = c.val + ('a'.val - 'A'.val) := by
      delta Char.toLower
      rw [dif_pos hletter]
    rw [Char.toNat, hval, UInt32.toNat_add]
    show (c.toNat + 32) % 2 ^ 32 = c.toNat + 32
    omega
  · next h => exact congrArg Char.toNat (dif_neg h)

/-- A letter counts for the same in either case. -/
theorem digitValue_toUpper (c : Char) : digitValue c.toUpper = digitValue c := by
  rw [digitValue_eq, digitValue_eq, toNat_toUpper]
  split_ifs <;> omega

theorem digitValue_toLower (c : Char) : digitValue c.toLower = digitValue c := by
  rw [digitValue_eq, digitValue_eq, toNat_toLower]
  split_ifs <;> omega

/-! ### Digits in a row -/

theorem digitValue_lt_of_natural? (h : natural? radix cs = some n) :
    ∀ c ∈ cs, digitValue c < radix := by
  rw [natural?_eq_some_iff, isDigits, Bool.and_eq_true, List.all_eq_true] at h
  exact fun c hc => of_decide_eq_true (h.1.2 c hc)

theorem natural?_singleton (h : digitValue c < radix) :
    natural? radix [c] = some (digitValue c) := by
  rw [natural?_eq_some_iff]
  exact ⟨by simp [isDigits, h], by simp [value]⟩

theorem natural?_append_singleton (h : natural? radix cs = some n) (hc : digitValue c < radix) :
    natural? radix (cs ++ [c]) = some (radix * n + digitValue c) := by
  rw [natural?_eq_some_iff] at h ⊢
  obtain ⟨hdigits, rfl⟩ := h
  rw [isDigits, Bool.and_eq_true] at hdigits
  exact ⟨by simp [isDigits, hdigits.2, hc], value_append_singleton radix cs c⟩

/-- The digits of a number are read as the number. -/
theorem natural?_toDigits (hradix : 1 < radix) (hletters : radix ≤ 16) (n : Nat) :
    natural? radix (Nat.toDigits radix n) = some n := by
  induction n using Nat.strongRecOn with
  | ind n ih =>
      have hdigit {d : Nat} (hd : d < radix) : digitValue d.digitChar = d :=
        digitValue_digitChar (by omega)
      rw [Nat.toDigits_eq_if hradix]
      split
      · next hsmall =>
        have hread := natural?_singleton (c := n.digitChar) (by rwa [hdigit hsmall])
        rwa [hdigit hsmall] at hread
      · next hlarge =>
        have hlast : n % radix < radix := Nat.mod_lt _ (by omega)
        have hread := natural?_append_singleton (c := (n % radix).digitChar)
          (ih (n / radix) (Nat.div_lt_self (by omega) hradix)) (by rwa [hdigit hlast])
        rwa [hdigit hlast, Nat.div_add_mod] at hread

theorem natural?_map_toUpper (radix : Nat) (cs : List Char) :
    natural? radix (cs.map Char.toUpper) = natural? radix cs := by
  have hdigits : isDigits radix (cs.map Char.toUpper) = isDigits radix cs := by
    simp [isDigits, List.all_map, Function.comp_def, digitValue_toUpper]
  have hvalue : value radix (cs.map Char.toUpper) = value radix cs := by
    simp [value, List.foldl_map, digitValue_toUpper]
  rw [natural?, natural?, hdigits, hvalue]

theorem natural?_binary (n : Nat) : natural? 2 (binary n) = some n :=
  natural?_toDigits (by decide) (by decide) n

theorem natural?_upperHex (n : Nat) : natural? 16 (upperHex n) = some n := by
  rw [upperHex, natural?_map_toUpper]
  exact natural?_toDigits (by decide) (by decide) n

theorem natural?_zero_cons (hradix : 0 < radix) (h : natural? radix cs = some n) :
    natural? radix ('0' :: cs) = some n := by
  have hzero : digitValue '0' = 0 := rfl
  rw [natural?_eq_some_iff] at h ⊢
  obtain ⟨hdigits, rfl⟩ := h
  rw [isDigits, Bool.and_eq_true] at hdigits
  exact ⟨by simp [isDigits, hdigits.2, hzero, hradix], by simp [value, hzero]⟩

/-- Zeros in front of digits make no difference. -/
theorem natural?_padded (hradix : 0 < radix) (h : natural? radix cs = some n) (length : Nat) :
    natural? radix (padded length cs) = some n := by
  rw [padded]
  induction length - cs.length with
  | zero => exact h
  | succ zeros ih =>
      rw [List.replicate_succ, List.cons_append]
      exact natural?_zero_cons hradix ih

/-! ### How many digits there are -/

@[simp] theorem length_padded (length : Nat) (cs : List Char) :
    (padded length cs).length = max length cs.length := by
  simp only [padded, List.length_append, List.length_replicate]
  omega

theorem length_binary_le {width : Nat} (hwidth : 0 < width) (h : n < 2 ^ width) :
    (binary n).length ≤ width :=
  (Nat.length_toDigits_le_iff (by decide) hwidth).2 h

/-- A hexadecimal digit holds four bits. -/
theorem length_upperHex_le {digits : Nat} (hdigits : 0 < digits) (h : n < 2 ^ (4 * digits)) :
    (upperHex n).length ≤ digits := by
  rw [upperHex, List.length_map]
  refine (Nat.length_toDigits_le_iff (by decide) hdigits).2 ?_
  rwa [Nat.pow_mul] at h

end ExactCalc.Numeral
