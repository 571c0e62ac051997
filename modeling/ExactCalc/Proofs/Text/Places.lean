import ExactCalc.Proofs.Text.Radix
import ExactCalc.Text.LetterCase
import Mathlib.Data.List.Induction
import Mathlib.Data.Nat.Digits.Defs

/-!
The places of a digit sequence. Each digit is read off the number by dividing by the power of the
radix that its place counts for, so there is one sequence of a given length for each number, up to
the letter case of the digits. The digits of a radix and the number that they spell are also said
without the reader, which accepts them and nothing else.
-/

namespace ExactCalc.Numeral

open Text

variable {radix n : Nat} {c : Char} {cs a b : List Char}

/-! ### One digit -/

/-- Up to its letter case, a digit is the one that its number is written as. -/
theorem toUpper_eq (h : digitValue c < 16) : c.toUpper = (digitValue c).digitChar.toUpper := by
  have hall : ∀ code < 128, digitValue (Char.ofNat code) < 16 →
      (Char.ofNat code).toUpper = (digitValue (Char.ofNat code)).digitChar.toUpper := by
    decide
  obtain ⟨-, hcode⟩ := toNat_of_digitValue_lt (h.trans (by decide))
  have hread := hall c.toNat (by omega)
  rw [Char.ofNat_toNat] at hread
  exact hread h

/-- Figures have no letter case. -/
theorem toUpper_eq_self (h : digitValue c < 10) : c.toUpper = c := by
  refine dif_neg ?_
  rintro ⟨hlow, -⟩
  have hletter : 97 ≤ c.toNat := hlow
  rw [digitValue_eq] at h
  split_ifs at h <;> omega

/-! ### All digits -/

theorem natural?_of_forall (hne : cs ≠ []) (h : ∀ c ∈ cs, digitValue c < radix) :
    natural? radix cs = some (value radix cs) := by
  rw [natural?_eq_some_iff, isDigits, Bool.and_eq_true, Bool.not_eq_true',
    List.isEmpty_eq_false_iff, List.all_eq_true]
  exact ⟨⟨hne, fun c hc => decide_eq_true (h c hc)⟩, rfl⟩

/-- The digits of a number stand in ascending places from the last one on. -/
theorem digitValue_getElem_low (h : ∀ c ∈ cs, digitValue c < radix) {i : Nat}
    (hi : i < cs.length) :
    digitValue cs[i] = value radix cs.reverse / radix ^ i % radix := by
  induction cs generalizing i with
  | nil => contradiction
  | cons c cs ih =>
      have hc := h c List.mem_cons_self
      rw [List.reverse_cons, value_append_singleton]
      cases i with
      | zero =>
          rw [pow_zero, Nat.div_one, Nat.mul_add_mod, Nat.mod_eq_of_lt hc]
          rfl
      | succ i =>
          have hrest := ih (fun c hc => h c (List.mem_cons_of_mem _ hc)) (Nat.lt_of_succ_lt_succ hi)
          rw [pow_succ', ← Nat.div_div_eq_div_mul, Nat.mul_add_div (by omega),
            Nat.div_eq_of_lt hc]
          exact hrest

/-- The digit at a place, counted from the first digit. -/
theorem digitValue_getElem (h : ∀ c ∈ cs, digitValue c < radix) {i : Nat} (hi : i < cs.length) :
    digitValue cs[i] = value radix cs / radix ^ (cs.length - 1 - i) % radix := by
  have hlast : cs.length - 1 - i < cs.reverse.length := by
    rw [List.length_reverse]
    omega
  have hlow := digitValue_getElem_low (fun c hc => h c (List.mem_reverse.1 hc)) hlast
  rw [List.reverse_reverse, List.getElem_reverse] at hlow
  rw [← hlow]
  congr 2
  omega

theorem value_lt (h : ∀ c ∈ cs, digitValue c < radix) : value radix cs < radix ^ cs.length := by
  induction cs using List.reverseRecOn with
  | nil => exact Nat.one_pos
  | append_singleton cs c ih =>
      have hc := h c (List.mem_append_right _ List.mem_cons_self)
      have hrest := ih fun c hc => h c (List.mem_append_left _ hc)
      rw [value_append_singleton, List.length_append, List.length_singleton, pow_succ']
      calc radix * value radix cs + digitValue c
          < radix * value radix cs + radix := Nat.add_lt_add_left hc _
        _ = radix * (value radix cs + 1) := (Nat.mul_succ _ _).symm
        _ ≤ radix * radix ^ cs.length := Nat.mul_le_mul_left _ hrest

/-! ### One sequence for each number -/

/-- Digit sequences of one length that are read as one number have the same digits. -/
theorem map_digitValue_eq (ha : natural? radix a = some n) (hb : natural? radix b = some n)
    (hlength : a.length = b.length) : a.map digitValue = b.map digitValue := by
  have hvalue : value radix a = value radix b :=
    (natural?_eq_some_iff.1 ha).2.trans (natural?_eq_some_iff.1 hb).2.symm
  refine List.ext_getElem (by rw [List.length_map, List.length_map, hlength]) fun i hia hib => ?_
  rw [List.length_map] at hia hib
  rw [List.getElem_map, List.getElem_map, digitValue_getElem (digitValue_lt_of_natural? ha) hia,
    digitValue_getElem (digitValue_lt_of_natural? hb) hib, hvalue, hlength]

theorem upperCase_eq_of_natural? (hradix : radix ≤ 16) (ha : natural? radix a = some n)
    (hb : natural? radix b = some n) (hlength : a.length = b.length) :
    upperCase a = upperCase b := by
  have hwritten {cs : List Char} (h : natural? radix cs = some n) :
      upperCase cs = (cs.map digitValue).map fun d => d.digitChar.toUpper := by
    rw [upperCase, List.map_map]
    exact List.map_congr_left fun c hc =>
      toUpper_eq ((digitValue_lt_of_natural? h c hc).trans_le hradix)
  rw [hwritten ha, hwritten hb, map_digitValue_eq ha hb hlength]

theorem upperCase_eq_self (h : ∀ c ∈ cs, digitValue c < 10) : upperCase cs = cs := by
  rw [upperCase, List.map_congr_left fun c hc => toUpper_eq_self (h c hc), List.map_id']

/-! ### A grammar of digits -/

/-- The figures and small letters that are digits, in the order of what they count for. -/
def alphabet : List Char :=
  "0123456789abcdef".toList

/-- One or more digits of a radix, letters in either case, and the number that they spell in their
places. -/
def RadixDigits (radix : Nat) (cs : List Char) (n : Nat) : Prop :=
  cs ≠ [] ∧ (∀ c ∈ cs, c.toLower ∈ alphabet.take radix) ∧
    Nat.ofDigits radix (cs.reverse.map fun c => alphabet.idxOf c.toLower) = n

theorem toLower_mem_alphabet (h : digitValue c < 16) : c.toLower ∈ alphabet := by
  have hall : ∀ code < 128, digitValue (Char.ofNat code) < 16 →
      (Char.ofNat code).toLower ∈ alphabet := by
    decide
  obtain ⟨-, hcode⟩ := toNat_of_digitValue_lt (h.trans (by decide))
  have hread := hall c.toNat (by omega)
  rw [Char.ofNat_toNat] at hread
  exact hread h

theorem digitValue_eq_idxOf (h : c.toLower ∈ alphabet) :
    digitValue c = alphabet.idxOf c.toLower := by
  have hall : ∀ d ∈ alphabet, digitValue d = alphabet.idxOf d :=
    List.forall_iff_forall_mem.1 (by decide)
  rw [← digitValue_toLower, hall _ h]

theorem digitValue_lt_iff (hradix : radix ≤ 16) :
    digitValue c < radix ↔ c.toLower ∈ alphabet.take radix := by
  constructor
  · intro h
    have hmem := toLower_mem_alphabet (h.trans_le hradix)
    rwa [List.mem_take_iff_idxOf_lt hmem, ← digitValue_eq_idxOf hmem]
  · intro h
    have hmem := List.mem_of_mem_take h
    rwa [digitValue_eq_idxOf hmem, ← List.mem_take_iff_idxOf_lt hmem]

theorem value_eq_ofDigits (radix : Nat) (cs : List Char) :
    value radix cs = Nat.ofDigits radix (cs.reverse.map digitValue) := by
  induction cs using List.reverseRecOn with
  | nil => rfl
  | append_singleton cs c ih =>
      rw [value_append_singleton, List.reverse_append, ih, Nat.add_comm]
      rfl

theorem natural?_iff_radixDigits (hradix : radix ≤ 16) :
    natural? radix cs = some n ↔ RadixDigits radix cs n := by
  rw [natural?_eq_some_iff, isDigits, Bool.and_eq_true, Bool.not_eq_true',
    List.isEmpty_eq_false_iff, List.all_eq_true, and_assoc, RadixDigits]
  simp only [decide_eq_true_iff, digitValue_lt_iff hradix]
  refine and_congr_right fun _ => and_congr_right fun h => ?_
  have hdigits : cs.reverse.map digitValue = cs.reverse.map fun c => alphabet.idxOf c.toLower :=
    List.map_congr_left fun c hc =>
      digitValue_eq_idxOf (List.mem_of_mem_take (h c (List.mem_reverse.1 hc)))
  rw [value_eq_ofDigits, hdigits]

end ExactCalc.Numeral
