import ExactCalc.Proofs.Word.Extension
import ExactCalc.Word.Integer
import Mathlib.Data.Set.Operations

/-!
Words and the integers of bounded types. A word is given as an integer of a type exactly if the
type holds the reading, and the word of that integer at the same width is the word again. An
integer of a type is given back by its word exactly if the width has a word that reads so. A
lesser width may wrap it to another integer of the type, and a greater one may read it as an
integer outside, but neither is taken for the integer itself.
-/

namespace ExactCalc

namespace IntegerType

variable {type : IntegerType} {i : Int}

/-- The integers of a type, as the machine integers of its size spell them. -/
def members : IntegerType → Set Int
  | unbounded => Set.univ
  | signed32 => Set.range Int32.toInt
  | unsigned32 => Set.range fun v : UInt32 => (v.toNat : Int)
  | signed64 => Set.range Int64.toInt
  | unsigned64 => Set.range fun v : UInt64 => (v.toNat : Int)

/-- The bounds of a type are those of its machine integers if these lie within the bounds and reach
every integer there. -/
theorem between_iff_mem_range {α : Type} {f : α → Int} {low high : Int}
    (hbounds : ∀ v, low ≤ f v ∧ f v < high)
    (hreach : ∀ {i}, low ≤ i → i < high → ∃ v, f v = i) :
    (decide (low ≤ i) && decide (i < high)) = true ↔ i ∈ Set.range f := by
  rw [Bool.and_eq_true, decide_eq_true_iff, decide_eq_true_iff]
  constructor
  · rintro ⟨hlow, hhigh⟩
    exact hreach hlow hhigh
  · rintro ⟨v, rfl⟩
    exact hbounds v

theorem holds_iff : type.holds i = true ↔ i ∈ type.members := by
  cases type with
  | unbounded => exact iff_of_true rfl trivial
  | signed32 =>
      exact between_iff_mem_range (fun v => ⟨v.le_toInt, v.toInt_lt⟩) fun hlow hhigh =>
        ⟨_, Int32.toInt_ofInt_of_le hlow hhigh⟩
  | signed64 =>
      exact between_iff_mem_range (fun v => ⟨v.le_toInt, v.toInt_lt⟩) fun hlow hhigh =>
        ⟨_, Int64.toInt_ofInt_of_le hlow hhigh⟩
  | unsigned32 =>
      refine between_iff_mem_range (fun v => ⟨Int.natCast_nonneg _, Int.ofNat_lt.2 v.toNat_lt⟩)
        fun {i} hlow hhigh => ⟨UInt32.ofNat i.toNat, ?_⟩
      have hvalue := UInt32.toNat_ofNat_of_lt' ((Int.toNat_lt hlow).2 hhigh)
      rw [hvalue, Int.toNat_of_nonneg hlow]
  | unsigned64 =>
      refine between_iff_mem_range (fun v => ⟨Int.natCast_nonneg _, Int.ofNat_lt.2 v.toNat_lt⟩)
        fun {i} hlow hhigh => ⟨UInt64.ofNat i.toNat, ?_⟩
      have hvalue := UInt64.toNat_ofNat_of_lt' ((Int.toNat_lt hlow).2 hhigh)
      rw [hvalue, Int.toNat_of_nonneg hlow]

end IntegerType

namespace Word

variable {a : Word} {signed : Bool} {target : IntegerType} {width : Nat} {i : Int}

/-! ### From words -/

theorem toInteger_of_mem (h : a.reading signed ∈ target.members) :
    a.toInteger signed target = .ok (a.reading signed) :=
  if_pos (IntegerType.holds_iff.2 h)

theorem toInteger_of_not_mem (h : a.reading signed ∉ target.members) :
    a.toInteger signed target = .error (.wordTooLarge a.width (a.reading signed) target) :=
  if_neg (mt IntegerType.holds_iff.1 h)

theorem toInteger_eq_ok_iff :
    a.toInteger signed target = .ok i ↔
      a.reading signed ∈ target.members ∧ a.reading signed = i := by
  by_cases h : a.reading signed ∈ target.members
  · rw [toInteger_of_mem h, Except.ok.injEq, and_iff_right h]
  · rw [toInteger_of_not_mem h]
    exact iff_of_false nofun fun hboth => h hboth.1

/-! ### From integers -/

/-- The reading is all that can be given, and an integer of the type is within its range. -/
theorem ofInt_toInteger_iff (hwidth : 0 < width) (signed : Bool) (hi : i ∈ target.members) :
    (ofInt width i >>= fun b => b.toInteger signed target) = .ok i ↔
      (wrap width hwidth i).reading signed = i := by
  rw [ofInt_of_pos hwidth]
  refine toInteger_eq_ok_iff.trans (and_iff_right_of_imp fun h => ?_)
  rwa [h]

theorem value_wrap_eq_iff {hwidth : 0 < width} :
    ((wrap width hwidth i).value : Int) = i ↔ 0 ≤ i ∧ i < 2 ^ width := by
  constructor
  · intro h
    have hlt := value_lt_two_pow (wrap width hwidth i)
    rw [h] at hlt
    exact ⟨h ▸ Int.natCast_nonneg _, hlt⟩
  · rintro ⟨hlow, hhigh⟩
    rw [value_wrap, Int.emod_eq_of_lt hlow hhigh]

/-- A word is given as an integer of a type if and only if its reading is one, and then as its
reading, of which the width makes the word again. An integer of a type comes back from its word of a
width if and only if it is in the range of the reading at that width. -/
theorem toInteger_partial_inverse (a : Word) {width : Nat} (hwidth : 0 < width) :
    (∀ signed target,
      (∀ i, a.toInteger signed target = .ok i ↔
        a.reading signed ∈ target.members ∧ a.reading signed = i) ∧
      (∀ i, a.toInteger signed target = .ok i → ofInt a.width i = .ok a) ∧
      (a.reading signed ∉ target.members →
        a.toInteger signed target = .error (.wordTooLarge a.width (a.reading signed) target) ∧
          (Fault.wordTooLarge a.width (a.reading signed) target).kind = .overflow)) ∧
    ∀ target, ∀ i ∈ target.members,
      ((ofInt width i >>= fun b => b.toInteger true target) = .ok i ↔
        -2 ^ (width - 1) ≤ i ∧ i < 2 ^ (width - 1)) ∧
      ((ofInt width i >>= fun b => b.toInteger false target) = .ok i ↔ 0 ≤ i ∧ i < 2 ^ width) := by
  refine ⟨fun signed target => ⟨fun i => toInteger_eq_ok_iff, fun i h => ?_,
    fun h => ⟨toInteger_of_not_mem h, rfl⟩⟩, fun target i hi => ⟨?_, ?_⟩⟩
  · rw [ofInt_of_pos a.width_pos, ← (toInteger_eq_ok_iff.1 h).2, wrap_reading]
  · exact (ofInt_toInteger_iff hwidth true hi).trans toInt_wrap_eq_iff
  · exact (ofInt_toInteger_iff hwidth false hi).trans value_wrap_eq_iff

/-- The least number of 33 bits is too low for a signed type of 32 bits, and in eight bits an
integer of a type is wrapped to another one. -/
theorem toInteger_partial_inverse_of_least :
    let a := wrap 33 (by decide) (-2 ^ 32)
    0 < 8 ∧ a.toInteger true .signed64 = .ok (-2 ^ 32) ∧ ofInt 33 (-2 ^ 32) = .ok a ∧
      a.reading true ∉ IntegerType.signed32.members ∧
      a.toInteger true .signed32 = .error (.wordTooLarge 33 (-2 ^ 32) .signed32) ∧
      300 ∈ IntegerType.signed64.members ∧
      (ofInt 8 300 >>= fun b => b.toInteger true .signed64) = .ok 44 ∧
      (ofInt 8 300 >>= fun b => b.toInteger true .signed64) ≠ .ok 300 := by
  intro a
  have hwidth : 0 < 8 := by decide
  have hread : a.toInteger true .signed64 = .ok (-2 ^ 32) := by decide
  have houtside : a.reading true ∉ IntegerType.signed32.members :=
    mt IntegerType.holds_iff.2 (by decide)
  have hmember : 300 ∈ IntegerType.signed64.members := IntegerType.holds_iff.1 (by decide)
  have hreading : a.reading true = -2 ^ 32 := by decide
  obtain ⟨hfrom, hback⟩ := toInteger_partial_inverse a hwidth
  have hrefused := ((hfrom true .signed32).2.2 houtside).1
  rw [hreading] at hrefused
  refine ⟨hwidth, hread, (hfrom true .signed64).2.1 _ hread, houtside, hrefused, hmember,
    by decide, fun h => ?_⟩
  exact absurd ((hback .signed64 300 hmember).1.1 h) (by decide)

end Word

end ExactCalc
