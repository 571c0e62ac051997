import ExactCalc.Proofs.Text.Parts
import ExactCalc.Text.Numeral

/-!
A grammar of decimal numerals: which texts are numerals and what number each one spells, said
without the readers. The readers accept the texts of the grammar and no others, with the number that
the grammar gives.
-/

namespace ExactCalc.Numeral

open Text

/-- One or more decimal digits and the number that they spell. -/
def Digits (cs : List Char) (n : Nat) : Prop :=
  cs ≠ [] ∧ (∀ c ∈ cs, c.isDigit = true) ∧ Nat.ofDigitChars 10 cs 0 = n

inductive Signed {α : Type} [Neg α] (Body : List Char → α → Prop) : List Char → α → Prop
  | bare {cs : List Char} {x : α} (body : Body cs x) : Signed Body cs x
  | plus {cs : List Char} {x : α} (body : Body cs x) : Signed Body ('+' :: cs) x
  | minus {cs : List Char} {x : α} (body : Body cs x) : Signed Body ('-' :: cs) (-x)

def Integer : List Char → Int → Prop :=
  Signed fun cs i => ∃ n : Nat, Digits cs n ∧ i = n

/-! ### Digits -/

theorem digitValue_lt_ten_iff {c : Char} : digitValue c < 10 ↔ c.isDigit = true := by
  have hrange : '0' ≤ c ∧ c ≤ '9' ↔ c.isDigit = true := by
    rw [Char.isDigit_iff_toNat, Char.le_def, Char.le_def, UInt32.le_iff_toNat_le,
      UInt32.le_iff_toNat_le]
    rfl
  rw [digitValue]
  split
  · next h =>
    have hdigit := hrange.1 h
    have hcode := Char.isDigit_iff_toNat.1 hdigit
    refine iff_of_true ?_ hdigit
    have hzero : '0'.toNat = 48 := rfl
    have hnine : '9'.toNat = 57 := rfl
    omega
  · next h =>
    refine iff_of_false ?_ (mt hrange.2 h)
    split
    · omega
    · split <;> omega

theorem isBlank_of_isDigit {c : Char} (h : c.isDigit = true) : isBlank c = false := by
  have hcode : 48 ≤ c.toNat ∧ c.toNat ≤ 57 := Char.isDigit_iff_toNat.1 h
  simp only [isBlank, blankRanges, List.any_cons, List.any_nil, Bool.or_eq_false_iff,
    Bool.and_eq_false_iff, decide_eq_false_iff_not, and_true]
  omega

theorem digitValue_of_isDigit {c : Char} (h : c.isDigit = true) :
    digitValue c = c.toNat - '0'.toNat := by
  rw [digitValue, if_pos]
  rw [Char.le_def, Char.le_def, UInt32.le_iff_toNat_le, UInt32.le_iff_toNat_le]
  exact Char.isDigit_iff_toNat.1 h

theorem all_digitValue_iff {cs : List Char} :
    (cs.all fun c => digitValue c < 10) = true ↔ ∀ c ∈ cs, c.isDigit = true := by
  simp only [List.all_eq_true, decide_eq_true_iff, digitValue_lt_ten_iff]

theorem value_eq_ofDigitChars {cs : List Char} (h : ∀ c ∈ cs, c.isDigit = true) :
    value 10 cs = Nat.ofDigitChars 10 cs 0 := by
  rw [value, Nat.ofDigitChars_eq_foldl]
  refine List.foldl_ext _ _ _ fun v c hc => ?_
  rw [digitValue_of_isDigit (h c hc)]

theorem natural?_iff {cs : List Char} {n : Nat} : natural? 10 cs = some n ↔ Digits cs n := by
  rw [natural?_eq_some_iff, isDigits, Bool.and_eq_true, all_digitValue_iff, and_assoc, Digits,
    Bool.not_eq_true', List.isEmpty_eq_false_iff]
  refine and_congr_right fun _ => and_congr_right fun h => ?_
  rw [value_eq_ofDigitChars h]

/-! ### Signs -/

theorem splitSign_of_ne {cs : List Char} (hminus : cs.head? ≠ some '-')
    (hplus : cs.head? ≠ some '+') : splitSign cs = (false, cs) := by
  rw [splitSign.eq_def]
  split
  · exact absurd rfl hminus
  · exact absurd rfl hplus
  · rfl

/-- The sign is split off, and no sign is part of a body. -/
theorem signed_iff {α : Type} [Neg α] {Body : List Char → α → Prop}
    (hbody : ∀ {cs x}, Body cs x → cs.head? ≠ some '-' ∧ cs.head? ≠ some '+')
    {cs : List Char} {x : α} :
    Signed Body cs x ↔
      ∃ y, Body (splitSign cs).2 y ∧ x = if (splitSign cs).1 then -y else y := by
  constructor
  · intro h
    cases h with
    | bare body =>
        obtain ⟨hminus, hplus⟩ := hbody body
        rw [splitSign_of_ne hminus hplus]
        exact ⟨x, body, rfl⟩
    | plus body => exact ⟨x, body, rfl⟩
    | minus body => exact ⟨_, body, rfl⟩
  · rintro ⟨y, body, rfl⟩
    rw [splitSign.eq_def] at body ⊢
    split at body
    · exact .minus body
    · exact .plus body
    · exact .bare body

theorem Digits.head {cs : List Char} {n : Nat} (h : Digits cs n) :
    cs.head? ≠ some '-' ∧ cs.head? ≠ some '+' := by
  constructor
  all_goals
    intro hhead
    exact absurd (h.2.1 _ (List.mem_of_head? hhead)) (by decide)

theorem bareInteger?_iff {cs : List Char} {i : Int} :
    bareInteger? cs = some i ↔ Integer cs i := by
  rw [Integer, signed_iff fun ⟨_, h, _⟩ => h.head, bareInteger?, Option.map_eq_some_iff]
  constructor
  · rintro ⟨n, hn, rfl⟩
    exact ⟨n, ⟨n, natural?_iff.1 hn, rfl⟩, rfl⟩
  · rintro ⟨_, ⟨n, hn, rfl⟩, rfl⟩
    exact ⟨n, natural?_iff.2 hn, rfl⟩

/-- The reader of integers accepts a numeral between blanks. -/
theorem integer?_iff {cs : List Char} {i : Int} :
    integer? cs = some i ↔ Integer (trim cs) i :=
  bareInteger?_iff

/-- What the reader refuses is no numeral. -/
theorem not_integer_trim {cs : List Char} (h : integer? cs = none) (i : Int) :
    ¬Integer (trim cs) i := by
  intro hi
  rw [← integer?_iff, h] at hi
  contradiction

theorem Integer.unique {cs : List Char} {i j : Int} (hi : Integer cs i) (hj : Integer cs j) :
    i = j :=
  Option.some.inj ((bareInteger?_iff.2 hi).symm.trans (bareInteger?_iff.2 hj))

/-- The characters of a signed text are those of its body and the two signs. -/
theorem Signed.forall_mem {α : Type} [Neg α] {Body : List Char → α → Prop} {P : Char → Prop}
    (hbody : ∀ {cs x}, Body cs x → ∀ c ∈ cs, P c) (hplus : P '+') (hminus : P '-')
    {cs : List Char} {x : α} (h : Signed Body cs x) : ∀ c ∈ cs, P c := by
  cases h with
  | bare body => exact hbody body
  | plus body => exact List.forall_mem_cons.2 ⟨hplus, hbody body⟩
  | minus body => exact List.forall_mem_cons.2 ⟨hminus, hbody body⟩

theorem Integer.forall_mem {cs : List Char} {i : Int} (h : Integer cs i) :
    ∀ c ∈ cs, c.isDigit = true ∨ c = '+' ∨ c = '-' :=
  Signed.forall_mem (fun ⟨_, hdigits, _⟩ c hc => .inl (hdigits.2.1 c hc)) (.inr (.inl rfl))
    (.inr (.inr rfl)) h

theorem Integer.isBlank_eq_false {cs : List Char} {i : Int} (h : Integer cs i) :
    ∀ c ∈ cs, isBlank c = false := by
  intro c hc
  rcases h.forall_mem c hc with hdigit | rfl | rfl
  · exact isBlank_of_isDigit hdigit
  all_goals decide

theorem Integer.trim_eq {cs : List Char} {i : Int} (h : Integer cs i) : trim cs = cs :=
  trim_eq_self_of_forall h.isBlank_eq_false

theorem not_integer_nil (i : Int) : ¬Integer [] i := by
  intro h
  have hread := bareInteger?_iff.2 h
  contradiction

/-! ### Printing -/

theorem digits_toDigits (n : Nat) : Digits (Nat.toDigits 10 n) n :=
  ⟨Nat.toDigits_ne_nil, fun _ hc => Nat.isDigit_of_mem_toDigits (by decide) (by decide) hc,
    Nat.ofDigitChars_ten_toDigits⟩

/-- An integer is printed as a numeral of its own. -/
theorem integer_toString (i : Int) : Integer (toString i).toList i := by
  cases i with
  | ofNat n =>
      have hprint : (toString (Int.ofNat n)).toList = Nat.toDigits 10 n := Nat.toList_repr
      rw [hprint]
      exact .bare ⟨n, digits_toDigits n, rfl⟩
  | negSucc n =>
      have hprint : (toString (Int.negSucc n)).toList = '-' :: Nat.toDigits 10 (n + 1) := by
        show ("-" ++ (n + 1).repr).toList = _
        rw [String.toList_append, Nat.toList_repr]
        rfl
      rw [hprint]
      exact Signed.minus (x := ((n + 1 : Nat) : Int)) ⟨n + 1, digits_toDigits (n + 1), rfl⟩

theorem toString_inj {i j : Int} : toString i = toString j ↔ i = j := by
  constructor
  · intro h
    have hj := integer_toString j
    rw [← h] at hj
    exact (integer_toString i).unique hj
  · rintro rfl
    rfl

end ExactCalc.Numeral
