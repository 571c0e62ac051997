import ExactCalc.Proofs.Word.Operations

/-!
Widths of operands and results. Every operation on two words begins with one of two checks: that
the widths agree, and for a division that the divisor is not zero after that. A refusal is the
refusal of the check, and past the check nothing fails. So words of different widths are never
combined, and a result is as wide as the operands are. An operation that changes the width is
refused for the widths alone too.
-/

namespace ExactCalc.Word

open Stored

variable {α β : Type} {a b c : Word} {divides : Bool} {result : Except Fault α}

inductive Comparison where
  | lt
  | le
  | gt
  | ge

def Comparison.apply : Comparison → Word → Word → Bool → Except Fault Bool
  | .lt, a, b, signed => a.lt b signed
  | .le, a, b, signed => a.le b signed
  | .gt, a, b, signed => a.gt b signed
  | .ge, a, b, signed => a.ge b signed

/-- The result of an operation that refuses words of different widths, whatever their values, and,
if it divides, a zero divisor of the same width, and that refuses nothing else. -/
structure Guarded (a b : Word) (divides : Bool) (result : Except Fault α) : Prop where
  mismatch : a.width ≠ b.width → result = .error (.widthMismatch a.width b.width)
  zeroDivisor : a.width = b.width → divides = true → b.value = 0 →
    result = .error (.zeroWordDivisor a.width)
  defined : a.width = b.width → (divides = true → b.value ≠ 0) → ∃ x, result = .ok x

/-! ### Checks -/

theorem matching_of_width_ne (h : a.width ≠ b.width) :
    matching a b = .error (.widthMismatch a.width b.width) :=
  if_neg h

theorem divisible_of_width_ne (h : a.width ≠ b.width) :
    divisible a b = .error (.widthMismatch a.width b.width) := by
  rw [divisible, matching_of_width_ne h]
  rfl

theorem divisible_of_zero (hwidth : a.width = b.width) (hzero : b.value = 0) :
    divisible a b = .error (.zeroWordDivisor a.width) := by
  rw [divisible, bind_matching hwidth, isZero, hzero]
  rfl

theorem guarded_matching (a b : Word) (x : α) :
    Guarded a b false (do matching a b; return x) where
  mismatch h := by
    rw [matching_of_width_ne h]
    rfl
  zeroDivisor _ h _ := by contradiction
  defined h _ := ⟨x, bind_matching h _⟩

theorem guarded_divisible (a b : Word) (x : α) :
    Guarded a b true (do divisible a b; return x) where
  mismatch h := by
    rw [divisible_of_width_ne h]
    rfl
  zeroDivisor hwidth _ hzero := by
    rw [divisible_of_zero hwidth hzero]
    rfl
  defined hwidth hdivisor := ⟨x, bind_divisible hwidth (hdivisor rfl) _⟩

/-- What is made of the result afterwards changes no refusal. -/
theorem Guarded.map (h : Guarded a b divides result) (f : α → β) :
    Guarded a b divides (result.map f) where
  mismatch hwidth := by
    rw [h.mismatch hwidth]
    rfl
  zeroDivisor hwidth hdivides hzero := by
    rw [h.zeroDivisor hwidth hdivides hzero]
    rfl
  defined hwidth hdivisor := by
    obtain ⟨x, hx⟩ := h.defined hwidth hdivisor
    exact ⟨f x, by rw [hx]; rfl⟩

/-! ### Operations -/

theorem Binary.guarded (op : Binary) (a b : Word) : Guarded a b false (op.apply a b) := by
  cases op with
  | add | sub | mul | and | or | xor => exact guarded_matching a b _
  | least signed | greatest signed => exact (guarded_matching a b _).map _

theorem guarded_udivRem (a b : Word) : Guarded a b true (a.udivRem b) :=
  guarded_divisible a b _

theorem Division.guarded (op : Division) (a b : Word) : Guarded a b true (op.apply a b) := by
  cases op with
  | udiv | urem | sdiv | srem | smod => exact guarded_divisible a b _
  | quotient | remainder => exact (guarded_udivRem a b).map _

theorem guarded_order (a b : Word) (signed : Bool) : Guarded a b false (a.order b signed) :=
  guarded_matching a b _

theorem Comparison.guarded (test : Comparison) (a b : Word) (signed : Bool) :
    Guarded a b false (test.apply a b signed) := by
  cases test with
  | lt | le | gt | ge => exact (guarded_order a b signed).map _

theorem order?_eq_none_iff : a.order? b = none ↔ a.width ≠ b.width := by
  rw [order?]
  by_cases h : a.width = b.width
  · obtain ⟨ordering, hordering⟩ := (guarded_order a b false).defined h nofun
    simp [hordering, h, Except.toOption]
  · simp [(guarded_order a b false).mismatch h, h, Except.toOption]

/-! ### Changes of width -/

/-- A result that is refused as a bad argument under a condition, and under no other. -/
structure RefusedIff (result : Except Fault α) (condition : Prop) : Prop where
  refused : condition → ∃ fault, result = .error fault ∧ fault.kind = .argument
  defined : ¬condition → ∃ x, result = .ok x

namespace RefusedIff

variable {result' : Except Fault α} {condition condition' : Prop}

theorem mapError_kind (h : RefusedIff result condition) (hcondition : condition) :
    result.mapError Fault.kind = .error .argument := by
  obtain ⟨fault, hfault, hkind⟩ := h.refused hcondition
  rw [hfault, Except.mapError, hkind]

/-- Results that are refused together and equal otherwise differ in the wording of faults alone. -/
theorem mapError_kind_congr (h : RefusedIff result condition) (h' : RefusedIff result' condition)
    (hsame : ¬condition → result = result') :
    result.mapError Fault.kind = result'.mapError Fault.kind := by
  by_cases hcondition : condition
  · rw [h.mapError_kind hcondition, h'.mapError_kind hcondition]
  · rw [hsame hcondition]

theorem not_of_eq_ok {x : α} (h : RefusedIff result condition) (hx : result = .ok x) :
    ¬condition := by
  intro hcondition
  obtain ⟨fault, hfault, -⟩ := h.refused hcondition
  rw [hx] at hfault
  contradiction

theorem eq_ok_iff {value x : α} (h : RefusedIff result condition)
    (hvalue : ¬condition → result = .ok value) :
    result = .ok x ↔ ¬condition ∧ value = x := by
  constructor
  · intro hx
    have hdefined := h.not_of_eq_ok hx
    exact ⟨hdefined, Except.ok.inj ((hvalue hdefined).symm.trans hx)⟩
  · rintro ⟨hdefined, rfl⟩
    exact hvalue hdefined

/-- A second step that is refused wherever the first one is. -/
theorem bind {next : α → Except Fault β} (h : RefusedIff result condition)
    (himp : condition → condition')
    (hnext : ∀ x, result = .ok x → RefusedIff (next x) condition') :
    RefusedIff (result >>= next) condition' where
  refused hcondition' := by
    by_cases hcondition : condition
    · obtain ⟨fault, hfault, hkind⟩ := h.refused hcondition
      exact ⟨fault, by rw [hfault]; rfl, hkind⟩
    · obtain ⟨x, hx⟩ := h.defined hcondition
      rw [hx]
      exact (hnext x hx).refused hcondition'
  defined hdefined := by
    obtain ⟨x, hx⟩ := h.defined (mt himp hdefined)
    rw [hx]
    exact (hnext x hx).defined hdefined

end RefusedIff

theorem refusedIff_extract (a : Word) (high low : Nat) :
    RefusedIff (a.extract high low) (a.width ≤ high ∨ high < low) where
  refused h := by
    rw [extract]
    by_cases hhigh : a.width ≤ high
    · exact ⟨_, if_pos hhigh, rfl⟩
    · rw [if_neg hhigh]
      exact ⟨_, if_pos (h.resolve_left hhigh), rfl⟩
  defined h := by
    rw [not_or] at h
    rw [extract, if_neg h.1, if_neg h.2]
    exact ⟨_, rfl⟩

/-- A word made at a width that was checked is refused by the check alone. -/
theorem refusedIff_widened {width extra : Nat} {make : Nat → Except Fault Word}
    (hmake : ∃ c, make (width + extra) = .ok c) :
    RefusedIff (widened width extra >>= make) (maxWidth < width + extra) where
  refused h := by
    rw [widened, if_neg (not_le.2 h)]
    exact ⟨_, rfl, rfl⟩
  defined h := by
    rw [widened, if_pos (not_lt.1 h)]
    exact hmake

theorem refusedIff_concat (x y : Word) :
    RefusedIff (x.concat y) (maxWidth < x.width + y.width) :=
  refusedIff_widened ⟨_, ofNat_of_pos (Nat.add_pos_left x.width_pos _) _⟩

theorem refusedIff_ofNat (width n : Nat) : RefusedIff (ofNat width n) (width = 0) where
  refused h := by
    subst h
    exact ⟨.emptyWidth, rfl, rfl⟩
  defined h := ⟨_, ofNat_of_pos (Nat.pos_of_ne_zero h) n⟩

theorem refusedIff_ofInt (width : Nat) (i : Int) : RefusedIff (ofInt width i) (width = 0) where
  refused h := by
    subst h
    exact ⟨.emptyWidth, rfl, rfl⟩
  defined h := ⟨_, ofInt_of_pos (Nat.pos_of_ne_zero h) i⟩

theorem refusedIff_extend (a : Word) (extra : Nat) :
    RefusedIff (a.extend extra) (maxWidth < a.width + extra) :=
  refusedIff_widened ⟨_, ofNat_of_pos (Nat.add_pos_left a.width_pos _) _⟩

theorem refusedIff_signExtend (a : Word) (extra : Nat) :
    RefusedIff (a.signExtend extra) (maxWidth < a.width + extra) :=
  refusedIff_widened ⟨_, ofInt_of_pos (Nat.add_pos_left a.width_pos _) _⟩

theorem refusedIff_replicate (a : Word) (count : Nat) :
    RefusedIff (a.replicate count) (count = 0 ∨ maxWidth < a.width * count) where
  refused h := by
    rw [replicate]
    by_cases hzero : count = 0
    · exact ⟨_, if_pos hzero, rfl⟩
    · rw [if_neg hzero]
      exact ⟨_, if_neg (not_le.2 (h.resolve_left hzero)), rfl⟩
  defined h := by
    rw [not_or, not_lt] at h
    rw [replicate, if_neg h.1, if_pos h.2]
    exact ⟨_, ofNat_of_pos (Nat.mul_pos a.width_pos (Nat.pos_of_ne_zero h.1)) _⟩

/-! ### Results -/

/-- The width of the result on a word of this width. -/
def Unary.resultWidth (width : Nat) : Unary → Nat
  | .extract high low => high - low + 1
  | .extend extra _ => width + extra
  | .resize width _ => width
  | .replicate count => width * count
  | _ => width

theorem Unary.width_of_apply (op : Unary) (h : op.apply a = .ok c) :
    c.width = op.resultWidth a.width := by
  have hstored := op.stored_eq_some h
  cases op <;> simp only [Unary.stored, rotated, Option.ite_none_left_eq_some,
    Option.ite_none_right_eq_some] at hstored
  case neg | not | resize => exact width_of_ofNumber hstored
  all_goals exact width_of_ofNumber hstored.2

theorem Binary.width_of_apply (op : Binary) (h : op.apply a b = .ok c) : c.width = a.width := by
  by_cases hwidth : a.width = b.width
  · rw [op.apply_eq_wrap hwidth] at h
    rw [← Except.ok.inj h, width_wrap]
  · rw [(op.guarded a b).mismatch hwidth] at h
    contradiction

theorem Division.width_of_apply (op : Division) (h : op.apply a b = .ok c) :
    c.width = a.width := by
  by_cases hwidth : a.width = b.width
  · by_cases hzero : b.value = 0
    · rw [(op.guarded a b).zeroDivisor hwidth rfl hzero] at h
      contradiction
    · rw [op.apply_eq_wrap hwidth hzero] at h
      rw [← Except.ok.inj h, width_wrap]
  · rw [(op.guarded a b).mismatch hwidth] at h
    contradiction

theorem width_of_udivRem {q r : Word} (h : a.udivRem b = .ok (q, r)) :
    q.width = a.width ∧ r.width = a.width := by
  have hquotient : Division.quotient.apply a b = .ok q := by
    rw [Division.apply, h]
    rfl
  have hremainder : Division.remainder.apply a b = .ok r := by
    rw [Division.apply, h]
    rfl
  exact ⟨Division.quotient.width_of_apply hquotient, Division.remainder.width_of_apply hremainder⟩

/-- Every operation on two words refuses different widths and names them, a division refuses a zero
divisor after that, nothing else is refused, and no result has another width. -/
theorem widths_checked (a b : Word) :
    (∀ op : Binary, Guarded a b false (op.apply a b) ∧
      ∀ c, op.apply a b = .ok c → c.width = a.width) ∧
    ((∀ op : Division, Guarded a b true (op.apply a b) ∧
        ∀ c, op.apply a b = .ok c → c.width = a.width) ∧
      Guarded a b true (a.udivRem b) ∧
      (∀ q r, a.udivRem b = .ok (q, r) → q.width = a.width ∧ r.width = a.width) ∧
      (Fault.zeroWordDivisor a.width).kind = .division) ∧
    (∀ signed, Guarded a b false (a.order b signed) ∧
      ∀ test : Comparison, Guarded a b false (test.apply a b signed)) ∧
    (a.order? b = none ↔ a.width ≠ b.width) := by
  refine ⟨fun op => ⟨op.guarded a b, fun _ => op.width_of_apply⟩,
    ⟨fun op => ⟨op.guarded a b, fun _ => op.width_of_apply⟩, guarded_udivRem a b,
      fun _ _ => width_of_udivRem, rfl⟩,
    fun signed => ⟨guarded_order a b signed, fun test => test.guarded a b signed⟩,
    order?_eq_none_iff⟩

end ExactCalc.Word
