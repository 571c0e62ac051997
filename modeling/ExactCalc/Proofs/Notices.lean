import ExactCalc.Notices
import Mathlib.Data.List.Induction
import Mathlib.Order.Nat

/-!
What a run of notices prints and remembers. One notice adds at most its own text to what is
remembered, and takes nothing away. So a text is remembered as soon as one notice for it was to
appear once, and of all such notices the first one alone is printed, whatever else is issued in
between.
-/

namespace ExactCalc.Notices

variable {issued front back : List Notice} {notice : Notice} {notices : Notices} {text : String}
  {i n : Nat}

def outputs (issued : List Notice) : List (Option String) :=
  (({} : Notices).issueAll issued).1

/-- What is remembered after a run of notices. -/
def after (issued : List Notice) : Notices :=
  (({} : Notices).issueAll issued).2

/-- The notice at this place is for this text and is to appear once. -/
def OnceAt (issued : List Notice) (text : String) (i : Nat) : Prop :=
  ∃ notice, issued[i]? = some notice ∧ notice.text = text ∧ notice.repeatable = false

/-! ### One notice -/

/-- What is remembered grows by the text of a notice that is to appear once. -/
theorem contains_issue :
    (notices.issue notice).2.contains text = true ↔
      notices.contains text = true ∨ notice.text = text ∧ notice.repeatable = false := by
  have hsay : (notices.issue notice).2 = (notices.say notice.text notice.repeatable).2 := rfl
  rw [hsay, contains_say, Bool.or_eq_true, Bool.and_eq_true, beq_iff_eq, Bool.not_eq_true',
    eq_comm (a := text), and_comm]

/-- A notice that may be repeated is printed and leaves no trace. -/
theorem issue_of_repeatable (h : notice.repeatable = true) :
    notices.issue notice = (some notice.text, notices) := by
  rw [issue, h]
  rfl

/-- A notice that is to appear once is printed unless its text is remembered. -/
theorem fst_issue_of_once (h : notice.repeatable = false) :
    (notices.issue notice).1 = if notices.contains notice.text then none else some notice.text := by
  simp only [issue, fst_say, h]
  cases notices.contains notice.text <;> rfl

/-! ### A run of notices -/

theorem issueAll_append (notices : Notices) (front back : List Notice) :
    notices.issueAll (front ++ back) =
      ((notices.issueAll front).1 ++ ((notices.issueAll front).2.issueAll back).1,
        ((notices.issueAll front).2.issueAll back).2) := by
  induction front generalizing notices with
  | nil => rfl
  | cons notice front ih => simp only [List.cons_append, issueAll, ih]

@[simp] theorem length_issueAll (notices : Notices) (issued : List Notice) :
    (notices.issueAll issued).1.length = issued.length := by
  induction issued generalizing notices with
  | nil => rfl
  | cons notice rest ih => simp only [issueAll, List.length_cons, ih]

theorem after_append_singleton (front : List Notice) (notice : Notice) :
    after (front ++ [notice]) = ((after front).issue notice).2 := by
  rw [after, issueAll_append]
  rfl

/-- What a notice prints depends on what the notices before it have left behind. -/
theorem getElem?_outputs (front : List Notice) (notice : Notice) (back : List Notice) :
    (outputs (front ++ notice :: back))[front.length]? = some ((after front).issue notice).1 := by
  have hlength : (outputs front).length = front.length := length_issueAll _ front
  rw [outputs, issueAll_append, ← hlength]
  exact List.getElem?_append_right le_rfl |>.trans (by simp [issueAll, after])

/-- A text is remembered once a notice for it was to appear once. -/
theorem contains_after :
    (after issued).contains text = true ↔
      ∃ notice ∈ issued, notice.text = text ∧ notice.repeatable = false := by
  induction issued using List.reverseRecOn with
  | nil => simp [after, issueAll]
  | append_singleton front notice ih =>
      rw [after_append_singleton, contains_issue, ih]
      simp only [List.mem_append, List.mem_singleton, or_and_right, exists_or, exists_eq_left]

theorem exists_mem_take_iff :
    (∃ notice ∈ issued.take n, notice.text = text ∧ notice.repeatable = false) ↔
      ∃ i < n, OnceAt issued text i := by
  simp only [List.mem_iff_getElem?, List.getElem?_take, OnceAt]
  constructor
  · rintro ⟨notice, ⟨i, hi⟩, hnotice⟩
    split at hi
    · next hlt => exact ⟨i, hlt, notice, hi, hnotice⟩
    · contradiction
  · rintro ⟨i, hlt, notice, hi, hnotice⟩
    exact ⟨notice, ⟨i, by rw [if_pos hlt, hi]⟩, hnotice⟩

theorem contains_after_take :
    (after (issued.take n)).contains text = true ↔ ∃ i < n, OnceAt issued text i :=
  contains_after.trans exists_mem_take_iff

/-- A notice that is to appear once is printed if it is the first such notice for its text. -/
theorem getElem?_outputs_of_onceAt (h : OnceAt issued text i) :
    (outputs issued)[i]? =
      some (if (after (issued.take i)).contains text then none else some text) := by
  obtain ⟨notice, hi, rfl, honce⟩ := h
  obtain ⟨hlt, rfl⟩ := List.getElem?_eq_some_iff.1 hi
  have hsplit : issued.take i ++ issued[i] :: issued.drop (i + 1) = issued := by
    rw [← List.drop_eq_getElem_cons hlt, List.take_append_drop]
  have hlength : (issued.take i).length = i := List.length_take_of_le (Nat.le_of_lt hlt)
  have houtput := getElem?_outputs (issued.take i) issued[i] (issued.drop (i + 1))
  rwa [hsplit, hlength, fst_issue_of_once honce] at houtput

/-- Of the notices by which a text is to appear once, the first prints it and the others do not. -/
theorem getElem?_outputs_of_isLeast {first : Nat}
    (hfirst : IsLeast {i | OnceAt issued text i} first) (h : OnceAt issued text i) :
    (outputs issued)[i]? = some (if i = first then some text else none) := by
  have hremembered : (after (issued.take i)).contains text = true ↔ i ≠ first := by
    rw [contains_after_take]
    constructor
    · rintro ⟨j, hlt, hj⟩ rfl
      exact absurd (hfirst.2 hj) (Nat.not_le.2 hlt)
    · intro hne
      exact ⟨first, Nat.lt_of_le_of_ne (hfirst.2 h) hne.symm, hfirst.1⟩
  rw [getElem?_outputs_of_onceAt h]
  simp only [hremembered, ite_not]

/-- Every text that is to appear once appears by exactly one of the notices that say so, the first
of them. A notice that may be repeated always appears and is not remembered. A text is remembered
from the first notice on by which it was to appear once. -/
theorem issued_once (issued : List Notice) :
    (∀ text, (∃ notice ∈ issued, notice.text = text ∧ notice.repeatable = false) →
      ∃ first, IsLeast {i | OnceAt issued text i} first ∧
        ∀ i, OnceAt issued text i →
          (outputs issued)[i]? = some (if i = first then some text else none)) ∧
    (∀ front notice back, issued = front ++ notice :: back → notice.repeatable = true →
      (outputs issued)[front.length]? = some (some notice.text) ∧
        after (front ++ [notice]) = after front) ∧
    ∀ text n, (after (issued.take n)).contains text = true ↔ ∃ i < n, OnceAt issued text i := by
  refine ⟨fun text h => ?_, fun front notice back hissued hrepeatable => ?_,
    fun text n => contains_after_take⟩
  · rw [← List.take_length (l := issued)] at h
    obtain ⟨i, -, hi⟩ := exists_mem_take_iff.1 h
    classical
    have hfirst := Nat.isLeast_find ⟨i, hi⟩
    exact ⟨_, hfirst, fun _ => getElem?_outputs_of_isLeast hfirst⟩
  · subst hissued
    rw [getElem?_outputs, after_append_singleton, issue_of_repeatable hrepeatable]
    exact ⟨rfl, rfl⟩

/-- A text that first may be repeated and is then to appear once appears twice. -/
theorem issued_once_of_repeats :
    let issued : List Notice := [.warning "low" true, .error "low" false, .warningOnce "low"]
    outputs issued = [some "low", some "low", none] ∧
      (∃ first, IsLeast {i | OnceAt issued "low" i} first ∧
        ∀ i, OnceAt issued "low" i →
          (outputs issued)[i]? = some (if i = first then some "low" else none)) ∧
      after (issued.take 1) = after [] := by
  intro issued
  have h := issued_once issued
  exact ⟨by decide, h.1 "low" ⟨.warningOnce "low", by decide, rfl, rfl⟩,
    (h.2.1 [] _ _ rfl rfl).2⟩

end ExactCalc.Notices
