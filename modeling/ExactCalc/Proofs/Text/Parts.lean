import ExactCalc.Text.Blank
import Mathlib.Data.List.DropRight
import Mathlib.Data.String.Basic

/-!
Parts of a text. A text is its trimmed form between blanks, the trimmed form neither begins nor
ends with a blank, and trimming a text that does neither leaves it as it is. A text that holds a
separator is split at the first one.
-/

namespace ExactCalc.Text

theorem trim_eq_rdropWhile (cs : List Char) :
    trim cs = (cs.dropWhile isBlank).rdropWhile isBlank :=
  rfl

/-- A text is its trimmed form with blanks around it. -/
theorem exists_blanks_trim (cs : List Char) :
    ∃ front back : List Char, cs = front ++ trim cs ++ back ∧
      (∀ c ∈ front, isBlank c = true) ∧ ∀ c ∈ back, isBlank c = true := by
  refine ⟨cs.takeWhile isBlank, (cs.dropWhile isBlank).rtakeWhile isBlank, ?_, ?_, ?_⟩
  · rw [trim_eq_rdropWhile, List.append_assoc, List.rdropWhile_append_rtakeWhile,
      List.takeWhile_append_dropWhile]
  · exact fun c hc => List.mem_takeWhile_imp hc
  · exact fun c hc => List.mem_rtakeWhile_imp hc

/-- A character that is not blank is not lost. -/
theorem mem_trim_iff {c : Char} {cs : List Char} (hc : isBlank c = false) :
    c ∈ trim cs ↔ c ∈ cs := by
  obtain ⟨front, back, hsplit, hfront, hback⟩ := exists_blanks_trim cs
  constructor
  · intro h
    rw [hsplit]
    exact List.mem_append_left _ (List.mem_append_right _ h)
  · intro h
    rw [hsplit, List.mem_append, List.mem_append] at h
    rcases h with (h | h) | h
    · exact absurd (hfront c h) (by simp [hc])
    · exact h
    · exact absurd (hback c h) (by simp [hc])

theorem length_trim_le (cs : List Char) : (trim cs).length ≤ cs.length := by
  obtain ⟨front, back, hsplit, -, -⟩ := exists_blanks_trim cs
  have hlength := congrArg List.length hsplit
  rw [List.length_append, List.length_append] at hlength
  omega

/-- A text without blanks at its ends is trimmed. -/
theorem trim_eq_self {cs : List Char} (hhead : ∀ c ∈ cs.head?, isBlank c = false)
    (hlast : ∀ c ∈ cs.getLast?, isBlank c = false) : trim cs = cs := by
  have hdrop : cs.dropWhile isBlank = cs := by
    cases cs with
    | nil => rfl
    | cons c cs => exact List.dropWhile_cons_of_neg (by simp [hhead c rfl])
  rw [trim_eq_rdropWhile, hdrop, List.rdropWhile_eq_self_iff]
  intro hne
  simpa using hlast _ (List.getLast?_eq_some_getLast hne)

theorem trim_eq_self_of_forall {cs : List Char} (h : ∀ c ∈ cs, isBlank c = false) :
    trim cs = cs :=
  trim_eq_self (fun c hc => h c (List.mem_of_head? hc)) fun c hc => h c (List.mem_of_getLast? hc)

theorem trim_trim (cs : List Char) : trim (trim cs) = trim cs := by
  refine trim_eq_self (fun c hc => ?_) fun c hc => ?_
  -- The first character is still the first one after the blanks in front.
  · obtain ⟨back, hback⟩ := List.rdropWhile_prefix isBlank (cs.dropWhile isBlank)
    have hhead : (cs.dropWhile isBlank).head? = some c := by
      rw [← hback, List.head?_append, ← trim_eq_rdropWhile, Option.mem_def.1 hc]
      rfl
    have hnot := List.head?_dropWhile_not isBlank cs
    rw [hhead] at hnot
    exact hnot
  · have hne : trim cs ≠ [] := List.ne_nil_of_mem (List.mem_of_getLast? hc)
    have hnot := (cs.dropWhile isBlank).rdropWhile_last_not isBlank hne
    rw [List.getLast?_eq_some_getLast hne, Option.mem_def, Option.some.injEq] at hc
    rw [← hc]
    exact Bool.eq_false_iff.2 hnot

/-- Every character of a text takes a byte at least. -/
theorem length_le_utf8ByteSize (text : String) : text.toList.length ≤ text.utf8ByteSize := by
  rw [← String.utf8Len_toList]
  induction text.toList with
  | nil => exact Nat.le_refl 0
  | cons c cs ih =>
      rw [List.length_cons, String.utf8Len_cons]
      exact Nat.add_le_add ih c.utf8Size_pos

/-! ### Separators -/

theorem takeWhile_ne_append {separator : Char} {front : List Char} (h : separator ∉ front)
    (back : List Char) : (front ++ separator :: back).takeWhile (· != separator) = front := by
  have hall : ∀ c ∈ front, (c != separator) = true := fun c hc =>
    bne_iff_ne.2 (ne_of_mem_of_not_mem hc h)
  rw [List.takeWhile_append_of_pos hall, List.takeWhile_cons_of_neg (by simp), List.append_nil]

theorem dropWhile_ne_append {separator : Char} {front : List Char} (h : separator ∉ front)
    (back : List Char) :
    (front ++ separator :: back).dropWhile (· != separator) = separator :: back := by
  have hall : ∀ c ∈ front, (c != separator) = true := fun c hc =>
    bne_iff_ne.2 (ne_of_mem_of_not_mem hc h)
  rw [List.dropWhile_append_of_pos hall, List.dropWhile_cons_of_neg (by simp)]

/-- The first separator of a text is in one place. -/
theorem split_unique {separator : Char} {front front' back back' : List Char}
    (hfront : separator ∉ front) (hfront' : separator ∉ front')
    (h : front ++ separator :: back = front' ++ separator :: back') :
    front = front' ∧ back = back' := by
  have htake := congrArg (List.takeWhile (· != separator)) h
  have hdrop := congrArg (List.dropWhile (· != separator)) h
  rw [takeWhile_ne_append hfront, takeWhile_ne_append hfront'] at htake
  rw [dropWhile_ne_append hfront, dropWhile_ne_append hfront'] at hdrop
  exact ⟨htake, (List.cons.inj hdrop).2⟩

end ExactCalc.Text
