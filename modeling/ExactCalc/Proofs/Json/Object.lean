import ExactCalc.Proofs.Json.Quoted
import ExactCalc.Proofs.Text.Numeral
import ExactCalc.Proofs.Text.Radix

/-!
Numbers and objects that are read back. A natural number in its decimal digits is read up to the
first character that cannot belong to a number, and an object is read member by member: a name, a
colon and a value, then a comma before the next member or the closing brace.
-/

namespace ExactCalc.Json

open Numeral

variable {n steps : Nat} {digits rest cs : List Char}

/-! ### Numbers -/

/-- What cannot be part of a number in front of it. -/
def EndsNumber (rest : List Char) : Prop :=
  ∀ c ∈ rest.head?, c.isDigit = false ∧ c ≠ '.' ∧ c ≠ 'e' ∧ c ≠ 'E'

/-- The digits of a number begin with a digit, and with zero only for zero itself. -/
theorem exists_cons_toDigits (n : Nat) : ∃ first others,
    Nat.toDigits 10 n = first :: others ∧ first.isDigit = true ∧ (n ≠ 0 → first ≠ '0') := by
  induction n using Nat.strongRecOn with
  | ind n ih =>
      rw [Nat.toDigits_eq_if (by decide)]
      split
      · next hsmall =>
        refine ⟨n.digitChar, [], rfl, ?_⟩
        interval_cases n <;> decide
      · next hlarge =>
        obtain ⟨first, others, hdigits, hfirst, hzero⟩ := ih (n / 10) (by omega)
        rw [hdigits]
        exact ⟨first, _, rfl, hfirst, fun _ => hzero (by omega)⟩

theorem digits?_append (hne : digits ≠ []) (hdigits : ∀ c ∈ digits, c.isDigit = true)
    (hrest : EndsNumber rest) : digits? (digits ++ rest) = some (digits, rest) := by
  have hstop : rest.takeWhile Char.isDigit = [] ∧ rest.dropWhile Char.isDigit = rest := by
    cases rest with
    | nil => exact ⟨rfl, rfl⟩
    | cons c rest =>
        have hc : ¬c.isDigit = true := by simp [(hrest c rfl).1]
        exact ⟨List.takeWhile_cons_of_neg hc, List.dropWhile_cons_of_neg hc⟩
  rw [digits?, List.takeWhile_append_of_pos hdigits, List.dropWhile_append_of_pos hdigits, hstop.1,
    hstop.2, List.append_nil, if_neg (mt List.isEmpty_iff.1 hne)]

theorem whole?_toDigits (n : Nat) (hrest : EndsNumber rest) :
    whole? (Nat.toDigits 10 n ++ rest) = some (Nat.toDigits 10 n, rest) := by
  by_cases hn : n = 0
  · subst hn
    have hnext : (rest.head?.map Char.isDigit).getD false = false := by
      cases rest with
      | nil => rfl
      | cons c rest => exact (hrest c rfl).1
    show (if (rest.head?.map Char.isDigit).getD false then none else some (['0'], rest)) = _
    rw [hnext]
    rfl
  · obtain ⟨hne, hdigits, -⟩ := digits_toDigits n
    rw [← digits?_append hne hdigits hrest]
    obtain ⟨first, others, hcons, -, hzero⟩ := exists_cons_toDigits n
    rw [hcons]
    exact whole?.eq_2 _ fun _ h => hzero hn (List.cons.inj h).1

theorem fraction?_of_endsNumber (hrest : EndsNumber rest) : fraction? rest = some ([], rest) := by
  refine fraction?.eq_2 _ fun _ h => ?_
  subst h
  exact (hrest '.' rfl).2.1 rfl

theorem exponent?_of_endsNumber (hrest : EndsNumber rest) : exponent? rest = some ([], rest) := by
  cases rest with
  | nil => rfl
  | cons c rest =>
      obtain ⟨-, -, hsmall, hcapital⟩ := hrest c rfl
      rw [exponent?.eq_def]
      exact if_neg (by simp [hsmall, hcapital])

theorem number?_toDigits (n : Nat) (hrest : EndsNumber rest) :
    number? (Nat.toDigits 10 n ++ rest) = some (.number (Nat.toDigits 10 n), rest) := by
  have hunsigned : unsigned? (Nat.toDigits 10 n ++ rest) = some (Nat.toDigits 10 n, rest) := by
    simp [unsigned?, whole?_toDigits n hrest, fraction?_of_endsNumber hrest,
      exponent?_of_endsNumber hrest]
  obtain ⟨first, others, hcons, hfirst, -⟩ := exists_cons_toDigits n
  rw [number?.eq_2, hunsigned, Option.map_some]
  intro cs h
  rw [hcons] at h
  obtain rfl := (List.cons.inj h).1
  contradiction

/-- What begins with a digit is a number. -/
theorem value?_of_isDigit {c : Char} (hc : c.isDigit = true) (steps : Nat) (cs : List Char) :
    value? (steps + 1) (c :: cs) = number? (c :: cs) := by
  have hblanks : skipBlanks (c :: cs) = c :: cs := by
    refine List.dropWhile_cons_of_neg fun hblank => ?_
    simp only [isBlank, Bool.or_eq_true, beq_iff_eq] at hblank
    rcases hblank with ((rfl | rfl) | rfl) | rfl <;> contradiction
  rw [value?, hblanks]
  -- No other kind of value begins with a digit.
  split
  all_goals first | rfl | (next h => cases h; contradiction)

theorem value?_toDigits (steps n : Nat) (hrest : EndsNumber rest) :
    value? (steps + 1) (Nat.toDigits 10 n ++ rest) =
      some (.number (Nat.toDigits 10 n), rest) := by
  rw [← number?_toDigits n hrest]
  obtain ⟨first, others, hcons, hfirst, -⟩ := exists_cons_toDigits n
  rw [hcons]
  exact value?_of_isDigit hfirst steps _

/-- The digits of a natural number stand for it. -/
theorem asNatural?_toDigits (n : Nat) : asNatural? (.number (Nat.toDigits 10 n)) = some n :=
  natural?_toDigits (by decide) (by decide) n

/-! ### Objects -/

def named (name : List Char) : List Char :=
  quoted name ++ [':']

/-- What follows a member: a comma and other members, or the closing brace. -/
def afterMember? (steps : Nat) (member : List Nat × Json) (cs : List Char) :
    Option (List (List Nat × Json) × List Char) :=
  match skipBlanks cs with
  | ',' :: rest => (members? steps rest).map fun (others, rest) => (member :: others, rest)
  | '\x7d' :: rest => some ([member], rest)
  | _ => none

/-- A name is read, then the value after the colon. -/
theorem members?_named (steps : Nat) (name cs : List Char) :
    members? (steps + 1) (named name ++ cs) = (value? steps cs).bind fun (first, cs) =>
      afterMember? steps (name.map Char.toNat, first) cs := by
  have htext : named name ++ cs = '"' :: (name.flatMap escape ++ '"' :: ':' :: cs) := by
    simp [named, quoted]
  have hquote (cs : List Char) : skipBlanks ('"' :: cs) = '"' :: cs := rfl
  have hcolon (cs : List Char) : skipBlanks (':' :: cs) = ':' :: cs := rfl
  rw [htext, members?, hquote]
  simp only [units?_flatMap_escape, Option.bind_eq_bind, Option.bind_some, hcolon]
  rfl

/-- A member in front of another one. -/
theorem members?_comma {name more : List Char} {value : Json}
    (h : value? steps cs = some (value, ',' :: more)) :
    members? (steps + 1) (named name ++ cs) = (members? steps more).map fun (others, rest) =>
      ((name.map Char.toNat, value) :: others, rest) := by
  rw [members?_named, h]
  rfl

/-- The last member. -/
theorem members?_brace {name : List Char} {value : Json}
    (h : value? steps cs = some (value, '\x7d' :: rest)) :
    members? (steps + 1) (named name ++ cs) = some ([(name.map Char.toNat, value)], rest) := by
  rw [members?_named, h]
  rfl

/-- An object that begins with a member. -/
theorem value?_brace (steps : Nat) (name cs : List Char) :
    value? (steps + 1) ('\x7b' :: named name ++ cs) =
      (members? steps (named name ++ cs)).map fun (members, rest) => (.object members, rest) := by
  have hbrace (cs : List Char) : skipBlanks ('\x7b' :: cs) = '\x7b' :: cs := rfl
  have hname : skipBlanks (named name ++ cs) = named name ++ cs := rfl
  rw [List.cons_append, value?, hbrace]
  simp only [hname]
  rfl

end ExactCalc.Json
