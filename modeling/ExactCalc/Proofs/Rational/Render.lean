import ExactCalc.Json.Exchange
import ExactCalc.Proofs.Json.Quoted
import ExactCalc.Proofs.Rational.Literal

/-!
The canonical text of a rational. It spells the number in one of the forms of the grammar, an
integer or a fraction of an integer and a natural number that is not zero, so the reader gives the
number back, in its lowest terms again. All texts that are read as one number have its canonical
text, and no other number has it.
-/

namespace ExactCalc.Rational

open Text Numeral

theorem toList_render (a : Rational) :
    a.render.toList =
      if a.isInteger then (toString a.num).toList
      else (toString a.num).toList ++ '/' :: (toString (a.den : Int)).toList := by
  rw [render]
  split
  · rfl
  · show (toString a.num ++ "/" ++ toString a.den).toList = _
    rw [String.toList_append, String.toList_append, List.append_assoc]
    rfl

theorem spells_render (a : Rational) : Spells a.render.toList a.toRat := by
  have hnum := integer_toString a.num
  have hden := integer_toString (a.den : Int)
  rw [toList_render]
  split
  · next hinteger =>
    have hone : a.den = 1 := beq_iff_eq.1 hinteger
    rw [toRat, hone, Nat.cast_one, div_one]
    exact .integer hnum
  · have hne : (a.den : Int) ≠ 0 := Int.natCast_ne_zero.2 a.den_pos.ne'
    rw [← hnum.trim_eq] at hnum
    rw [← hden.trim_eq] at hden
    exact .fraction hnum hden hne

/-- The canonical text has neither a blank nor a point. -/
theorem mem_render {a : Rational} {c : Char} (h : c ∈ a.render.toList) :
    isBlank c = false ∧ c ≠ '.' := by
  have hnumeral {cs : List Char} {i : Int} (hi : Integer cs i) (hc : c ∈ cs) :
      isBlank c = false ∧ c ≠ '.' :=
    ⟨hi.isBlank_eq_false c hc, ne_of_mem_of_not_mem hc (not_point_mem_integer hi)⟩
  rw [toList_render] at h
  split at h
  · exact hnumeral (integer_toString _) h
  · rw [List.mem_append, List.mem_cons] at h
    rcases h with h | rfl | h
    · exact hnumeral (integer_toString _) h
    · decide
    · exact hnumeral (integer_toString _) h

/-- The canonical text of a number is read as that number. -/
theorem parse_render (a : Rational) : parse a.render = .ok a := by
  have htrim : trim a.render.toList = a.render.toList :=
    trim_eq_self_of_forall fun _ h => (mem_render h).1
  have hreads : Reads a.render.toList (parse a.render) := by
    have hread := reads_of_length_le a.render fun _ h => by
      rw [htrim] at h
      exact absurd rfl (mem_render h).2
    rwa [htrim] at hread
  exact eq_ok_of_map_toRat ((hreads.accepts _).2 (spells_render a))

theorem ofJson?_toJson (a : Rational) : ofJson? a.toJson = some a := by
  have hread : (do parse? (← (← Json.parse? a.toJson).asText?)) =
      ((Json.parse? (Json.quote a.render)).bind Json.asText?).bind parse? := by
    rw [Option.bind_assoc]
    rfl
  rw [ofJson?, hread, Json.asText?_parse?_quote, Option.bind_some, parse?, parse_render]
  rfl

theorem render_injective : Function.Injective render := by
  intro a b h
  have hread : parse a.render = parse b.render := by rw [h]
  rw [parse_render, parse_render] at hread
  exact Except.ok.inj hread

/-- Reading takes back printing and writing, and the canonical text tells numbers apart: two texts
that are read have one canonical text exactly where they spell one number. -/
theorem render_canonical :
    (∀ a : Rational, parse a.render = .ok a) ∧
    (∀ a : Rational, ofJson? a.toJson = some a) ∧
    (∀ {text text' : String} {a a' : Rational}, parse text = .ok a → parse text' = .ok a' →
      ((∃ q, Spells (trim text.toList) q ∧ Spells (trim text'.toList) q) ↔
        a.render = a'.render)) ∧
    Function.Injective render := by
  refine ⟨parse_render, ofJson?_toJson, fun {text text' a a'} h h' => ?_, render_injective⟩
  have hspells := spells_of_parse h
  have hspells' := spells_of_parse h'
  constructor
  · rintro ⟨q, hq, hq'⟩
    rw [toRat_injective ((hspells.unique hq).trans (hq'.unique hspells'))]
  · intro hrender
    obtain rfl := render_injective hrender
    exact ⟨a.toRat, hspells, hspells'⟩

/-- Two spellings of one half. -/
theorem render_canonical_of_halves :
    parse "+.50" = .ok (ofFraction 1 2 (by decide)) ∧
    parse " -2/-4" = .ok (ofFraction (-2) (-4) (by decide)) ∧
    ((∃ q, Spells (trim "+.50".toList) q ∧ Spells (trim " -2/-4".toList) q) ↔
      (ofFraction 1 2 (by decide)).render = (ofFraction (-2) (-4) (by decide)).render) :=
  ⟨rfl, rfl, render_canonical.2.2.1 rfl rfl⟩

end ExactCalc.Rational
