import ExactCalc.Session

/-!
The check of settings. They pass exactly if each of their texts names something and the width is not
zero, so whoever looks at settings in force can read all of their texts.
-/

namespace ExactCalc

section

variable {ε δ α : Type} {result : Except ε α} {f : ε → δ} {a : α}

theorem mapError_eq_ok_iff : result.mapError f = .ok a ↔ result = .ok a := by
  cases result with
  | error refused => exact iff_of_false nofun nofun
  | ok b =>
      show Except.ok b = .ok a ↔ _
      rw [Except.ok.injEq, Except.ok.injEq]

end

namespace Settings

variable {settings : Settings} {overrides : Overrides} {fromFile : Except FileFault Settings}

/-- The texts name two styles and a tie rule, and words have a width. -/
structure Understood (settings : Settings) : Prop where
  rationalStyle : ∃ style, Rational.Style.parse settings.rationalSpec = .ok style
  wordStyle : ∃ style, Word.Style.parse settings.wordSpec = .ok style
  tieRule : ∃ rule, TieRule.parse settings.rounding = .ok rule
  width : settings.width ≠ 0

theorem validate_eq_ok_iff : settings.validate = .ok () ↔ settings.Understood := by
  have hwidth : (if settings.width = 0 then throw .zeroWidth else pure () :
      Except SettingsFault Unit) = .ok () ↔ settings.width ≠ 0 := by
    split
    · next h => exact iff_of_false nofun (not_not_intro h)
    · next h => exact iff_of_true rfl h
  simp only [validate, rationalStyle, wordStyle, tieRule, bind_eq_ok_iff, mapError_eq_ok_iff,
    hwidth]
  constructor
  · rintro ⟨style, hstyle, style', hstyle', rule, hrule, hpos⟩
    exact ⟨⟨style, hstyle⟩, ⟨style', hstyle'⟩, ⟨rule, hrule⟩, hpos⟩
  · rintro ⟨⟨style, hstyle⟩, ⟨style', hstyle'⟩, ⟨rule, hrule⟩, hpos⟩
    exact ⟨style, hstyle, style', hstyle', rule, hrule, hpos⟩

theorem inForce_eq_ok_iff :
    inForce overrides fromFile = .ok settings ↔
      ∃ loaded, fromFile = .ok loaded ∧ loaded.merge overrides = settings ∧
        settings.Understood := by
  simp only [inForce, bind_eq_ok_iff, mapError_eq_ok_iff]
  constructor
  · rintro ⟨loaded, hloaded, ⟨⟩, hchecked, hmerged⟩
    obtain rfl : loaded.merge overrides = settings := Except.ok.inj hmerged
    exact ⟨loaded, hloaded, rfl, validate_eq_ok_iff.1 hchecked⟩
  · rintro ⟨loaded, hloaded, rfl, hchecked⟩
    exact ⟨loaded, hloaded, (), validate_eq_ok_iff.2 hchecked, rfl⟩

end Settings

end ExactCalc
