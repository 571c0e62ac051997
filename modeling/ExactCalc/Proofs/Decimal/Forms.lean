import ExactCalc.Proofs.Decimal.Normal

/-!
Decimals compared as numbers. All forms of a number have one shortest form, and the comparison and
the data for a hasher are taken from it, so forms with more or fewer zeros at their ends are equal
and feed a hasher alike, and forms of different numbers are kept apart by both. The shortest form
is known by its number and its last digit alone, and so it is its own shortest form.
-/

namespace ExactCalc.Decimal

variable {a b d e : Decimal}

/-- All decimals that stand for a number. -/
def forms (q : ℚ) : Set Decimal :=
  {d | d.toRat = q}

theorem mem_forms {q : ℚ} : d ∈ forms q ↔ d.toRat = q :=
  Iff.rfl

theorem toRat_eq_zero_iff : d.toRat = 0 ↔ d.mantissa = 0 := by
  rw [toRat, div_eq_zero_iff, or_iff_left (pow_ne_zero _ (by decide)), Int.cast_eq_zero,
    ← Int.natAbs_eq_zero, natAbs_coefficient]

/-! ### The shortest form -/

theorem eq_normalized_iff : e = d.normalized ↔ e.Normal ∧ e ∈ forms d.toRat := by
  rw [mem_forms]
  constructor
  · rintro rfl
    exact ⟨normal_normalized d, toRat_normalized d⟩
  · rintro ⟨hnormal, hvalue⟩
    exact hnormal.eq_of_toRat_eq (normal_normalized d) (hvalue.trans (toRat_normalized d).symm)

theorem Normal.normalized_eq (h : d.Normal) : d.normalized = d :=
  (eq_normalized_iff.2 ⟨h, rfl⟩).symm

@[simp] theorem normalized_normalized (d : Decimal) : d.normalized.normalized = d.normalized :=
  (normal_normalized d).normalized_eq

theorem normalized_eq_normalized_iff : a.normalized = b.normalized ↔ a.toRat = b.toRat := by
  rw [eq_normalized_iff, and_iff_right (normal_normalized a), mem_forms, toRat_normalized]

theorem normalized_eq_zero_iff :
    d.normalized = { isNegative := false, mantissa := 0, scale := 0 } ↔ d.toRat = 0 := by
  have hzero : toRat { isNegative := false, mantissa := 0, scale := 0 } = 0 :=
    toRat_eq_zero_iff.2 rfl
  rw [eq_comm, eq_normalized_iff, and_iff_right ⟨.inl rfl, nofun⟩, mem_forms, hzero, eq_comm]

/-! ### The least scale -/

/-- The last digit decides whether a form of a number has the least scale. -/
theorem isLeast_scale_iff :
    IsLeast (scale '' forms d.toRat) d.scale ↔ d.scale = 0 ∨ ¬10 ∣ d.mantissa := by
  rw [Nat.dvd_iff_mod_eq_zero]
  constructor
  · rintro ⟨-, hleast⟩
    -- The shortest form has the same scale then, and with it the same digits.
    have hle : d.scale ≤ d.normalized.scale := hleast ⟨d.normalized, toRat_normalized d, rfl⟩
    have hscale : d.normalized.scale = d.scale := (scale_normalized_le d).antisymm hle
    have hmantissa : d.normalized.mantissa = d.mantissa := by
      have hcross := mantissa_mul_pow (toRat_normalized d)
      rw [hscale] at hcross
      exact Nat.eq_of_mul_eq_mul_right (Nat.pow_pos (by decide)) hcross
    rw [← hscale, ← hmantissa]
    exact (normal_normalized d).last_digit
  · intro hlast
    refine ⟨⟨d, rfl, rfl⟩, ?_⟩
    rintro _ ⟨e, hvalue, rfl⟩
    rcases hlast with hzero | hdigit
    · exact hzero.trans_le (Nat.zero_le _)
    · have hnormal : d.Normal := ⟨.inr hdigit, fun _ hmantissa => hdigit (by rw [hmantissa])⟩
      exact hnormal.scale_le hvalue

theorem not_dvd_mantissa_normalized (d : Decimal) :
    d.normalized.scale = 0 ∨ ¬10 ∣ d.normalized.mantissa := by
  rw [Nat.dvd_iff_mod_eq_zero]
  exact (normal_normalized d).last_digit

theorem isLeast_scale_normalized (d : Decimal) :
    IsLeast (scale '' forms d.toRat) d.normalized.scale := by
  have hleast := isLeast_scale_iff.2 (not_dvd_mantissa_normalized d)
  rwa [toRat_normalized] at hleast

/-! ### Equality and hashing -/

theorem sameNumber_iff : a.sameNumber b = true ↔ a.normalized = b.normalized :=
  beq_iff_eq

/-- All of the shortest form is fed to a hasher. -/
theorem hashData_eq_iff : a.hashData = b.hashData ↔ a.normalized = b.normalized := by
  constructor
  · intro h
    simp only [hashData, List.cons.injEq, HashDatum.truth.injEq, HashDatum.natural.injEq,
      HashDatum.count.injEq, and_true] at h
    obtain ⟨hsign, hmantissa, hscale⟩ := h
    exact eq_of_parts hsign hmantissa hscale
  · intro h
    rw [hashData, h, hashData]

theorem sameNumber_iff_toRat : a.sameNumber b = true ↔ a.toRat = b.toRat :=
  sameNumber_iff.trans normalized_eq_normalized_iff

theorem sameNumber_equivalence : Equivalence fun a b : Decimal => a.sameNumber b = true := by
  simp only [sameNumber_iff_toRat]
  exact eq_equivalence.comap toRat

theorem sameNumber_lengthened (d : Decimal) (zeros : ℕ) :
    d.sameNumber (d.lengthened zeros) = true := by
  rw [sameNumber_iff_toRat, toRat_lengthened]

/-- Decimals are equal exactly if they stand for one number, and then and only then they have one
shortest form and feed a hasher with the same data. The shortest form of a decimal is the normal
form of its number and the one of least scale; a form has the least scale exactly if no zero can
be stripped from it. The shortest form of a zero has no sign and the scale zero. -/
theorem forms_compared :
    (∀ a b : Decimal,
      (a.sameNumber b = true ↔ a.toRat = b.toRat) ∧
      (a.sameNumber b = true ↔ a.normalized = b.normalized) ∧
      (a.sameNumber b = true ↔ a.hashData = b.hashData)) ∧
    Equivalence (fun a b : Decimal => a.sameNumber b = true) ∧
    (∀ (d : Decimal) (zeros : ℕ), d.sameNumber (d.lengthened zeros) = true) ∧
    ∀ d : Decimal,
      d.normalized.toRat = d.toRat ∧
      d.normalized.normalized = d.normalized ∧
      (∀ e : Decimal, e = d.normalized ↔ e.Normal ∧ e ∈ forms d.toRat) ∧
      (d.normalized.scale = 0 ∨ ¬10 ∣ d.normalized.mantissa) ∧
      IsLeast (scale '' forms d.toRat) d.normalized.scale ∧
      (IsLeast (scale '' forms d.toRat) d.scale ↔ d.scale = 0 ∨ ¬10 ∣ d.mantissa) ∧
      (d.normalized = { isNegative := false, mantissa := 0, scale := 0 } ↔ d.toRat = 0) := by
  refine ⟨fun a b => ⟨sameNumber_iff_toRat, sameNumber_iff, ?_⟩, sameNumber_equivalence,
    sameNumber_lengthened, fun d => ?_⟩
  · rw [sameNumber_iff, hashData_eq_iff]
  · exact ⟨toRat_normalized d, normalized_normalized d, fun e => eq_normalized_iff,
      not_dvd_mantissa_normalized d, isLeast_scale_normalized d, isLeast_scale_iff,
      normalized_eq_zero_iff⟩

/-- Two forms of one number with different fields, and a zero that is written with a sign and a
scale. -/
theorem forms_compared_of_zeros :
    let long := ofParts true 123400 4
    let short := ofParts true 1234 2
    let zero : Decimal := { isNegative := true, mantissa := 0, scale := 3 }
    long ≠ short ∧ long.toRat = short.toRat ∧ long.hashData = short.hashData ∧
      long.hashData = [.truth true, .natural 1234, .count 2] ∧
      long.sameNumber (ofParts false 123400 4) = false ∧
      zero.normalized = { isNegative := false, mantissa := 0, scale := 0 } := by
  intro long short zero
  have hsame : long.sameNumber short = true := by decide
  obtain ⟨hpairs, -, -, hforms⟩ := forms_compared
  obtain ⟨hvalue, -, hdata⟩ := hpairs long short
  obtain ⟨-, -, -, -, -, -, hzero⟩ := hforms zero
  exact ⟨by decide, hvalue.1 hsame, hdata.1 hsame, by decide, by decide,
    hzero.2 (toRat_eq_zero_iff.2 rfl)⟩

end ExactCalc.Decimal
