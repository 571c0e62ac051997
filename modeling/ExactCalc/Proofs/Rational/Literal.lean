import ExactCalc.Proofs.Decimal.Literal
import ExactCalc.Rational.Literal

/-!
A grammar of rational literals, and the reader measured against it. A literal is a fraction of two
integers with blanks around them, a decimal with a point, or an integer. No integer holds a slash or
a point and no decimal holds a slash, so the first slash and then a point tell the three apart, and
every text is read as the grammar says: with its number, with a division fault where only the zero
below the fraction line is wrong, and with a format fault otherwise.
-/

namespace ExactCalc.Rational

open Text Numeral

/-- The texts that are literals, without the blanks around them, and the number of each one. -/
inductive Spells : List Char → ℚ → Prop
  | fraction {num den : List Char} {i j : Int} (hnum : Integer (trim num) i)
      (hden : Integer (trim den) j) (hne : j ≠ 0) : Spells (num ++ '/' :: den) ((i : ℚ) / j)
  | decimal {cs : List Char} {q : ℚ} (h : Signed Decimal.Pointed cs q) : Spells cs q
  | integer {cs : List Char} {i : Int} (h : Integer cs i) : Spells cs i

/-- A fraction with nothing wrong but the zero below its line. -/
def OverZero (cs : List Char) : Prop :=
  ∃ num den i, cs = num ++ '/' :: den ∧ Integer (trim num) i ∧ Integer (trim den) 0

/-- A result is what the grammar says of a text. -/
structure Reads (cs : List Char) (result : Except Fault Rational) : Prop where
  accepts : ∀ q, result.map toRat = .ok q ↔ Spells cs q
  over_zero : OverZero cs → ∃ fault, result = .error fault ∧ fault.kind = .division
  malformed : ¬OverZero cs → ∀ fault, result = .error fault → fault.kind = .format

/-! ### Three kinds of literals -/

theorem not_slash_mem_integer {cs : List Char} {i : Int} (h : Integer cs i) : '/' ∉ cs :=
  fun hmem => absurd (h.forall_mem _ hmem) (by decide)

/-- The blanks around an integer hold no slash either. -/
theorem not_slash_mem_side {cs : List Char} {i : Int} (h : Integer (trim cs) i) : '/' ∉ cs :=
  fun hmem => not_slash_mem_integer h ((mem_trim_iff (by decide)).2 hmem)

theorem not_point_mem_integer {cs : List Char} {i : Int} (h : Integer cs i) : '.' ∉ cs :=
  fun hmem => absurd (h.forall_mem _ hmem) (by decide)

theorem not_slash_mem_decimal {cs : List Char} {q : ℚ} (h : Signed Decimal.Pointed cs q) :
    '/' ∉ cs := by
  have hchars := h.forall_mem (P := (· ≠ '/')) (fun body c hc => ?_) (by decide) (by decide)
  · exact fun hmem => hchars _ hmem rfl
  · rintro rfl
    exact absurd (body.forall_mem _ hc) (by decide)

theorem point_mem_decimal {cs : List Char} {q : ℚ} (h : Signed Decimal.Pointed cs q) :
    '.' ∈ cs := by
  cases h with
  | bare body => exact body.point_mem
  | plus body => exact List.mem_cons_of_mem _ body.point_mem
  | minus body => exact List.mem_cons_of_mem _ body.point_mem

theorem spells_slash_iff {num den : List Char} (hfirst : '/' ∉ num) {q : ℚ} :
    Spells (num ++ '/' :: den) q ↔
      ∃ i j : Int, Integer (trim num) i ∧ Integer (trim den) j ∧ j ≠ 0 ∧ (i : ℚ) / j = q := by
  constructor
  · intro h
    generalize htext : num ++ '/' :: den = text at h
    have hslash : '/' ∈ text := htext ▸ List.mem_append_cons_self
    -- A numerator holds no slash, so the line of a fraction is the first slash of the text.
    cases h with
    | fraction hnum hden hne =>
        obtain ⟨rfl, rfl⟩ := split_unique hfirst (not_slash_mem_side hnum) htext
        exact ⟨_, _, hnum, hden, hne, rfl⟩
    | decimal h => exact absurd hslash (not_slash_mem_decimal h)
    | integer h => exact absurd hslash (not_slash_mem_integer h)
  · rintro ⟨i, j, hnum, hden, hne, rfl⟩
    exact .fraction hnum hden hne

theorem overZero_slash_iff {num den : List Char} (hfirst : '/' ∉ num) :
    OverZero (num ++ '/' :: den) ↔ ∃ i, Integer (trim num) i ∧ Integer (trim den) 0 := by
  constructor
  · rintro ⟨num', den', i, htext, hnum, hden⟩
    obtain ⟨rfl, rfl⟩ := split_unique hfirst (not_slash_mem_side hnum) htext
    exact ⟨i, hnum, hden⟩
  · rintro ⟨i, hnum, hden⟩
    exact ⟨num, den, i, rfl, hnum, hden⟩

theorem not_overZero {cs : List Char} (hslash : '/' ∉ cs) : ¬OverZero cs := by
  rintro ⟨num, den, i, rfl, -, -⟩
  exact hslash List.mem_append_cons_self

theorem spells_point_iff {cs : List Char} (hslash : '/' ∉ cs) (hpoint : '.' ∈ cs) {q : ℚ} :
    Spells cs q ↔ Signed Decimal.Pointed cs q := by
  constructor
  · intro h
    cases h with
    | fraction hnum hden hne => exact absurd List.mem_append_cons_self hslash
    | decimal h => exact h
    | integer h => exact absurd hpoint (not_point_mem_integer h)
  · exact .decimal

theorem spells_plain_iff {cs : List Char} (hslash : '/' ∉ cs) (hpoint : '.' ∉ cs) {q : ℚ} :
    Spells cs q ↔ ∃ i : Int, Integer cs i ∧ (i : ℚ) = q := by
  constructor
  · intro h
    cases h with
    | fraction hnum hden hne => exact absurd List.mem_append_cons_self hslash
    | decimal h => exact absurd (point_mem_decimal h) hpoint
    | integer h => exact ⟨_, h, rfl⟩
  · rintro ⟨i, h, rfl⟩
    exact .integer h

/-- A text spells one number. -/
theorem Spells.unique {cs : List Char} {q q' : ℚ} (h : Spells cs q) (h' : Spells cs q') :
    q = q' := by
  by_cases hslash : '/' ∈ cs
  · obtain ⟨num, den, rfl, hfirst⟩ := List.eq_append_cons_of_mem hslash
    obtain ⟨i, j, hnum, hden, -, rfl⟩ := (spells_slash_iff hfirst).1 h
    obtain ⟨i', j', hnum', hden', -, rfl⟩ := (spells_slash_iff hfirst).1 h'
    rw [hnum.unique hnum', hden.unique hden']
  by_cases hpoint : '.' ∈ cs
  · rw [spells_point_iff hslash hpoint] at h h'
    exact Decimal.signed_pointed_unique h h'
  · obtain ⟨i, hi, rfl⟩ := (spells_plain_iff hslash hpoint).1 h
    obtain ⟨i', hi', rfl⟩ := (spells_plain_iff hslash hpoint).1 h'
    rw [hi.unique hi']

/-- What spells a number has no zero below its line. -/
theorem Spells.not_overZero {cs : List Char} {q : ℚ} (h : Spells cs q) : ¬OverZero cs := by
  rintro ⟨num, den, i, rfl, hnum, hzero⟩
  obtain ⟨-, j, -, hden, hne, -⟩ := (spells_slash_iff (not_slash_mem_side hnum)).1 h
  exact hne (hden.unique hzero)

/-! ### The reader -/

theorem parse_of_slash {text : String} {num den : List Char}
    (htext : trim text.toList = num ++ '/' :: den) (hfirst : '/' ∉ num) :
    parse text = parseFraction num den := by
  have hsplit : splitSlash? (trim text.toList) = some (num, den) := by
    rw [htext, splitSlash?, dropWhile_ne_append hfirst, takeWhile_ne_append hfirst]
  have hne : (trim text.toList).isEmpty = false := by
    rw [htext]
    cases num <;> rfl
  rw [parse, hne, if_neg Bool.false_ne_true, hsplit]

theorem splitSlash?_eq_none {cs : List Char} (hslash : '/' ∉ cs) : splitSlash? cs = none := by
  have hall : cs.dropWhile (· != '/') = [] := by
    rw [List.dropWhile_eq_nil_iff]
    exact fun c hc => bne_iff_ne.2 (ne_of_mem_of_not_mem hc hslash)
  rw [splitSlash?, hall]

theorem parse_of_no_slash {text : String} (hne : trim text.toList ≠ [])
    (hslash : '/' ∉ trim text.toList) :
    parse text =
      if (trim text.toList).contains '.' then
        (Decimal.parse (String.ofList (trim text.toList))).map ofDecimal
      else (Numeral.parseInteger (String.ofList (trim text.toList))).map ofInt := by
  rw [parse, List.isEmpty_eq_false_iff.2 hne, if_neg Bool.false_ne_true, splitSlash?_eq_none hslash]

/-- A text of no form at all is refused. -/
theorem reads_refused {cs : List Char} {fault : Fault} (hspells : ∀ q, ¬Spells cs q)
    (hzero : ¬OverZero cs) (hkind : fault.kind = .format) : Reads cs (.error fault) where
  accepts q := by
    refine iff_of_false (fun h => ?_) (hspells q)
    contradiction
  over_zero h := absurd h hzero
  malformed _ _ h := Except.error.inj h ▸ hkind

/-- A fraction over zero is refused for that reason. -/
theorem reads_over_zero {cs : List Char} {fault : Fault} (hzero : OverZero cs)
    (hkind : fault.kind = .division) : Reads cs (.error fault) where
  accepts q := by
    refine iff_of_false (fun h => ?_) fun h => h.not_overZero hzero
    contradiction
  over_zero _ := ⟨fault, rfl, hkind⟩
  malformed h := absurd hzero h

/-- A text is read as the number that it spells. -/
theorem reads_spelled {cs : List Char} {a : Rational} (h : Spells cs a.toRat) :
    Reads cs (.ok a) where
  accepts q := by
    rw [Except.map, Except.ok.injEq]
    constructor
    · rintro rfl
      exact h
    · exact h.unique
  over_zero hzero := absurd hzero h.not_overZero
  malformed _ _ h := by contradiction

theorem reads_fraction {num den : List Char} (hfirst : '/' ∉ num) :
    Reads (num ++ '/' :: den) (parseFraction num den) := by
  -- The sides are read one after the other, and the first fault is the one that is given.
  cases hi : integer? num with
  | none =>
      have hnum := not_integer_trim hi
      have hresult : parseFraction num den =
          .error (.malformed "numerator" (String.ofList (trim num))) := by
        rw [parseFraction, parseSide, hi]
        rfl
      rw [hresult]
      refine reads_refused (fun q h => ?_) (fun h => ?_) rfl
      · obtain ⟨i, j, h, -⟩ := (spells_slash_iff hfirst).1 h
        exact hnum i h
      · obtain ⟨i, h, -⟩ := (overZero_slash_iff hfirst).1 h
        exact hnum i h
  | some i =>
      cases hj : integer? den with
      | none =>
          have hden := not_integer_trim hj
          have hresult : parseFraction num den =
              .error (.malformed "denominator" (String.ofList (trim den))) := by
            rw [parseFraction, parseSide, hi, parseSide, hj]
            rfl
          rw [hresult]
          refine reads_refused (fun q h => ?_) (fun h => ?_) rfl
          · obtain ⟨i, j, -, h, -⟩ := (spells_slash_iff hfirst).1 h
            exact hden j h
          · obtain ⟨i, -, h⟩ := (overZero_slash_iff hfirst).1 h
            exact hden 0 h
      | some j =>
          have hnum := integer?_iff.1 hi
          have hden := integer?_iff.1 hj
          have hresult : parseFraction num den = make i j := by
            rw [parseFraction, parseSide, hi, parseSide, hj]
            rfl
          rw [hresult, make]
          split
          · next hzero =>
            exact reads_over_zero ((overZero_slash_iff hfirst).2 ⟨i, hnum, hzero ▸ hden⟩) rfl
          · next hne =>
            refine reads_spelled ?_
            rw [toRat_ofFraction]
            exact .fraction hnum hden hne

theorem reads_decimal {cs : List Char} (htrim : trim cs = cs) (hslash : '/' ∉ cs)
    (hpoint : '.' ∈ cs) (hlength : cs.length ≤ Decimal.maxScale) :
    Reads cs ((Decimal.parse (String.ofList cs)).map ofDecimal) := by
  rw [Decimal.parse, String.toList_ofList]
  cases hliteral : Decimal.literal? cs with
  | none =>
      refine reads_refused (fun q h => ?_) (not_overZero hslash) rfl
      rw [spells_point_iff hslash hpoint, ← Decimal.literal?_iff htrim hpoint hlength,
        hliteral] at h
      contradiction
  | some d =>
      refine reads_spelled ?_
      rw [toRat_ofDecimal]
      exact .decimal (Decimal.signed_pointed_of_literal? htrim hpoint hliteral)

theorem reads_integer {cs : List Char} (htrim : trim cs = cs) (hslash : '/' ∉ cs)
    (hpoint : '.' ∉ cs) : Reads cs ((Numeral.parseInteger (String.ofList cs)).map ofInt) := by
  rw [parseInteger, String.toList_ofList]
  cases hinteger : integer? cs with
  | none =>
      refine reads_refused (fun q h => ?_) (not_overZero hslash) rfl
      obtain ⟨i, h, -⟩ := (spells_plain_iff hslash hpoint).1 h
      exact not_integer_trim hinteger i (htrim.symm ▸ h)
  | some i =>
      refine reads_spelled ?_
      rw [toRat_ofInt]
      exact .integer (htrim ▸ integer?_iff.1 hinteger)

theorem reads_nil (text : String) : Reads [] (.error (.malformed "rational literal" text)) := by
  refine reads_refused (fun q h => ?_) (not_overZero List.not_mem_nil) rfl
  obtain ⟨i, h, -⟩ := (spells_plain_iff List.not_mem_nil List.not_mem_nil).1 h
  exact not_integer_nil i h

/-! ### Texts -/

/-- A text is read by the grammar unless it is a decimal of more digits than a scale can count. -/
theorem reads_of_length_le (text : String)
    (hlength : '/' ∉ trim text.toList → '.' ∈ trim text.toList →
      (trim text.toList).length ≤ Decimal.maxScale) :
    Reads (trim text.toList) (parse text) := by
  by_cases hempty : trim text.toList = []
  · rw [parse, hempty]
    exact reads_nil text
  by_cases hslash : '/' ∈ trim text.toList
  · obtain ⟨num, den, htext, hfirst⟩ := List.eq_append_cons_of_mem hslash
    rw [parse_of_slash htext hfirst, htext]
    exact reads_fraction hfirst
  rw [parse_of_no_slash hempty hslash]
  by_cases hpoint : '.' ∈ trim text.toList
  · rw [if_pos (List.contains_iff_mem.2 hpoint)]
    exact reads_decimal (trim_trim _) hslash hpoint (hlength hslash hpoint)
  · rw [if_neg (mt List.contains_iff_mem.1 hpoint)]
    exact reads_integer (trim_trim _) hslash hpoint

/-- However many digits there are, a number that is read is the one that the text spells. -/
theorem spells_of_parse {text : String} {a : Rational} (h : parse text = .ok a) :
    Spells (trim text.toList) a.toRat := by
  by_cases hdecimal : '/' ∉ trim text.toList ∧ '.' ∈ trim text.toList
  · obtain ⟨hslash, hpoint⟩ := hdecimal
    rw [parse_of_no_slash (List.ne_nil_of_mem hpoint) hslash,
      if_pos (List.contains_iff_mem.2 hpoint), Decimal.parse, String.toList_ofList] at h
    cases hliteral : Decimal.literal? (trim text.toList) with
    | none =>
        rw [hliteral] at h
        contradiction
    | some d =>
        rw [hliteral] at h
        obtain rfl : ofDecimal d = a := Except.ok.inj h
        rw [toRat_ofDecimal]
        exact .decimal (Decimal.signed_pointed_of_literal? (trim_trim _) hpoint hliteral)
  · have hreads := reads_of_length_le text fun hslash hpoint =>
      absurd ⟨hslash, hpoint⟩ hdecimal
    rw [← hreads.accepts, h]
    rfl

/-- The reader reads every text as the grammar says. -/
theorem reads_parse (text : String) (hsize : text.utf8ByteSize < 2 ^ 32) :
    Reads (trim text.toList) (parse text) := by
  refine reads_of_length_le text fun _ _ => ?_
  have hchars := length_le_utf8ByteSize text
  have htrim := length_trim_le text.toList
  rw [Decimal.maxScale]
  omega

/-- A sign on each side of the line and blanks around all of it. -/
theorem reads_parse_of_signs :
    " -6/ +8".utf8ByteSize < 2 ^ 32 ∧ Reads (trim " -6/ +8".toList) (parse " -6/ +8") :=
  ⟨by decide, reads_parse " -6/ +8" (by decide)⟩

end ExactCalc.Rational
