import ExactCalc.Proofs.Settings.Check
import ExactCalc.Proofs.Settings.Entries

/-!
Settings from three sources: the command line over a file over the built-in values. A setting has
two spellings of its name in a file at most. In a table that uses one of them only, each setting
has the value of its entry, so the sources can be combined setting by setting.
-/

namespace ExactCalc

namespace Setting

variable {setting : Setting} {key : String} {value : Toml}

/-! ### Names -/

def words : Setting → String × Option String
  | .rationalSpec => ("real", some "format")
  | .wordSpec => ("bitvec", some "format")
  | .rounding => ("rounding", none)
  | .decimalScale => ("decimal", some "scale")
  | .width => ("size", none)
  | .signed => ("signed", none)
  | .verbosity => ("verbose", none)
  | .jsonLogs => ("log", some "json")

/-- The letters of the name of a setting, with a joint between two words. -/
def nameWith (joint : Char) (setting : Setting) : List Char :=
  match setting.words with
  | (word, none) => word.toList
  | (front, some back) => front.toList ++ joint :: back.toList

def kebabName (setting : Setting) : String := String.ofList (setting.nameWith '-')

def snakeName (setting : Setting) : String := String.ofList (setting.nameWith '_')

/-- A key as it is compared with the names of settings. -/
def folded (cs : List Char) : List Char :=
  cs.map fun c => if c == '-' then '_' else c

theorem folded_eq_word_iff {cs word : List Char} (hword : ∀ c ∈ word, c ≠ '-' ∧ c ≠ '_') :
    folded cs = word ↔ cs = word := by
  induction word generalizing cs with
  | nil => exact List.map_eq_nil_iff
  | cons c word ih =>
      obtain ⟨⟨hhyphen, hunderscore⟩, hrest⟩ := List.forall_mem_cons.1 hword
      cases cs with
      | nil => simp [folded]
      | cons d cs =>
          have hfold : (if d == '-' then '_' else d) = c ↔ d = c := by
            by_cases hd : d = '-'
            · simp [hd, hhyphen.symm, hunderscore.symm]
            · simp [hd]
          simp only [folded, List.map_cons, List.cons.injEq, hfold] at ih ⊢
          rw [ih hrest]

/-- Both ways to join two words are folded into one. -/
theorem folded_eq_joined_iff {cs front back : List Char}
    (hfront : ∀ c ∈ front, c ≠ '-' ∧ c ≠ '_') (hback : ∀ c ∈ back, c ≠ '-' ∧ c ≠ '_') :
    folded cs = front ++ '_' :: back ↔
      cs = front ++ '-' :: back ∨ cs = front ++ '_' :: back := by
  have hjoint (c : Char) : (if c == '-' then '_' else c) = '_' ↔ c = '-' ∨ c = '_' := by
    by_cases hc : c = '-' <;> simp [hc]
  constructor
  · intro h
    obtain ⟨first, second, rfl, hfirst, hsecond⟩ := List.map_eq_append_iff.1 h
    obtain ⟨c, rest, rfl, hc, hrest⟩ := List.map_eq_cons_iff.1 hsecond
    rw [(folded_eq_word_iff hfront).1 hfirst, (folded_eq_word_iff hback).1 hrest]
    rcases (hjoint c).1 hc with rfl | rfl
    · exact .inl rfl
    · exact .inr rfl
  · have hkeep {word : List Char} (hword : ∀ c ∈ word, c ≠ '-' ∧ c ≠ '_') : folded word = word :=
      (folded_eq_word_iff hword).2 rfl
    rintro (rfl | rfl) <;>
      simp only [folded, List.map_append, List.map_cons] <;>
      exact congrArg₂ _ (hkeep hfront) (congrArg _ (hkeep hback))

theorem folded_eq_nameWith_iff (cs : List Char) (setting : Setting) :
    folded cs = setting.nameWith '_' ↔ cs = setting.nameWith '-' ∨ cs = setting.nameWith '_' := by
  cases setting with
  | rationalSpec | wordSpec | decimalScale | jsonLogs =>
      exact folded_eq_joined_iff (by simp) (by simp)
  | rounding | width | signed | verbosity =>
      simp only [nameWith, words, or_self]
      exact folded_eq_word_iff (by simp)

theorem named?_eq_some_iff :
    named? key = some setting ↔ key = setting.kebabName ∨ key = setting.snakeName := by
  have hfolded : named? key = some setting ↔
      String.ofList (folded key.toList) = setting.snakeName := by
    constructor
    · intro h
      rw [named?] at h
      split at h <;> cases h <;> assumption
    · intro h
      rw [folded] at h
      rw [named?, h]
      cases setting <;> rfl
  rw [hfolded, snakeName, String.ofList_inj, folded_eq_nameWith_iff, kebabName,
    ← String.toList_inj, ← String.toList_inj, String.toList_ofList, String.toList_ofList]

/-- What a table says about a setting under either spelling of its name. -/
def found? (entries : List (String × Toml)) (setting : Setting) : Option Toml :=
  (entries.lookup setting.kebabName).or (entries.lookup setting.snakeName)

end Setting

namespace Overrides

/-- What a file would say to give each setting the value that a command line gives it. -/
def written? (overrides : Overrides) : Setting → Option Toml
  | .rationalSpec => overrides.rationalSpec.map .string
  | .wordSpec => overrides.wordSpec.map .string
  | .rounding => overrides.rounding.map .string
  | .decimalScale => overrides.decimalScale.map fun scale => .integer scale
  | .width => overrides.width.map fun width => .integer width
  | .signed => overrides.signed.map .boolean
  | .verbosity => if overrides.verbosity = 0 then none else some (.integer overrides.verbosity)
  | .jsonLogs => overrides.jsonLogs.map .boolean

end Overrides

namespace Settings

open Setting

variable {entries order front back : List (String × Toml)} {key : String} {value : Toml}
  {setting : Setting} {settings loaded changed : Settings} {overrides : Overrides}

/-! ### Tables -/

/-- A table of distinct keys in which no setting has both spellings of its name. -/
structure SpelledOnce (entries : List (String × Toml)) : Prop where
  nodup : (entries.map Prod.fst).Nodup
  spelling : ∀ setting : Setting, setting.kebabName ∈ entries.map Prod.fst →
    setting.snakeName ∈ entries.map Prod.fst → setting.kebabName = setting.snakeName

theorem lookup_eq_some_iff_mem (h : (entries.map Prod.fst).Nodup) :
    entries.lookup key = some value ↔ (key, value) ∈ entries := by
  rw [List.lookup_eq_some_iff]
  constructor
  · rintro ⟨before, behind, rfl, -⟩
    exact List.mem_append_right _ List.mem_cons_self
  · intro hmem
    obtain ⟨before, behind, rfl⟩ := List.append_of_mem hmem
    refine ⟨before, behind, rfl, fun entry hentry => ?_⟩
    rw [List.map_append, List.map_cons, List.nodup_append] at h
    have hne := h.2.2 entry.1 (List.mem_map_of_mem hentry) key List.mem_cons_self
    exact bne_iff_ne.2 hne.symm

theorem SpelledOnce.found?_eq_some_iff (h : SpelledOnce entries) :
    found? entries setting = some value ↔
      (setting.kebabName, value) ∈ entries ∨ (setting.snakeName, value) ∈ entries := by
  rw [found?, Option.or_eq_some_iff, lookup_eq_some_iff_mem h.nodup,
    lookup_eq_some_iff_mem h.nodup]
  refine ⟨fun hfound => hfound.imp_right And.right, fun hmem => ?_⟩
  rcases hmem with hkebab | hsnake
  · exact .inl hkebab
  · cases hkebab : entries.lookup setting.kebabName with
    | none => exact .inr ⟨rfl, hsnake⟩
    | some other =>
        have hmem := (lookup_eq_some_iff_mem h.nodup).1 hkebab
        have hsame := h.spelling setting (List.mem_map_of_mem hmem) (List.mem_map_of_mem hsnake)
        exact .inl (hsame ▸ hsnake)

/-- In whatever order the entries are read, a setting is given what the table says. -/
theorem SpelledOnce.mem_given_iff (h : SpelledOnce entries) (horder : order.Perm entries) :
    value ∈ given order setting ↔ found? entries setting = some value := by
  simp only [mem_given, horder.mem_iff, named?_eq_some_iff, h.found?_eq_some_iff]
  constructor
  · rintro ⟨key, hmem, rfl | rfl⟩
    · exact .inl hmem
    · exact .inr hmem
  · rintro (hmem | hmem)
    · exact ⟨_, hmem, .inl rfl⟩
    · exact ⟨_, hmem, .inr rfl⟩

theorem SpelledOnce.getLast?_given (h : SpelledOnce entries) (horder : order.Perm entries)
    (setting : Setting) : (given order setting).getLast? = found? entries setting := by
  cases hlast : (given order setting).getLast? with
  | some value =>
      exact ((h.mem_given_iff horder).1 (List.mem_of_getLast? hlast)).symm
  | none =>
      cases hfound : found? entries setting with
      | none => rfl
      | some value =>
          have hmem := (h.mem_given_iff horder).2 hfound
          rw [List.getLast?_eq_none_iff.1 hlast] at hmem
          exact absurd hmem List.not_mem_nil

theorem SpelledOnce.wellTyped_iff (h : SpelledOnce entries) (horder : order.Perm entries) :
    WellTyped order ↔
      ∀ setting value, found? entries setting = some value → setting.Takes value := by
  simp only [← h.mem_given_iff horder, mem_given]
  constructor
  · rintro htyped setting value ⟨key, hmem, hkey⟩
    exact htyped (key, value) hmem setting hkey
  · rintro htyped ⟨key, value⟩ hmem setting hkey
    exact htyped setting value ⟨key, hmem, hkey⟩

theorem SpelledOnce.ofEntries_eq_error_iff (h : SpelledOnce entries) (horder : order.Perm entries) :
    (∃ fault, (ofEntries order).2 = .error fault) ↔
      ∃ setting value, found? entries setting = some value ∧ ¬setting.Takes value := by
  have hrefused : (∃ fault, (ofEntries order).2 = .error fault) ↔ ¬WellTyped order := by
    constructor
    · rintro ⟨fault, hfault⟩ htyped
      obtain ⟨loaded, hloaded⟩ := exists_assignAll_eq_ok htyped {}
      rw [ofEntries, hloaded] at hfault
      contradiction
    · intro htyped
      cases hresult : (ofEntries order).2 with
      | error fault => exact ⟨fault, rfl⟩
      | ok loaded => exact absurd (assignAll_eq_ok_iff.1 hresult).1 htyped
  rw [hrefused, h.wellTyped_iff horder]
  simp only [not_forall, exists_prop]

/-! ### Keys that name no setting -/

theorem assignAll_append (settings : Settings) (front back : List (String × Toml)) :
    (assignAll settings (front ++ back)).2 =
      (assignAll settings front).2.bind fun loaded => (assignAll loaded back).2 := by
  induction front generalizing settings with
  | nil => rfl
  | cons entry front ih =>
      obtain ⟨key, value⟩ := entry
      cases hkey : named? key with
      | none =>
          rw [List.cons_append, assignAll_cons_of_unknown hkey, assignAll_cons_of_unknown hkey, ih]
      | some named =>
          rw [List.cons_append, assignAll_cons_of_named hkey, assignAll_cons_of_named hkey]
          cases named.assign value settings with
          | error fault => rfl
          | ok changed => exact ih changed

theorem ofEntries_without_unknown (hkey : named? key = none) :
    (ofEntries (front ++ (key, value) :: back)).2 = (ofEntries (front ++ back)).2 := by
  simp only [ofEntries, assignAll_append, assignAll_cons_of_unknown hkey]

/-! ### The command line -/

theorem written_merge (settings : Settings) (overrides : Overrides) (setting : Setting) :
    written (settings.merge overrides) setting =
      (overrides.written? setting).getD (written settings setting) := by
  cases setting with
  | verbosity =>
      simp only [written, merge, Overrides.written?]
      split <;> rfl
  | rationalSpec | wordSpec | rounding | signed | jsonLogs =>
      exact (Option.getD_map _ _ _).symm
  | decimalScale =>
      simp only [written, merge, Overrides.written?]
      cases overrides.decimalScale <;> rfl
  | width =>
      simp only [written, merge, Overrides.written?]
      cases overrides.width <;> rfl

theorem merge_idempotent (settings : Settings) (overrides : Overrides) :
    (settings.merge overrides).merge overrides = settings.merge overrides := by
  apply written_injective
  funext setting
  rw [written_merge, written_merge]
  cases overrides.written? setting <;> rfl

/-- What a file says about a setting of the command line makes no difference. -/
theorem merge_of_assign (hgiven : overrides.written? setting ≠ none)
    (hassign : setting.assign value settings = .ok changed) :
    changed.merge overrides = settings.merge overrides := by
  apply written_injective
  funext other
  rw [written_merge, written_merge, (assign_eq_ok_iff.1 hassign).2]
  by_cases hother : other = setting
  · obtain ⟨said, hsaid⟩ := Option.ne_none_iff_exists'.1 hgiven
    rw [hother, hsaid]
    rfl
  · rw [Function.update_of_ne hother]

/-! ### All sources together -/

/-- A table that uses one spelling of each name is refused exactly if a value for a setting is of
the wrong type, whatever the command line says, and other keys change nothing. If it is not refused,
each setting has the value of the command line, or else that of the table, or else the built-in one,
and only the settings so combined are checked. -/
theorem merged_layered (hspelled : SpelledOnce entries) (horder : order.Perm entries)
    (overrides : Overrides) :
    ((∃ fault, (ofEntries order).2 = .error fault) ↔
      ∃ setting value, found? entries setting = some value ∧ ¬setting.Takes value) ∧
    (∀ path fault, (ofEntries order).2 = .error fault →
      inForce overrides ((ofEntries order).2.mapError (.wrongType path)) =
        .error (.file (.wrongType path fault))) ∧
    (∀ front key value back, order = front ++ (key, value) :: back →
      (∀ setting : Setting, key ≠ setting.kebabName ∧ key ≠ setting.snakeName) →
      (ofEntries order).2 = (ofEntries (front ++ back)).2) ∧
    ∀ loaded, (ofEntries order).2 = .ok loaded →
      (∀ setting, written (loaded.merge overrides) setting =
        ((overrides.written? setting).or (found? entries setting)).getD (written {} setting)) ∧
      (loaded.merge overrides).merge overrides = loaded.merge overrides ∧
      ((loaded.merge overrides).validate = .ok () ↔ (loaded.merge overrides).Understood) ∧
      ∀ setting value changed, overrides.written? setting ≠ none →
        setting.assign value loaded = .ok changed →
        changed.merge overrides = loaded.merge overrides := by
  refine ⟨hspelled.ofEntries_eq_error_iff horder, fun path fault hfault => ?_,
    fun front key value back hsplit hkey => ?_,
    fun loaded hloaded => ⟨fun setting => ?_, merge_idempotent loaded overrides,
      validate_eq_ok_iff, fun setting value changed => merge_of_assign⟩⟩
  · rw [hfault]
    rfl
  · subst hsplit
    refine ofEntries_without_unknown (Option.eq_none_iff_forall_ne_some.2 fun setting hnamed => ?_)
    rcases named?_eq_some_iff.1 hnamed with hkebab | hsnake
    · exact (hkey setting).1 hkebab
    · exact (hkey setting).2 hsnake
  · rw [written_merge, (assignAll_eq_ok_iff.1 hloaded).2, hspelled.getLast?_given horder,
      Option.getD_or]

/-- A text of the file that names no style is overridden, and a width is kept. -/
theorem merged_layered_of_two_sources :
    let entries := [("real-format", Toml.string "Q"), ("size", .integer 16),
      ("colour", .boolean true)]
    let overrides : Overrides := { rationalSpec := some "D", verbosity := 1 }
    SpelledOnce entries ∧ entries.reverse.Perm entries ∧
      ∃ loaded, (ofEntries entries.reverse).2 = .ok loaded ∧
        (∀ setting, written (loaded.merge overrides) setting =
          ((overrides.written? setting).or (found? entries setting)).getD (written {} setting)) ∧
        loaded.validate ≠ .ok () ∧ (loaded.merge overrides).validate = .ok () := by
  intro entries overrides
  have hspelled : SpelledOnce entries :=
    ⟨by decide, fun setting => by cases setting <;> decide⟩
  have horder : entries.reverse.Perm entries := List.reverse_perm entries
  have hloaded : (ofEntries entries.reverse).2 = .ok { rationalSpec := "Q", width := 16 } := rfl
  have hunderstood :
      Understood { rationalSpec := "D", width := 16, verbosity := 1 } :=
    ⟨⟨.decimal, rfl⟩, ⟨.value, rfl⟩, ⟨.toEven, rfl⟩, nofun⟩
  obtain ⟨hwritten, -, hcheck, -⟩ :=
    (merged_layered hspelled horder overrides).2.2.2 _ hloaded
  exact ⟨hspelled, horder, _, hloaded, hwritten, nofun, hcheck.2 hunderstood⟩

end Settings

end ExactCalc
