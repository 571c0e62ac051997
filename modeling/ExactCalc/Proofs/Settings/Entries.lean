import ExactCalc.Settings.File
import Mathlib.Data.List.Perm.Basic
import Mathlib.Logic.Function.Basic

/-!
Loading a table of settings. Settings are seen through what a file would say to give each of them
its value. Assigning an entry changes this in one place, so after all entries each setting has the
value of the last entry that means it. The order of the entries therefore makes no difference
exactly if a value is of the wrong type or no setting is given two values.
-/

namespace ExactCalc

namespace Setting

/-- What a file says to give this setting the value that it has. -/
def written (settings : Settings) : Setting → Toml
  | .rationalSpec => .string settings.rationalSpec
  | .wordSpec => .string settings.wordSpec
  | .rounding => .string settings.rounding
  | .decimalScale => .integer settings.decimalScale
  | .width => .integer settings.width
  | .signed => .boolean settings.signed
  | .verbosity => .integer settings.verbosity
  | .jsonLogs => .boolean settings.jsonLogs

def Takes (value : Toml) : Setting → Prop
  | .rationalSpec | .wordSpec | .rounding => ∃ spec : String, value = .string spec
  | .decimalScale | .width => ∃ n : Nat, n < 2 ^ 32 ∧ value = .integer n
  | .verbosity => ∃ n : Nat, n < 2 ^ 8 ∧ value = .integer n
  | .signed | .jsonLogs => ∃ b : Bool, value = .boolean b

variable {setting : Setting} {value : Toml} {a b : Settings}

/-- Nothing of the settings is left unsaid. -/
theorem written_injective : Function.Injective written := by
  intro a b h
  have hat (setting : Setting) : written a setting = written b setting := congrFun h setting
  have hnatural {m n : Nat} (h : Toml.integer m = .integer n) : m = n :=
    Int.ofNat_inj.1 (Toml.integer.inj h)
  have hrationalSpec := Toml.string.inj (hat .rationalSpec)
  have hwordSpec := Toml.string.inj (hat .wordSpec)
  have hrounding := Toml.string.inj (hat .rounding)
  have hdecimalScale := hnatural (hat .decimalScale)
  have hwidth := hnatural (hat .width)
  have hsigned := Toml.boolean.inj (hat .signed)
  have hverbosity := hnatural (hat .verbosity)
  have hjsonLogs := Toml.boolean.inj (hat .jsonLogs)
  cases a
  cases b
  simp_all

/-! ### One entry -/

theorem text_eq_ok_iff {spec : String} : text value = .ok spec ↔ value = .string spec := by
  cases value <;> simp [text]

theorem truth_eq_ok_iff {b : Bool} : truth value = .ok b ↔ value = .boolean b := by
  cases value <;> simp [truth]

theorem natural_eq_ok_iff {bits n : Nat} :
    natural bits value = .ok n ↔ n < 2 ^ bits ∧ value = .integer n := by
  cases value with
  | integer i =>
      have hpow := natCast_two_pow bits
      simp only [natural, Toml.integer.injEq]
      split
      · simp only [Except.ok.injEq]
        omega
      · simp only [reduceCtorEq, false_iff]
        omega
  | _ => simp [natural]

/-- A reader of values followed by a change of one setting. -/
theorem map_eq_ok_iff {α : Type} {result : Except WrongType α} {change : α → Settings}
    (htakes : setting.Takes value ↔ ∃ x, result = .ok x)
    (hchange : ∀ x, result = .ok x →
      written (change x) = Function.update (written a) setting value) :
    result.map change = .ok b ↔
      setting.Takes value ∧ written b = Function.update (written a) setting value := by
  constructor
  · intro h
    cases hresult : result with
    | error fault =>
        rw [hresult] at h
        contradiction
    | ok x =>
        rw [hresult] at h
        obtain rfl : change x = b := Except.ok.inj h
        exact ⟨htakes.2 ⟨x, hresult⟩, hchange x hresult⟩
  · rintro ⟨h, hwritten⟩
    obtain ⟨x, hresult⟩ := htakes.1 h
    obtain rfl : change x = b := written_injective ((hchange x hresult).trans hwritten.symm)
    rw [hresult]
    rfl

/-- Assigning gives the setting the value and leaves the others alone. -/
theorem assign_eq_ok_iff :
    setting.assign value a = .ok b ↔
      setting.Takes value ∧ written b = Function.update (written a) setting value := by
  cases setting with
  | rationalSpec | wordSpec | rounding =>
      refine map_eq_ok_iff (by simp [Takes, text_eq_ok_iff]) fun spec hspec => ?_
      obtain rfl := text_eq_ok_iff.1 hspec
      funext other
      cases other <;> rfl
  | decimalScale | width | verbosity =>
      refine map_eq_ok_iff (by simp [Takes, natural_eq_ok_iff]) fun n hn => ?_
      obtain ⟨-, rfl⟩ := natural_eq_ok_iff.1 hn
      funext other
      cases other <;> rfl
  | signed | jsonLogs =>
      refine map_eq_ok_iff (by simp [Takes, truth_eq_ok_iff]) fun truth htruth => ?_
      obtain rfl := truth_eq_ok_iff.1 htruth
      funext other
      cases other <;> rfl

/-- A value of the right type is never refused. -/
theorem exists_assign_eq_ok (h : setting.Takes value) (a : Settings) :
    ∃ b, setting.assign value a = .ok b := by
  cases setting with
  | rationalSpec | wordSpec | rounding =>
      obtain ⟨spec, rfl⟩ := h
      exact ⟨_, rfl⟩
  | decimalScale | width | verbosity =>
      obtain ⟨n, hn, rfl⟩ := h
      have hread := natural_eq_ok_iff.2 ⟨hn, rfl⟩
      rw [assign, hread]
      exact ⟨_, rfl⟩
  | signed | jsonLogs =>
      obtain ⟨truth, rfl⟩ := h
      exact ⟨_, rfl⟩

/-! ### The values of a setting -/

/-- The values that the entries of a table give this setting, in their order. -/
def given (entries : List (String × Toml)) (setting : Setting) : List Toml :=
  entries.filterMap fun entry => if named? entry.1 = some setting then some entry.2 else none

theorem mem_given {entries : List (String × Toml)} :
    value ∈ given entries setting ↔ ∃ key, (key, value) ∈ entries ∧ named? key = some setting := by
  simp [given]

theorem given_perm {entries entries' : List (String × Toml)} (h : entries.Perm entries') :
    (given entries setting).Perm (given entries' setting) :=
  h.filterMap _

theorem given_cons_of_unknown {key : String} (hkey : named? key = none)
    (rest : List (String × Toml)) :
    given ((key, value) :: rest) setting = given rest setting := by
  simp [given, hkey]

theorem given_cons_of_named {key : String} {named : Setting} (hkey : named? key = some named)
    (rest : List (String × Toml)) :
    given ((key, value) :: rest) setting =
      if setting = named then value :: given rest setting else given rest setting := by
  by_cases h : setting = named <;> simp [given, hkey, h, eq_comm]

theorem given_append_singleton {key : String} (hkey : named? key = some setting)
    (rest : List (String × Toml)) :
    given (rest ++ [(key, value)]) setting = given rest setting ++ [value] := by
  simp [given, hkey]

end Setting

namespace Settings

open Setting

variable {entries rest : List (String × Toml)} {key : String} {value : Toml} {named : Setting}
  {a b c : Settings}

def WellTyped (entries : List (String × Toml)) : Prop :=
  ∀ entry ∈ entries, ∀ setting, named? entry.1 = some setting → setting.Takes entry.2

def Consistent (entries : List (String × Toml)) : Prop :=
  ∀ setting, ∀ value ∈ given entries setting, ∀ value' ∈ given entries setting, value = value'

theorem wellTyped_cons_of_unknown (hkey : named? key = none) :
    WellTyped ((key, value) :: rest) ↔ WellTyped rest := by
  simp [WellTyped, hkey]

theorem wellTyped_cons_of_named (hkey : named? key = some named) :
    WellTyped ((key, value) :: rest) ↔ named.Takes value ∧ WellTyped rest := by
  simp [WellTyped, hkey]

theorem WellTyped.perm {entries' : List (String × Toml)} (h : entries.Perm entries') :
    WellTyped entries ↔ WellTyped entries' := by
  simp only [WellTyped, h.mem_iff]

/-! ### All entries -/

theorem assignAll_cons_of_unknown (hkey : named? key = none) :
    (assignAll a ((key, value) :: rest)).2 = (assignAll a rest).2 := by
  simp [assignAll, hkey]

theorem assignAll_cons_of_named (hkey : named? key = some named) :
    (assignAll a ((key, value) :: rest)).2 =
      (named.assign value a).bind fun b => (assignAll b rest).2 := by
  simp only [assignAll, hkey]
  cases named.assign value a <;> rfl

/-- An assigned value counts until a later one takes its place. -/
theorem getD_given_cons (hkey : named? key = some named)
    (hassigned : written b = Function.update (written a) named value)
    (setting : Setting) :
    (given ((key, value) :: rest) setting).getLast?.getD (written a setting) =
      (given rest setting).getLast?.getD (written b setting) := by
  rw [given_cons_of_named hkey, hassigned, Function.update_apply]
  split
  · rw [List.getLast?_cons, Option.getD_some]
  · rfl

/-- After all entries each setting has the last of its values, or still the one that it had. -/
theorem assignAll_eq_ok_iff :
    (assignAll a entries).2 = .ok b ↔ WellTyped entries ∧
      ∀ setting, written b setting = (given entries setting).getLast?.getD (written a setting) := by
  induction entries generalizing a with
  | nil =>
      have hnil : WellTyped [] := fun _ h => nomatch h
      have hsame : a = b ↔ ∀ setting, written b setting = written a setting := by
        rw [← funext_iff, written_injective.eq_iff, eq_comm]
      simpa [assignAll, hnil, given] using hsame
  | cons entry rest ih =>
      obtain ⟨key, value⟩ := entry
      cases hkey : named? key with
      | none =>
          rw [assignAll_cons_of_unknown hkey, ih, wellTyped_cons_of_unknown hkey]
          simp only [given_cons_of_unknown hkey]
      | some named =>
          rw [assignAll_cons_of_named hkey, wellTyped_cons_of_named hkey]
          -- The rest starts from the settings that this entry leaves.
          constructor
          · intro h
            cases hassign : named.assign value a with
            | error fault =>
                rw [hassign] at h
                contradiction
            | ok c =>
                rw [hassign] at h
                obtain ⟨htakes, hassigned⟩ := assign_eq_ok_iff.1 hassign
                obtain ⟨htyped, hwritten⟩ := ih.1 h
                refine ⟨⟨htakes, htyped⟩, fun setting => ?_⟩
                rw [hwritten, getD_given_cons hkey hassigned]
          · rintro ⟨⟨htakes, htyped⟩, hwritten⟩
            obtain ⟨c, hassign⟩ := exists_assign_eq_ok htakes a
            have hassigned := (assign_eq_ok_iff.1 hassign).2
            rw [hassign]
            refine ih.2 ⟨htyped, fun setting => ?_⟩
            rw [hwritten, getD_given_cons hkey hassigned]

/-- Entries of the right types are never refused. -/
theorem exists_assignAll_eq_ok (h : WellTyped entries) (a : Settings) :
    ∃ b, (assignAll a entries).2 = .ok b := by
  induction entries generalizing a with
  | nil => exact ⟨a, rfl⟩
  | cons entry rest ih =>
      obtain ⟨key, value⟩ := entry
      cases hkey : named? key with
      | none =>
          rw [assignAll_cons_of_unknown hkey]
          exact ih ((wellTyped_cons_of_unknown hkey).1 h) a
      | some named =>
          obtain ⟨htakes, htyped⟩ := (wellTyped_cons_of_named hkey).1 h
          obtain ⟨b, hassign⟩ := exists_assign_eq_ok htakes a
          rw [assignAll_cons_of_named hkey, hassign]
          exact ih htyped b

/-! ### Orders of the entries -/

/-- All orders of the entries load the same settings, or all of them are refused. -/
def OrderFree (entries : List (String × Toml)) : Prop :=
  ∀ order order' : List (String × Toml), order.Perm entries → order'.Perm entries →
    (ofEntries order).2.toOption = (ofEntries order').2.toOption

variable {order : List (String × Toml)}

/-- Values that are all the same have one order. -/
theorem given_eq_of_perm (hconsistent : Consistent entries) (h : order.Perm entries)
    (setting : Setting) : given order setting = given entries setting := by
  have hperm : (given order setting).Perm (given entries setting) := given_perm h
  have hsame := hconsistent setting
  cases hgiven : given entries setting with
  | nil =>
      rw [hgiven] at hperm
      exact hperm.eq_nil
  | cons value rest =>
      rw [hgiven] at hperm hsame
      have hall : value :: rest = List.replicate (rest.length + 1) value :=
        List.eq_replicate_of_mem fun other hother => hsame other hother value List.mem_cons_self
      rw [hall] at hperm ⊢
      exact List.perm_replicate.1 hperm

theorem toOption_ofEntries_of_not_wellTyped (htyped : ¬WellTyped entries)
    (h : order.Perm entries) : (ofEntries order).2.toOption = none := by
  cases hresult : (ofEntries order).2 with
  | error fault => rfl
  | ok b =>
      have horder : WellTyped order := (assignAll_eq_ok_iff.1 hresult).1
      exact absurd ((WellTyped.perm h).1 horder) htyped

/-- Every value of a setting is loaded in some order, the one in which its entry is the last. -/
theorem exists_order_loading (htyped : WellTyped entries) {setting : Setting}
    (h : value ∈ given entries setting) :
    ∃ order b, order.Perm entries ∧ (ofEntries order).2 = .ok b ∧ written b setting = value := by
  obtain ⟨key, hmem, hkey⟩ := mem_given.1 h
  obtain ⟨front, back, rfl⟩ := List.append_of_mem hmem
  -- The entry goes behind all others.
  have hperm : (front ++ back ++ [(key, value)]).Perm (front ++ (key, value) :: back) :=
    (List.perm_append_singleton _ _).trans List.perm_middle.symm
  obtain ⟨b, hload⟩ := exists_assignAll_eq_ok ((WellTyped.perm hperm).2 htyped) {}
  refine ⟨_, b, hperm, hload, ?_⟩
  rw [(assignAll_eq_ok_iff.1 hload).2, given_append_singleton hkey, List.getLast?_concat,
    Option.getD_some]

/-- The order of the entries makes no difference exactly if some value is of the wrong type, which
every order finds out, or no setting is given two values. -/
theorem orderFree_iff (entries : List (String × Toml)) :
    OrderFree entries ↔ (WellTyped entries → Consistent entries) := by
  constructor
  · intro hfree htyped setting value hvalue value' hvalue'
    obtain ⟨order, b, hperm, hload, hwritten⟩ := exists_order_loading htyped hvalue
    obtain ⟨order', b', hperm', hload', hwritten'⟩ := exists_order_loading htyped hvalue'
    have hsame := hfree order order' hperm hperm'
    rw [hload, hload'] at hsame
    obtain rfl : b = b' := Option.some.inj hsame
    exact hwritten.symm.trans hwritten'
  · intro hconsistent order order' hperm hperm'
    by_cases htyped : WellTyped entries
    · have hgiven := given_eq_of_perm (hconsistent htyped) hperm
      have hgiven' := given_eq_of_perm (hconsistent htyped) hperm'
      obtain ⟨b, hload⟩ := exists_assignAll_eq_ok ((WellTyped.perm hperm).2 htyped) {}
      have hwritten := (assignAll_eq_ok_iff.1 hload).2
      have hload' : (ofEntries order').2 = .ok b :=
        assignAll_eq_ok_iff.2 ⟨(WellTyped.perm hperm').2 htyped, fun setting => by
          rw [hwritten, hgiven, hgiven']⟩
      rw [hload', ofEntries, hload]
    · rw [toOption_ofEntries_of_not_wellTyped htyped hperm,
        toOption_ofEntries_of_not_wellTyped htyped hperm']

/-- One setting under two names, each of them in a table once: the later entry wins. -/
theorem orderFree_fails_for_two_spellings :
    let entries := [("decimal-scale", Toml.integer 5), ("decimal_scale", Toml.integer 6)]
    (entries.map Prod.fst).Nodup ∧
      (ofEntries entries).2.toOption = some { decimalScale := 6 } ∧
      (ofEntries entries.reverse).2.toOption = some { decimalScale := 5 } ∧
      ¬OrderFree entries := by
  intro entries
  have hload : (ofEntries entries).2.toOption = some { decimalScale := 6 } := rfl
  have hreverse : (ofEntries entries.reverse).2.toOption = some { decimalScale := 5 } := rfl
  refine ⟨by decide, hload, hreverse, fun hfree => ?_⟩
  have hsame := hfree entries entries.reverse (.refl _) (List.reverse_perm _)
  rw [hload, hreverse] at hsame
  simp at hsame

end Settings

end ExactCalc
