import ExactCalc.Proofs.Calculator.Printing
import ExactCalc.Proofs.Settings.Check
import ExactCalc.Proofs.Word.Widths

/-!
Evaluation of commands under settings in force. The check has read every text that a command looks
at, so what is left to go wrong is a fault of the values, and the report says which, or that a
result cannot be printed, and then there is no report. The width of the operands is not zero, and
no operation on words makes a word without bits but the one that is asked for it.
-/

namespace ExactCalc

namespace Word

variable {α : Type} {a b : Word} {text : String} {width n : Nat} {i : Int} {divides : Bool}
  {result : Except Fault α}

/-! ### Words without bits -/

theorem ofNat_eq_emptyWidth_iff : ofNat width n = .error .emptyWidth ↔ width = 0 := by
  rw [ofNat]
  split <;> simp <;> omega

theorem ofInt_eq_emptyWidth_iff : ofInt width i = .error .emptyWidth ↔ width = 0 := by
  rw [ofInt]
  split <;> simp <;> omega

theorem Guarded.ne_emptyWidth (h : Guarded a b divides result) : result ≠ .error .emptyWidth := by
  by_cases hwidth : a.width = b.width
  · by_cases hzero : divides = true ∧ b.value = 0
    · rw [h.zeroDivisor hwidth hzero.1 hzero.2]
      simp
    · obtain ⟨x, hx⟩ := h.defined hwidth fun hdivides hb => hzero ⟨hdivides, hb⟩
      rw [hx]
      exact nofun
  · rw [h.mismatch hwidth]
    simp

/-- Digits that are counted before they are read. -/
theorem ofDigits_ne_emptyWidth (hwidth : width ≠ 0) {long : Prop} [Decidable long]
    {tooMany malformed : Fault} (htooMany : tooMany ≠ .emptyWidth)
    (hmalformed : malformed ≠ .emptyWidth) (read? : Option Nat) :
    (if width = 0 then .error .emptyWidth
      else if long then .error tooMany
      else match read? with
        | some n => ofNat width n
        | none => .error malformed) ≠ .error Fault.emptyWidth := by
  rw [if_neg hwidth]
  split
  · simpa using htooMany
  · split
    · rwa [Ne, ofNat_eq_emptyWidth_iff]
    · simpa using hmalformed

theorem parseHex_ne_emptyWidth (hwidth : width ≠ 0) : parseHex text width ≠ .error .emptyWidth :=
  ofDigits_ne_emptyWidth hwidth (by simp) (by simp) _

theorem parseBinary_ne_emptyWidth (hwidth : width ≠ 0) :
    parseBinary text width ≠ .error .emptyWidth :=
  ofDigits_ne_emptyWidth hwidth (by simp) (by simp) _

theorem parseOperand_ne_emptyWidth (hwidth : width ≠ 0) :
    parseOperand text width ≠ .error .emptyWidth := by
  simp only [parseOperand]
  split
  · exact parseHex_ne_emptyWidth hwidth
  · split
    · exact parseBinary_ne_emptyWidth hwidth
    · rw [Ne, bind_eq_error_iff]
      rintro (hread | ⟨i, -, hmade⟩)
      · simp only [Numeral.parseInteger] at hread
        split at hread <;> simp at hread
      · exact hwidth (ofInt_eq_emptyWidth_iff.1 hmade)

/-- A step past the amount of a shift or rotation. -/
theorem bind_amount_ne_emptyWidth {move : BitMove} {distance : Int} {next : Nat → Word} :
    (do return next (← amount move distance)) ≠ .error Fault.emptyWidth := by
  rw [Ne, bind_eq_error_iff]
  rintro (hrefused | ⟨count, -, hmade⟩)
  · rw [amount] at hrefused
    split at hrefused <;> simp at hrefused
  · cases hmade

/-- A width that grows is not zero. -/
theorem bind_widened_ne_emptyWidth (hwidth : width ≠ 0) {make : Nat → Except Fault Word}
    (hmake : ∀ width, make width = .error .emptyWidth ↔ width = 0) :
    (do make (← widened width n)) ≠ .error .emptyWidth := by
  rw [Ne, bind_eq_error_iff]
  rintro (hrefused | ⟨sum, hsum, hmade⟩)
  · rw [widened] at hrefused
    split at hrefused <;> simp at hrefused
  · rw [(hmake sum).1 hmade, widened] at hsum
    split at hsum <;> simp at hsum
    exact hwidth hsum.1

theorem extract_ne_emptyWidth (high low : Nat) : a.extract high low ≠ .error .emptyWidth := by
  rw [extract]
  split
  · simp
  · split <;> simp

theorem replicate_ne_emptyWidth (count : Nat) : a.replicate count ≠ .error .emptyWidth := by
  rw [replicate]
  split
  · simp
  · next hcount =>
    split
    · rw [Ne, ofNat_eq_emptyWidth_iff]
      exact Nat.mul_ne_zero a.width_pos.ne' hcount
    · simp

theorem signResize_eq_emptyWidth_iff : a.signResize width = .error .emptyWidth ↔ width = 0 := by
  rw [signResize]
  split
  · exact ofNat_eq_emptyWidth_iff
  · exact ofInt_eq_emptyWidth_iff

/-- Of the operations on one word only a change to width zero makes a word without bits. -/
theorem Unary.apply_eq_emptyWidth_iff (op : Unary) (a : Word) :
    op.apply a = .error .emptyWidth ↔ ∃ signed, op = .resize 0 signed := by
  cases op with
  | neg | not => exact iff_of_false nofun nofun
  | shiftLeft distance | rotateLeft distance | rotateRight distance =>
      exact iff_of_false bind_amount_ne_emptyWidth nofun
  | shiftRight distance signed => exact iff_of_false bind_amount_ne_emptyWidth nofun
  | extract high low => exact iff_of_false (extract_ne_emptyWidth high low) nofun
  | extend extra signed =>
      refine iff_of_false ?_ nofun
      cases signed with
      | false => exact bind_widened_ne_emptyWidth a.width_pos.ne' fun _ => ofNat_eq_emptyWidth_iff
      | true => exact bind_widened_ne_emptyWidth a.width_pos.ne' fun _ => ofInt_eq_emptyWidth_iff
  | resize width signed =>
      have hnamed : (∃ s, Unary.resize width signed = .resize 0 s) ↔ width = 0 := by simp
      rw [hnamed]
      cases signed with
      | false => exact ofNat_eq_emptyWidth_iff
      | true => exact signResize_eq_emptyWidth_iff
  | replicate count => exact iff_of_false (replicate_ne_emptyWidth count) nofun

end Word

namespace WordCommand

variable {output : WordOutput} {value lhs rhs : String}

/-! ### Commands on words -/

theorem unary_eq_emptyWidth_iff (hwidth : output.width ≠ 0) (op : Word.Unary) :
    unary output value op.apply = .error .emptyWidth ↔
      ∃ a signed, Word.parseOperand value output.width = .ok a ∧ op = .resize 0 signed := by
  have hrender {made : Except Fault Word} :
      (do return output.render? (← made)) = .error Fault.emptyWidth ↔
        made = .error .emptyWidth := by
    cases made <;> simp [bind, Except.bind, pure, Except.pure]
  rw [unary, bind_eq_error_iff, or_iff_right (Word.parseOperand_ne_emptyWidth hwidth)]
  simp only [hrender, op.apply_eq_emptyWidth_iff, exists_and_left]

theorem unary_ne_emptyWidth (hwidth : output.width ≠ 0) (op : Word.Unary)
    (hop : ∀ signed, op ≠ .resize 0 signed) :
    unary output value op.apply ≠ .error .emptyWidth := by
  rw [Ne, unary_eq_emptyWidth_iff hwidth]
  rintro ⟨a, signed, -, hresize⟩
  exact hop signed hresize

theorem binary_ne_emptyWidth (hwidth : output.width ≠ 0)
    {operation : Word → Word → Except Fault Word} {divides : Bool}
    (hguarded : ∀ a b, Word.Guarded a b divides (operation a b)) :
    binary output lhs rhs operation ≠ .error .emptyWidth := by
  simp only [binary, Ne, bind_eq_error_iff, Word.parseOperand_ne_emptyWidth hwidth, false_or]
  rintro ⟨a, -, b, -, hrefused | ⟨c, -, hprinted⟩⟩
  · exact (hguarded a b).ne_emptyWidth hrefused
  · cases hprinted

theorem run_compare_ne_emptyWidth (hwidth : output.width ≠ 0) :
    (compare lhs rhs).run output ≠ .error .emptyWidth := by
  simp only [run, Ne, bind_eq_error_iff, Word.parseOperand_ne_emptyWidth hwidth, false_or]
  rintro ⟨a, -, b, -, hrefused | ⟨ordering, -, hprinted⟩⟩
  · exact (Word.guarded_order a b output.signed).ne_emptyWidth hrefused
  · cases hprinted

theorem run_format_ne_emptyWidth (hwidth : output.width ≠ 0) {spec : String} :
    (format value spec).run output ≠ .error .emptyWidth := by
  simp only [run, Ne, bind_eq_error_iff, Word.parseOperand_ne_emptyWidth hwidth, false_or]
  rintro ⟨a, -, hrefused⟩
  simp only [Word.format, Word.Style.parse] at hrefused
  split at hrefused <;> simp [Except.map] at hrefused

/-- The one command that fails for want of a width is the one that asks for width zero. -/
theorem run_eq_emptyWidth_iff (hwidth : output.width ≠ 0) (command : WordCommand) :
    command.run output = .error .emptyWidth ↔
      ∃ value a, command = .resize value 0 ∧ Word.parseOperand value output.width = .ok a := by
  have hunary {value : String} (op : Word.Unary) (hop : ∀ signed, op ≠ .resize 0 signed) :
      unary output value op.apply ≠ .error .emptyWidth := unary_ne_emptyWidth hwidth op hop
  have hbinary {lhs rhs : String} (op : Word.Binary) :
      binary output lhs rhs op.apply ≠ .error .emptyWidth := binary_ne_emptyWidth hwidth op.guarded
  have hdivision {lhs rhs : String} (op : Word.Division) :
      binary output lhs rhs op.apply ≠ .error .emptyWidth := binary_ne_emptyWidth hwidth op.guarded
  cases command with
  | add lhs rhs => exact iff_of_false (hbinary .add) nofun
  | sub lhs rhs => exact iff_of_false (hbinary .sub) nofun
  | mul lhs rhs => exact iff_of_false (hbinary .mul) nofun
  | and lhs rhs => exact iff_of_false (hbinary .and) nofun
  | or lhs rhs => exact iff_of_false (hbinary .or) nofun
  | xor lhs rhs => exact iff_of_false (hbinary .xor) nofun
  | udiv lhs rhs => exact iff_of_false (hdivision .udiv) nofun
  | urem lhs rhs => exact iff_of_false (hdivision .urem) nofun
  | sdiv lhs rhs => exact iff_of_false (hdivision .sdiv) nofun
  | srem lhs rhs => exact iff_of_false (hdivision .srem) nofun
  | smod lhs rhs => exact iff_of_false (hdivision .smod) nofun
  | not value => exact iff_of_false (hunary .not nofun) nofun
  | shiftLeft value distance => exact iff_of_false (hunary (.shiftLeft distance) nofun) nofun
  | shiftRight value distance =>
      exact iff_of_false (hunary (.shiftRight distance output.signed) nofun) nofun
  | rotateLeft value distance => exact iff_of_false (hunary (.rotateLeft distance) nofun) nofun
  | rotateRight value distance => exact iff_of_false (hunary (.rotateRight distance) nofun) nofun
  | extract value high low => exact iff_of_false (hunary (.extract high low) nofun) nofun
  | extend value extra => exact iff_of_false (hunary (.extend extra false) nofun) nofun
  | signExtend value extra => exact iff_of_false (hunary (.extend extra true) nofun) nofun
  | compare lhs rhs => exact iff_of_false (run_compare_ne_emptyWidth hwidth) nofun
  | format value spec => exact iff_of_false (run_format_ne_emptyWidth hwidth) nofun
  | resize value width =>
      rw [run_resize, unary_eq_emptyWidth_iff hwidth]
      constructor
      · rintro ⟨a, signed, hread, hresize⟩
        cases hresize
        exact ⟨value, a, rfl, hread⟩
      · rintro ⟨_, a, hcommand, hread⟩
        cases hcommand
        exact ⟨a, output.signed, hread, rfl⟩

end WordCommand

/-! ### Commands under settings -/

theorem FaultKind.name_mem (kind : FaultKind) :
    kind.name ∈ ["argument", "division", "overflow", "format", "invalid-operation"] := by
  cases kind <;> decide

namespace Command

variable {settings : Settings}

theorem run_rational (h : settings.Understood) (command : RationalCommand) :
    ∃ output, (rational command).run settings = .ok (command.run output) := by
  obtain ⟨style, hstyle⟩ := h.rationalStyle
  obtain ⟨rule, hrule⟩ := h.tieRule
  refine ⟨⟨style, settings.decimalScale, rule⟩, ?_⟩
  rw [run, Settings.rationalStyle, hstyle, Settings.tieRule, hrule]
  rfl

theorem run_word (h : settings.Understood) (command : WordCommand) :
    ∃ output : WordOutput, output.width = settings.width ∧
      (word command).run settings = .ok (command.run output) := by
  obtain ⟨style, hstyle⟩ := h.wordStyle
  refine ⟨⟨settings.width, settings.signed, style⟩, rfl, ?_⟩
  rw [run, Settings.wordStyle, hstyle]
  rfl

/-- No text that passed the check is refused later. -/
theorem exists_run (h : settings.Understood) (command : Command) :
    ∃ result, command.run settings = .ok result := by
  cases command with
  | rational command =>
      obtain ⟨output, hrun⟩ := run_rational h command
      exact ⟨_, hrun⟩
  | word command =>
      obtain ⟨output, -, hrun⟩ := run_word h command
      exact ⟨_, hrun⟩

/-- The result of a command is to be printed in more digits than zeros can be filled up to. -/
def Unprintable (settings : Settings) : Command → Prop
  | rational command => ∃ style, settings.rationalStyle = .ok style ∧
      ∃ tieRule, settings.tieRule = .ok tieRule ∧
        command.Unprintable ⟨style, settings.decimalScale, tieRule⟩
  | word command => ∃ style, settings.wordStyle = .ok style ∧
      command.Unprintable ⟨settings.width, settings.signed, style⟩

theorem eq_none_iff_of_run {command : Command} {result : Except Fault (Option String)}
    (h : command.run settings = .ok result) :
    result = .ok none ↔ (∃ text?, result = .ok text?) ∧ command.Unprintable settings := by
  cases command with
  | rational command =>
      obtain ⟨style, hstyle, h⟩ := bind_eq_ok_iff.1 h
      obtain ⟨tieRule, htieRule, h⟩ := bind_eq_ok_iff.1 h
      obtain rfl := Except.ok.inj h
      have hnone := command.run_eq_none_iff ⟨style, settings.decimalScale, tieRule⟩
      simp only [Unprintable, hstyle, htieRule, Except.ok.injEq, exists_eq_left', ← hnone]
      exact ⟨fun hrun => ⟨⟨_, hrun⟩, hrun⟩, And.right⟩
  | word command =>
      obtain ⟨style, hstyle, h⟩ := bind_eq_ok_iff.1 h
      obtain rfl := Except.ok.inj h
      simp only [Unprintable, hstyle, Except.ok.injEq, exists_eq_left']
      exact command.run_eq_none_iff ⟨settings.width, settings.signed, style⟩

theorem evaluate_of_run {command : Command} {text : String}
    (h : command.run settings = .ok (.ok (some text))) :
    command.evaluate settings = .ok (some (⟨0, some text, none, none⟩, [])) := by
  rw [evaluate, h]
  rfl

theorem evaluate_of_run_none {command : Command} (h : command.run settings = .ok (.ok none)) :
    command.evaluate settings = .ok none := by
  rw [evaluate, h]
  rfl

theorem evaluate_of_run_error {command : Command} {fault : Fault}
    (h : command.run settings = .ok (.error fault)) :
    command.evaluate settings =
      .ok (some (⟨1, none, some fault.message, some fault.kind.name⟩, [.report fault])) := by
  rw [evaluate, h]
  rfl

end Command

/-- Under settings in force every command with a result that can be printed is reported on: a text
and exit code zero, or a fault with its message and kind and exit code one. With a result that
cannot be printed there is neither a report nor an exit code. No command on words fails for want
of a width but the one that asks for width zero. -/
theorem evaluate_inForce_iff (invocation : Invocation) (file? : Option (String × Option String))
    (settings : Settings)
    (h : Settings.inForce invocation.given.overrides (Settings.load file?).2 = .ok settings) :
    ∃ result, invocation.command.run settings = .ok result ∧
      (result = .ok none ↔
        (∃ text?, result = .ok text?) ∧ invocation.command.Unprintable settings) ∧
      (result = .ok none → invocation.command.evaluate settings = .ok none ∧
        (invocation.run file?).exitCode? = none) ∧
      (result ≠ .ok none → ∃ report notices,
        invocation.command.evaluate settings = .ok (some (report, notices)) ∧
        (invocation.run file?).exitCode? = some report.exitCode ∧
        ((∃ output, result = .ok (some output) ∧ report = ⟨0, some output, none, none⟩) ∨
          ∃ fault, result = .error fault ∧
            report = ⟨1, none, some fault.message, some fault.kind.name⟩ ∧
            fault.kind.name ∈
              ["argument", "division", "overflow", "format", "invalid-operation"])) ∧
      ∀ command, invocation.command = .word command →
        (result = .error .emptyWidth ↔ ∃ value a,
          command = .resize value 0 ∧ Word.parseOperand value settings.width = .ok a) := by
  obtain ⟨loaded, -, -, hunderstood⟩ := Settings.inForce_eq_ok_iff.1 h
  obtain ⟨result, hrun⟩ := Command.exists_run hunderstood invocation.command
  refine ⟨result, hrun, Command.eq_none_iff_of_run hrun, ?_, fun hresult => ?_,
    fun command hcommand => ?_⟩
  · rintro rfl
    have hevaluate := Command.evaluate_of_run_none hrun
    exact ⟨hevaluate, by simp only [Invocation.run, h, hevaluate]⟩
  · obtain fault | _ | output := result
    · have hevaluate := Command.evaluate_of_run_error hrun
      exact ⟨_, _, hevaluate, by simp only [Invocation.run, h, hevaluate],
        .inr ⟨fault, rfl, rfl, fault.kind.name_mem⟩⟩
    · exact absurd rfl hresult
    · have hevaluate := Command.evaluate_of_run hrun
      exact ⟨_, _, hevaluate, by simp only [Invocation.run, h, hevaluate], .inl ⟨output, rfl, rfl⟩⟩
  · obtain ⟨output, hwidth, hword⟩ := Command.run_word hunderstood command
    rw [hcommand, hword] at hrun
    obtain rfl := Except.ok.inj hrun
    rw [← hwidth]
    exact WordCommand.run_eq_emptyWidth_iff (hwidth ▸ hunderstood.width) command

/-- A change to width zero at width eight, with no settings file: the report says what is wrong. -/
theorem evaluate_inForce_iff_of_no_width :
    Settings.inForce { width := some 8 } (Settings.load none).2 = .ok { width := 8 } ∧
      ∃ result report notices,
        (Command.word (.resize "5" 0)).run { width := 8 } = .ok result ∧
        (Command.word (.resize "5" 0)).evaluate { width := 8 } = .ok (some (report, notices)) ∧
        result = .error .emptyWidth ∧
        report = ⟨1, none, some Fault.emptyWidth.message, some "argument"⟩ := by
  have h : Settings.inForce { width := some 8 } (Settings.load none).2 = .ok { width := 8 } := rfl
  obtain ⟨result, hrun, -, -, hreported, hempty⟩ :=
    evaluate_inForce_iff ⟨{ overrides := { width := some 8 } }, .word (.resize "5" 0)⟩ none _ h
  obtain rfl : result = .error .emptyWidth := (hempty _ rfl).2 ⟨"5", _, rfl, rfl⟩
  obtain ⟨report, notices, hevaluate, -, ⟨output, houtput, -⟩ | ⟨fault, hfault, rfl, -⟩⟩ :=
    hreported nofun
  · exact nomatch houtput
  · cases hfault
    exact ⟨h, _, _, notices, hrun, hevaluate, rfl, rfl⟩

/-- The sum of two ones in 65536 binary digits, with no settings file: there is a sum and no
report on it. -/
theorem evaluate_inForce_fails_for_many_bits :
    let overrides : Overrides := { width := some 65536, wordSpec := some "B" }
    let settings : Settings := { width := 65536, wordSpec := "B" }
    let invocation : Invocation := ⟨{ overrides }, .word (.add "1" "1")⟩
    Settings.inForce overrides (Settings.load none).2 = .ok settings ∧
      invocation.command.evaluate settings = .ok none ∧
      (invocation.run none).exitCode? = none ∧
      ¬∃ report notices,
        invocation.command.evaluate settings = .ok (some (report, notices)) := by
  intro overrides settings invocation
  have h : Settings.inForce { width := some 65536, wordSpec := some "B" } (Settings.load none).2 =
      .ok { width := 65536, wordSpec := "B" } := rfl
  have hevaluate : (Command.word (.add "1" "1")).evaluate { width := 65536, wordSpec := "B" } =
      .ok none := rfl
  refine ⟨h, hevaluate, ?_, ?_⟩
  · simp only [invocation, overrides, Invocation.run, h, hevaluate]
  rintro ⟨report, notices, hreport⟩
  exact nomatch hevaluate.symm.trans hreport

end ExactCalc
