import ParseReport.CommandLine.Run
import ParseReport.Proofs.Arguments
import ParseReport.Proofs.ColoredReports
import ParseReport.Proofs.Detached

/-!
# What a run of the command line leaves behind

A run on a text that fits always ends, in one of four ways: its arguments are not in order, the
file cannot be read, the check accepts the text, or the check reports a failure. Only the last
depends on the settings, and even then the exit code does not.
-/

namespace ParseReport

namespace Check
variable {t : Text} {config : Config}

/-- A check of the text fails with the failure. -/
def Reports (config : Config) (t : Text) (failure : Failure) : Prop :=
  ∃ outcome, check t config = .ok outcome ∧ outcome.result = .error (.reported failure)

/-- Nothing but a failure comes of a text that is not accepted. -/
theorem exists_failure_of_verdict {error : Error} (h : verdict t config = .error error) :
    ∃ failure, error = .reported failure := by
  rw [verdict] at h
  split at h
  · cases h
    exact ⟨_, rfl⟩
  · split at h
    · cases h
      exact ⟨_, rfl⟩
    · split at h <;> cases h
      exact ⟨_, rfl⟩

theorem exists_reports (hfits : t.size + 2 ≤ maxOffset) (hlimit : config.limit ≠ 0)
    (h : summary? t = none) : ∃ failure, Reports config t failure := by
  obtain ⟨p, hp, -, hresult⟩ := check_eq_outcome hfits config hlimit
  cases hverdict : verdict t config with
  | ok summary =>
      have hsummary := toOption_verdict t config hlimit
      rw [hverdict, h] at hsummary
      cases hsummary
  | error error =>
      obtain ⟨failure, rfl⟩ := exists_failure_of_verdict hverdict
      exact ⟨failure, _, hp, hresult.trans hverdict⟩

theorem verdict_of_reports (hfits : t.size + 2 ≤ maxOffset) {failure : Failure}
    (h : Reports config t failure) :
    config.limit ≠ 0 ∧ verdict t config = .error (.reported failure) := by
  obtain ⟨outcome, hcheck, hresult⟩ := h
  exact ⟨limit_ne_zero_of_check hfits hcheck,
    (result_eq_verdict hfits hcheck).symm.trans hresult⟩

theorem diagnostics_ne_nil_of_verdict {failure : Failure} (hlimit : config.limit ≠ 0)
    (h : verdict t config = .error (.reported failure)) : failure.diagnostics ≠ [] := by
  rcases diagnostics_of_verdict hlimit h with ⟨hdiagnostics, hsome⟩ | ⟨quote, hdiagnostics⟩
  · have hzero : config.limit.toNat ≠ 0 := fun hzero => hlimit (UInt64.toNat_inj.mp hzero)
    rw [hdiagnostics]
    simp [hzero, hsome]
  · rw [hdiagnostics]
    exact List.cons_ne_nil _ _

/-- What a check reports can be shown, with colours or without. -/
theorem exists_emit_of_reports (hfits : t.size + 2 ≤ maxOffset) {failure : Failure}
    (h : Reports config t failure) :
    (∃ report, failure.render = .ok report ∧
      failure.emit false = .ok (report ++ ['\n', '\n'] ++ failure.summary ++ ['\n'])) ∧
      ∃ out, failure.emit true = .ok out := by
  obtain ⟨hlimit, hverdict⟩ := verdict_of_reports hfits h
  have hentry : ∀ d ∈ failure.diagnostics, ∃ e, d.entry = .ok e :=
    fun d hd => (fits_of_verdict hfits hlimit hverdict d hd).exists_entry
  obtain ⟨entries, hentries⟩ := exists_mapM_eq_ok hentry
  have hsome : entries ≠ [] := by
    rintro rfl
    apply diagnostics_ne_nil_of_verdict hlimit hverdict
    exact List.map_eq_nil_iff.mp (Diagnostic.mapM_entry_eq_ok_iff.mp hentries)
  refine ⟨⟨Display.renderReport failure.filename entries, ?_, ?_⟩, ?_⟩
  · rw [Failure.render, Diagnostic.renderAll, hentries]
    rfl
  · rw [failure.emit_eq, hentries, failure.emitSummary_false, Except.map,
      Display.emitAll_false hsome, List.append_assoc _ failure.summary]
  · rw [failure.emit_eq, hentries]
    exact ⟨_, rfl⟩

end Check

namespace CommandLine
open Check

/-- The arguments are in order and name a file that is read as `text`. -/
structure Names (arguments : List Text) (read : Text → Except ReadError Text) (options : Options)
    (text : Text) : Prop where
  parse : Options.parse arguments = .ok options
  read : read options.path = .ok text

variable {arguments : List Text} {isTerminal : Bool} {read : Text → Except ReadError Text}
  {options : Options} {text : Text}

section Ends

theorem run_of_refused {error : OptionsError} (h : Options.parse arguments = .error error) :
    run arguments isTerminal read = .ok (refuse error) := by
  rw [run, h]

theorem run_of_unreadable {reason : ReadError} (hparse : Options.parse arguments = .ok options)
    (hread : read options.path = .error reason) :
    run arguments isTerminal read = .ok ⟨1, [], errorLine
      ("cannot read ".toList ++ options.path ++ ": ".toList ++ reason.message)⟩ := by
  rw [run, hparse]
  simp only [hread]
  rfl

theorem run_of_names (h : Names arguments read options text) {outcome : Check.Outcome}
    (hcheck : check text options.config = .ok outcome) :
    run arguments isTerminal read =
      match outcome.result with
      | .ok summary => .ok (accept options summary)
      | .error error => (explain options isTerminal error).mapError .fault := by
  rw [run, h.parse]
  simp only [h.read, conclude, hcheck]
  cases hresult : outcome.result <;> simp [bind, Except.bind, hresult, pure, Except.pure]

theorem run_of_accepts (h : Names arguments read options text) {summary : Summary}
    (haccepts : Accepts options.config text summary) :
    run arguments isTerminal read = .ok (accept options summary) := by
  obtain ⟨outcome, hcheck, hresult⟩ := haccepts
  rw [run_of_names h hcheck, hresult]

theorem run_of_reports (h : Names arguments read options text) {failure : Failure}
    (hreports : Reports options.config text failure) {out : Text}
    (hemit : failure.emit (options.color.resolve isTerminal) = .ok out) :
    run arguments isTerminal read = .ok ⟨1, [], out⟩ := by
  obtain ⟨outcome, hcheck, hresult⟩ := hreports
  rw [run_of_names h hcheck, hresult]
  simp only [explain, hemit]
  rfl

end Ends

section Codes

/-- The exit code for what reading the named file came to. No setting has a part in it. -/
def codeOf (source : Except ReadError Text) : Nat :=
  match source with
  | .ok text => if (summary? text).isSome then 0 else 1
  | .error _ => 1

theorem codeOf_eq_zero_or_one (source : Except ReadError Text) :
    codeOf source = 0 ∨ codeOf source = 1 := by
  cases source with
  | error reason => exact .inr rfl
  | ok text => cases hsummary : summary? text <;> simp [codeOf, hsummary]

theorem exists_of_codeOf_eq_zero {source : Except ReadError Text} (h : codeOf source = 0) :
    ∃ text summary, source = .ok text ∧ summary? text = some summary := by
  cases source with
  | error reason => cases h
  | ok text =>
      cases hsummary : summary? text with
      | none => simp [codeOf, hsummary] at h
      | some summary => exact ⟨text, summary, rfl, hsummary⟩

variable (isTerminal) in
/-- With arguments in order a run comes to its end. -/
theorem exists_run (hparse : Options.parse arguments = .ok options)
    (hfits : ∀ text, read options.path = .ok text → text.size + 2 ≤ maxOffset) :
    ∃ outcome, run arguments isTerminal read = .ok outcome ∧
      outcome.code = codeOf (read options.path) ∧ (outcome.stdout = [] ↔ outcome.code ≠ 0) := by
  have hlimit : options.config.limit ≠ 0 := Options.limit_ne_zero_of_parse hparse
  cases hread : read options.path with
  | error reason =>
      exact ⟨_, run_of_unreadable hparse hread, rfl, iff_of_true rfl Nat.one_ne_zero⟩
  | ok text =>
      have hnames : Names arguments read options text := ⟨hparse, hread⟩
      have hsize := hfits text hread
      cases hsummary : summary? text with
      | some summary =>
          have haccepts := (accepts_iff hsize).mpr ⟨hlimit, hsummary⟩
          refine ⟨_, run_of_accepts hnames haccepts, ?_, iff_of_false ?_ (fun h => h rfl)⟩
          · simp [codeOf, hsummary, accept]
          · simp [accept]
      | none =>
          obtain ⟨failure, hreports⟩ := exists_reports hsize hlimit hsummary
          obtain ⟨⟨report, -, hplain⟩, painted, hcolored⟩ := exists_emit_of_reports hsize hreports
          have hemit : ∃ out, failure.emit (options.color.resolve isTerminal) = .ok out := by
            cases options.color.resolve isTerminal with
            | false => exact ⟨_, hplain⟩
            | true => exact ⟨_, hcolored⟩
          obtain ⟨out, hout⟩ := hemit
          refine ⟨_, run_of_reports hnames hreports hout, ?_, iff_of_true rfl Nat.one_ne_zero⟩
          simp [codeOf, hsummary]

end Codes

theorem resolve_false_eq_true_iff (h : Options.parse arguments = .ok options) :
    options.color.resolve false = true ↔
      (Options.settings "--color=".toList arguments).getLast? = some "always".toList := by
  rw [← Options.color_eq_always_iff_of_parse h]
  cases options.color <;> simp [ColorMode.resolve]

section Contracts
variable {outcome : Outcome}

/-- What a run owes to its caller where the standard error is no terminal. -/
structure Contract (arguments : List Text) (read : Text → Except ReadError Text)
    (outcome : Outcome) : Prop where
  code_eq_two_iff : outcome.code = 2 ↔ ∃ error, Options.parse arguments = .error error
  code_eq_zero_iff : outcome.code = 0 ↔ ∃ options text summary,
    Names arguments read options text ∧ Accepts options.config text summary
  code_eq_one : outcome.code ≠ 2 → outcome.code ≠ 0 → outcome.code = 1
  stdout_eq_nil_iff : outcome.stdout = [] ↔ outcome.code ≠ 0
  /-- A text that is accepted is named with its pairs and its lines, and nothing else is said. -/
  accepted : ∀ options text summary, Names arguments read options text →
    Accepts options.config text summary →
      outcome.stderr = [] ∧
      outcome.stdout = options.path ++ ": ok (".toList ++ Text.decimal summary.pairs ++
        " delimiter pairs, ".toList ++ Text.decimal summary.lines ++ " lines)\n".toList ∧
      2 * summary.pairs = (delimiters text).length ∧
      summary.lines = text.count '\n' + if text ≠ [] ∧ text.getLast? ≠ some '\n' then 1 else 0
  /-- A failure is shown without colours, unless the last option about them asks for them. -/
  reported : ∀ options text failure, Names arguments read options text →
    Reports options.config text failure →
      ∃ report, failure.render = .ok report ∧
        if (Options.settings "--color=".toList arguments).getLast? = some "always".toList then
          failure.emit true = .ok outcome.stderr
        else
          outcome.stderr = report ++ ['\n', '\n'] ++ failure.summary ++ ['\n']

theorem contract_refuse {error : OptionsError} (h : Options.parse arguments = .error error) :
    Contract arguments read (refuse error) := by
  have hnever : ∀ options text, ¬Names arguments read options text := by
    intro options text hnames
    cases h.symm.trans hnames.parse
  constructor
  · exact iff_of_true rfl ⟨error, h⟩
  · refine iff_of_false (Nat.succ_ne_zero 1) ?_
    rintro ⟨options, text, summary, hnames, -⟩
    exact hnever options text hnames
  · exact fun htwo => absurd rfl htwo
  · exact iff_of_true rfl (Nat.succ_ne_zero 1)
  · exact fun options text summary hnames => absurd hnames (hnever options text)
  · exact fun options text failure hnames => absurd hnames (hnever options text)

theorem contract_of_run
    (hfits : ∀ options text, Names arguments read options text → text.size + 2 ≤ maxOffset)
    (hparse : Options.parse arguments = .ok options)
    (hrun : run arguments false read = .ok outcome) : Contract arguments read outcome := by
  obtain ⟨outcome', hrun', hcode, hstdout⟩ :=
    exists_run false hparse fun text hread => hfits options text ⟨hparse, hread⟩
  obtain rfl : outcome' = outcome := Except.ok.inj (hrun'.symm.trans hrun)
  have hbinary := codeOf_eq_zero_or_one (read options.path)
  rw [← hcode] at hbinary
  constructor
  · refine iff_of_false (by omega) ?_
    rintro ⟨error, herror⟩
    cases herror.symm.trans hparse
  · constructor
    · intro hzero
      obtain ⟨text, summary, hread, hsummary⟩ := exists_of_codeOf_eq_zero (hcode.symm.trans hzero)
      have hnames : Names arguments read options text := ⟨hparse, hread⟩
      have hlimit : options.config.limit ≠ 0 := Options.limit_ne_zero_of_parse hparse
      exact ⟨options, text, summary, hnames,
        (accepts_iff (hfits options text hnames)).mpr ⟨hlimit, hsummary⟩⟩
    · rintro ⟨options', text, summary, hnames, haccepts⟩
      obtain rfl := Except.ok.inj (hrun.symm.trans (run_of_accepts hnames haccepts))
      rfl
  · omega
  · exact hstdout
  · intro options' text summary hnames haccepts
    obtain rfl := Except.ok.inj (hrun.symm.trans (run_of_accepts hnames haccepts))
    obtain ⟨-, hsummary⟩ := (accepts_iff (hfits options' text hnames)).mp haccepts
    obtain ⟨hwell, rfl⟩ := eq_of_mem_summary? hsummary
    refine ⟨rfl, rfl, hwell.two_mul_pairs, ?_⟩
    rw [Text.lineCount, Text.foldl_countLine]
  · intro options' text failure hnames hreports
    obtain ⟨⟨report, hrender, hplain⟩, out, hcolored⟩ :=
      exists_emit_of_reports (hfits options' text hnames) hreports
    refine ⟨report, hrender, ?_⟩
    have halways := resolve_false_eq_true_iff hnames.parse
    cases hcolor : options'.color.resolve false with
    | false =>
        rw [hcolor] at halways
        rw [if_neg fun h => Bool.false_ne_true (halways.mpr h)]
        rw [← hcolor] at hplain
        obtain rfl := Except.ok.inj (hrun.symm.trans (run_of_reports hnames hreports hplain))
        rfl
    | true =>
        rw [if_pos (halways.mp hcolor)]
        have hemit := hcolored
        rw [← hcolor] at hemit
        obtain rfl := Except.ok.inj (hrun.symm.trans (run_of_reports hnames hreports hemit))
        exact hcolored

end Contracts

/-- Where the named file, if it can be read, has a text that fits, every run comes to its end and
keeps the contract. Arguments that name the same file have the same exit code, whatever they set,
as long as they are in order. The arguments are texts, so they are taken to be Unicode, and what a
run leaves behind is taken to be written without an error. -/
theorem run_keeps_contract (arguments : List Text) (read : Text → Except ReadError Text)
    (hfits : ∀ options text, Names arguments read options text → text.size + 2 ≤ maxOffset) :
    ∃ outcome, run arguments false read = .ok outcome ∧ Contract arguments read outcome ∧
      ∀ arguments' options options', Options.parse arguments = .ok options →
        Options.parse arguments' = .ok options' →
          Options.positional arguments' = Options.positional arguments →
            ∃ outcome', run arguments' false read = .ok outcome' ∧
              outcome'.code = outcome.code := by
  cases hparse : Options.parse arguments with
  | error error => exact ⟨refuse error, run_of_refused hparse, contract_refuse hparse, nofun⟩
  | ok options =>
      have hread : ∀ text, read options.path = .ok text → text.size + 2 ≤ maxOffset :=
        fun text hread => hfits options text ⟨hparse, hread⟩
      obtain ⟨outcome, hrun, hcode, -⟩ := exists_run false hparse hread
      refine ⟨outcome, hrun, contract_of_run hfits hparse hrun, ?_⟩
      rintro arguments' _ options' ⟨⟩ hparse' hpositional
      rw [Options.positional_of_parse hparse, Options.positional_of_parse hparse',
        List.singleton_inj] at hpositional
      rw [← hpositional] at hread hcode
      obtain ⟨outcome', hrun', hcode', -⟩ := exists_run false hparse' hread
      exact ⟨outcome', hrun', hcode'.trans hcode.symm⟩

/-- The closer does not fit, so the exit code is 1 with any settings; of the two colour modes the
last one counts. -/
theorem run_reports_mismatch :
    let read : Text → Except ReadError Text := fun path =>
      if path = ['f'] then .ok "(]\n".toList else .error .notFound
    let arguments : List Text :=
      ["--color=always".toList, ['f'], "--limit=1".toList, "--color=never".toList]
    (∀ options text, Names arguments read options text → text.size + 2 ≤ maxOffset) ∧
      ∃ outcome outcome', run arguments false read = .ok outcome ∧
        Contract arguments read outcome ∧ outcome.code = 1 ∧ outcome.stdout = [] ∧
        run [['f'], "--limit=7".toList] false read = .ok outcome' ∧ outcome'.code = 1 := by
  intro read arguments
  have hparse : Options.parse arguments = .ok ⟨['f'], 1, .never⟩ := by decide +kernel
  have hparse' : Options.parse [['f'], "--limit=7".toList] = .ok ⟨['f'], 7, .auto⟩ := by
    decide +kernel
  have hpositional : Options.positional [['f'], "--limit=7".toList] =
      Options.positional arguments := by
    decide +kernel
  have hfits : ∀ options text, Names arguments read options text → text.size + 2 ≤ maxOffset := by
    rintro options text ⟨hparsed, hread⟩
    obtain rfl := Except.ok.inj (hparse.symm.trans hparsed)
    obtain rfl : "(]\n".toList = text := Except.ok.inj hread
    decide
  obtain ⟨outcome, hrun, hcontract, hsame⟩ := run_keeps_contract arguments read hfits
  obtain ⟨outcome', hrun', hcode'⟩ := hsame _ _ _ hparse hparse' hpositional
  have hcode : (run arguments false read).toOption.map Outcome.code = some 1 := by decide +kernel
  rw [hrun] at hcode
  have hone : outcome.code = 1 := Option.some.inj hcode
  have hstdout : outcome.stdout = [] := hcontract.stdout_eq_nil_iff.mpr (by omega)
  exact ⟨hfits, outcome, outcome', hrun, hcontract, hone, hstdout, hrun', hcode'.trans hone⟩

end CommandLine

end ParseReport
