import WorkflowAudit.CommandLine.Response
import WorkflowAudit.Proofs.Outcome
import WorkflowAudit.Proofs.Scan.FirstSteps

/-!
# The mode of a process

The mode of a run can be taken from the environment in two ways.  A library call trims the
variable and falls back where it holds no mode.  A process checks the variable like the value
of the option that it stands for, without trimming, and a value that is refused ends the
process.  So the two agree wherever the process runs at all, and it runs if and only if the
variable is not set or holds the name of a mode in any case.
-/

namespace WorkflowAudit

open Text

/-! ## Environments without a variable -/

def Environment.without (env : Environment) (name : String) : Environment :=
  ⟨env.bindings.filter fun binding => binding.1 != name⟩

theorem Environment.get?_without_self (env : Environment) (name : String) :
    (env.without name).get? name = none := by
  rw [get?, List.lookup_eq_none_iff]
  intro binding hbinding
  have hkept := List.of_mem_filter hbinding
  exact bne_iff_ne.2 (bne_iff_ne.1 hkept).symm

theorem Environment.get?_without_of_ne (env : Environment) {name other : String}
    (hother : other ≠ name) : (env.without name).get? other = env.get? other := by
  unfold get? without
  dsimp only
  induction env.bindings with
  | nil => rfl
  | cons binding rest ih =>
      obtain ⟨key, value⟩ := binding
      by_cases hkey : key = name
      · have hskip : (other == key) = false := beq_eq_false_iff_ne.2 (hkey ▸ hother)
        rw [List.filter_cons_of_neg (by simpa using hkey), ih, List.lookup_cons, hskip]
      · rw [List.filter_cons_of_pos (by simpa using hkey), List.lookup_cons, List.lookup_cons, ih]

namespace CommandLine

/-! ## Two readers of a mode -/

/-- A blank is no letter, and so it has no other case. -/
theorem toLower_of_isBlank {c : Char} (hc : isBlank c = true) : c.toLower = c := by
  refine (toLower_eq_iff ?_).2 rfl
  rw [Bool.eq_false_iff]
  intro hletter
  rw [isBlank_of_isAsciiLetter hletter] at hc
  cases hc

theorem parse?_eq_modeNamed? {text : String} (htext : trimString text = text) :
    ExecutionMode.parse? text = modeNamed? text := by
  have hname : ∀ mode : ExecutionMode,
      (mode.name == lowerAsciiString text) = equalIgnoringCase mode.name text := by
    intro mode
    have hlower : lowerAscii mode.name.toList = mode.name.toList := by cases mode <;> decide
    rw [equalIgnoringCase, hlower, Bool.eq_iff_iff, beq_iff_eq, beq_iff_eq, ← String.toList_inj,
      lowerAsciiString, String.toList_ofList]
  simp only [ExecutionMode.parse?, ExecutionMode.ofName?, modeNamed?, htext, hname]

/-- The name of a mode has no blanks, in whatever case it is given. -/
theorem trimString_of_modeNamed? {text : String} {mode : ExecutionMode}
    (hnamed : modeNamed? text = some mode) : trimString text = text := by
  have hlower : lowerAscii mode.name.toList = lowerAscii text.toList := by
    simpa [equalIgnoringCase] using List.find?_some hnamed
  have hblank : (lowerAscii mode.name.toList).any isBlank = false := by
    cases mode <;> decide
  rw [trimString, trim_of_all, String.ofList_toList]
  intro c hc
  rw [Bool.eq_false_iff]
  intro hcblank
  have hmem : c ∈ lowerAscii text.toList :=
    List.mem_map.2 ⟨c, hc, toLower_of_isBlank hcblank⟩
  rw [← hlower] at hmem
  exact List.any_eq_false.1 hblank c hmem hcblank

/-- What an option accepts, the other reader reads alike, and the rest it would have to trim. -/
theorem modeNamed?_eq_some_iff {text : String} {mode : ExecutionMode} :
    modeNamed? text = some mode ↔
      ExecutionMode.parse? text = some mode ∧ trimString text = text := by
  constructor
  · intro hnamed
    have htrim := trimString_of_modeNamed? hnamed
    exact ⟨(parse?_eq_modeNamed? htrim).trans hnamed, htrim⟩
  · rintro ⟨hparse, htrim⟩
    exact (parse?_eq_modeNamed? htrim).symm.trans hparse

/-! ## Commands that give no mode -/

/-- What the mode variable gives under the rules for the option. -/
def variableMode (env : Environment) : Except Stop (Option ExecutionMode) :=
  match env.get? "PIPEGUARD_MODE" with
  | none => .ok none
  | some text =>
      match modeNamed? text with
      | some mode => .ok (some mode)
      | none => .error (.usage (.badValue "--mode" text))

def VerifyOptions.inMode (options : VerifyOptions) (mode : Option ExecutionMode) : VerifyOptions :=
  { options with mode }

namespace Command

/-- The settings of the verifier, for commands that have one. -/
def verifyOptions? : Command → Option VerifyOptions
  | .check options => some options.verify
  | .verify _ _ options => some options
  | .version => none

def inMode (command : Command) (mode : Option ExecutionMode) : Command :=
  match command with
  | .check options => .check { options with verify := options.verify.inMode mode }
  | .verify reference sha options => .verify reference sha (options.inMode mode)
  | .version => .version

end Command

section

variable {env : Environment} {parsed : Arguments} {arguments : List String}

theorem optionValue_without {α : Type} (option : String) {fallback : Option String}
    (hfallback : fallback ≠ some "PIPEGUARD_MODE") (read? : String → Option α) :
    optionValue (env.without "PIPEGUARD_MODE") parsed option fallback read? =
      optionValue env parsed option fallback read? := by
  have hbind : fallback.bind (env.without "PIPEGUARD_MODE").get? = fallback.bind env.get? := by
    cases fallback with
    | none => rfl
    | some name => exact env.get?_without_of_ne fun hname => hfallback (congrArg some hname)
  rw [optionValue, hbind, optionValue]

/-- Without the variable, a mode is given only as an option. -/
theorem lookup_mode_of_without
    (hmode : optionValue (env.without "PIPEGUARD_MODE") parsed "--mode" (some "PIPEGUARD_MODE")
      modeNamed? = .ok none) : parsed.options.lookup "--mode" = none := by
  rw [optionValue, Option.bind_some, env.get?_without_self] at hmode
  cases hlookup : parsed.options.lookup "--mode" with
  | none => rfl
  | some text =>
      rw [hlookup] at hmode
      cases hnamed : modeNamed? text with
      | none => simp [hnamed] at hmode
      | some mode => simp [hnamed] at hmode

theorem optionValue_mode (hgiven : parsed.options.lookup "--mode" = none) :
    optionValue env parsed "--mode" (some "PIPEGUARD_MODE") modeNamed? = variableMode env := by
  rw [variableMode, optionValue, hgiven]
  dsimp only [Option.bind_some]
  cases env.get? "PIPEGUARD_MODE" with
  | none => rfl
  | some text => cases hnamed : modeNamed? text <;> simp only [hnamed]

theorem verifyOptions_eq {options : VerifyOptions}
    (hoptions : verifyOptions (env.without "PIPEGUARD_MODE") parsed = .ok options)
    (hmode : options.mode = none) :
    verifyOptions env parsed = (variableMode env).map options.inMode := by
  unfold verifyOptions at hoptions ⊢
  -- The variable stands for one option; the others are read as they were.
  rw [optionValue_without "--api-url" (by decide),
    optionValue_without "--timeout" (by decide)] at hoptions
  obtain ⟨mode, hmodeValue, hoptions⟩ := bind_eq_ok_iff.1 hoptions
  obtain ⟨apiUrl, hapiUrl, hoptions⟩ := bind_eq_ok_iff.1 hoptions
  obtain ⟨timeout, htimeout, hoptions⟩ := bind_eq_ok_iff.1 hoptions
  cases hoptions
  obtain rfl : mode = none := hmode
  rw [optionValue_mode (lookup_mode_of_without hmodeValue), hapiUrl, htimeout]
  cases variableMode env <;> rfl

theorem checkOptions_eq {options : CheckOptions}
    (hoptions : checkOptions (env.without "PIPEGUARD_MODE") parsed = .ok options)
    (hmode : options.verify.mode = none) :
    checkOptions env parsed = (variableMode env).map fun mode =>
      { options with verify := options.verify.inMode mode } := by
  unfold checkOptions at hoptions ⊢
  have hnone : (none : Option String) ≠ some "PIPEGUARD_MODE" := nofun
  simp only [optionValue_without _ hnone] at hoptions
  obtain ⟨root, hroot, hoptions⟩ := bind_eq_ok_iff.1 hoptions
  obtain ⟨policy, hpolicy, hoptions⟩ := bind_eq_ok_iff.1 hoptions
  obtain ⟨exceptions, hexceptions, hoptions⟩ := bind_eq_ok_iff.1 hoptions
  obtain ⟨format, hformat, hoptions⟩ := bind_eq_ok_iff.1 hoptions
  obtain ⟨report, hreport, hoptions⟩ := bind_eq_ok_iff.1 hoptions
  obtain ⟨verify, hverify, hoptions⟩ := bind_eq_ok_iff.1 hoptions
  cases hoptions
  rw [hroot, hpolicy, hexceptions, hformat, hreport, verifyOptions_eq hverify hmode]
  cases variableMode env <;> rfl

/-- Arguments that are a command without the variable, and give it no mode, are that command in
the mode that the variable gives, and refused where it gives none. -/
theorem parse_eq {command : Command} {options : VerifyOptions}
    (hcommand : Command.parse (env.without "PIPEGUARD_MODE") arguments = .ok command)
    (hoptions : command.verifyOptions? = some options) (hmode : options.mode = none) :
    Command.parse env arguments = (variableMode env).map command.inMode := by
  unfold Command.parse at hcommand ⊢
  obtain ⟨⟨name, rest⟩, hname, hcommand⟩ := bind_eq_ok_iff.1 hcommand
  rw [hname]
  dsimp only at hcommand
  -- The version and all that is refused have no settings of a verifier.
  split at hcommand
  · obtain ⟨parsed, hparsed, hcommand⟩ := bind_eq_ok_iff.1 hcommand
    obtain ⟨found, hfound, hcommand⟩ := bind_eq_ok_iff.1 hcommand
    cases hcommand
    cases hoptions
    have hcheck := checkOptions_eq hfound hmode
    simp only [bind, Except.bind, hparsed, hcheck]
    cases variableMode env <;> rfl
  · obtain ⟨parsed, hparsed, hcommand⟩ := bind_eq_ok_iff.1 hcommand
    obtain ⟨found, hfound, hcommand⟩ := bind_eq_ok_iff.1 hcommand
    split at hcommand
    · next reference sha hoperands =>
        cases hcommand
        cases hoptions
        have hverify := verifyOptions_eq hfound hmode
        simp only [bind, Except.bind, hparsed, hverify]
        cases variableMode env with
        | error stop => rfl
        | ok mode => simp only [Except.map, hoperands]; rfl
    · cases hcommand
  · obtain ⟨parsed, -, hcommand⟩ := bind_eq_ok_iff.1 hcommand
    cases hcommand
    cases hoptions
  · split at hcommand
    · cases hcommand
    · split at hcommand <;> cases hcommand
    · cases hcommand
  · cases hcommand

theorem exists_variableMode
    (hvariable : ∀ text, env.get? "PIPEGUARD_MODE" = some text → (modeNamed? text).isSome) :
    ∃ mode, variableMode env = .ok mode := by
  rw [variableMode]
  cases htext : env.get? "PIPEGUARD_MODE" with
  | none => exact ⟨none, rfl⟩
  | some text =>
      obtain ⟨mode, hnamed⟩ := Option.isSome_iff_exists.1 (hvariable text htext)
      exact ⟨some mode, by simp only [hnamed]⟩

theorem variableMode_of_unnamed {text : String}
    (hvariable : env.get? "PIPEGUARD_MODE" = some text) (hnamed : modeNamed? text = none) :
    variableMode env = .error (.usage (.badValue "--mode" text)) := by
  simp only [variableMode, hvariable, hnamed]

/-- What the variable gives to a process, it gives to a call of the library. -/
theorem executionMode_inMode {mode : Option ExecutionMode} (options : VerifyOptions)
    (hmode : variableMode env = .ok mode) :
    (options.inMode mode).executionMode env = ExecutionMode.ofEnvironment env := by
  rw [variableMode] at hmode
  unfold VerifyOptions.executionMode VerifyOptions.inMode
  cases hvariable : env.get? "PIPEGUARD_MODE" with
  | none =>
      rw [hvariable] at hmode
      cases hmode
      rfl
  | some text =>
      rw [hvariable] at hmode
      cases hnamed : modeNamed? text with
      | none => simp [hnamed] at hmode
      | some named =>
          simp only [hnamed] at hmode
          cases hmode
          rw [ExecutionMode.ofEnvironment, hvariable, Option.bind_some,
            (modeNamed?_eq_some_iff.1 hnamed).1]
          rfl

end

section

variable {σ : Type} (engine : Pattern.Engine) (connect : Connector σ) (state : σ)

/-- Only the settings of its verifier tell a run its mode. -/
theorem run_inMode (view : FileView) {env : Environment} (command : Command)
    {mode mode' : Option ExecutionMode}
    (hmode : ∀ options : VerifyOptions,
      (options.inMode mode).executionMode env = (options.inMode mode').executionMode env) :
    (command.inMode mode).run engine connect state view env =
      (command.inMode mode').run engine connect state view env := by
  have hsettings : ∀ options : VerifyOptions,
      (options.inMode mode).settings env = (options.inMode mode').settings env := fun _ => rfl
  have hverifier : ∀ (transport : Transport σ) (options : VerifyOptions),
      verifierOf transport (options.inMode mode) env =
        verifierOf transport (options.inMode mode') env := by
    intro transport options
    rw [verifierOf, hmode]
    rfl
  cases command with
  | check options => simp only [Command.inMode, Command.run, runCheck, hsettings, hverifier]
  | verify reference sha options =>
      simp only [Command.inMode, Command.run, runVerify, hsettings, hverifier]
  | version => rfl

/-- A command that uses a verifier and gives no mode itself is answered like the same command
with the mode that the library takes from the environment, if the variable is not set or holds
the name of a mode.  With any other text in the variable there is no run and no output. -/
theorem respond_in_environment_mode (view : FileView) (env : Environment)
    (arguments : List String) (command : Command) (options : VerifyOptions)
    (hcommand : Command.parse (env.without "PIPEGUARD_MODE") arguments = .ok command)
    (hoptions : command.verifyOptions? = some options) (hmode : options.mode = none) :
    ((∀ text, env.get? "PIPEGUARD_MODE" = some text → (modeNamed? text).isSome) →
      (∃ command' options', Command.parse env arguments = .ok command' ∧
        command'.verifyOptions? = some options' ∧
        ∀ transport : Transport σ,
          (verifierOf transport options' env).mode = ExecutionMode.ofEnvironment env) ∧
      respond engine connect state view env arguments =
        (command.inMode (some (ExecutionMode.ofEnvironment env))).run engine connect state view
          env) ∧
    ∀ text, env.get? "PIPEGUARD_MODE" = some text → modeNamed? text = none →
      Command.parse env arguments = .error (.usage (.badValue "--mode" text)) ∧
      respond engine connect state view env arguments = { exitCode := failureCode } := by
  have hparse := parse_eq hcommand hoptions hmode
  refine ⟨fun hvariable => ?_, fun text hvariable hnamed => ?_⟩
  · obtain ⟨mode, hfound⟩ := exists_variableMode hvariable
    rw [hfound] at hparse
    refine ⟨⟨command.inMode mode, options.inMode mode, hparse, ?_, fun _ => ?_⟩, ?_⟩
    · cases command with
      | check _ => cases hoptions; rfl
      | verify _ _ _ => cases hoptions; rfl
      | version => cases hoptions
    · exact executionMode_inMode options hfound
    · rw [respond, hparse]
      exact run_inMode engine connect state view command fun options =>
        executionMode_inMode options hfound
  · rw [variableMode_of_unnamed hvariable hnamed] at hparse
    rw [respond, hparse]
    exact ⟨rfl, rfl⟩

/-- An automated run in the mode that the variable names, and one that is refused. -/
theorem respond_in_environment_mode_verify :
    let arguments := ["verify", "actions/checkout", "v4"]
    let named : Environment := ⟨[("CI", "true"), ("PIPEGUARD_MODE", "Tolerant")]⟩
    let unnamed : Environment := ⟨[("CI", "true"), ("PIPEGUARD_MODE", " tolerant")]⟩
    respond Pattern.Engine.standard Connector.offline () (fun _ => none) named arguments =
      (Command.verify "actions/checkout" "v4" { mode := some .tolerant }).run
        Pattern.Engine.standard Connector.offline () (fun _ => none) named ∧
    respond Pattern.Engine.standard Connector.offline () (fun _ => none) unnamed arguments =
      { exitCode := 2 } := by
  intro arguments named unnamed
  have hnamed := respond_in_environment_mode Pattern.Engine.standard Connector.offline ()
    (fun _ => none) named arguments (.verify "actions/checkout" "v4" {}) {} (by decide +kernel)
    rfl rfl
  have hunnamed := respond_in_environment_mode Pattern.Engine.standard Connector.offline ()
    (fun _ => none) unnamed arguments (.verify "actions/checkout" "v4" {}) {} (by decide +kernel)
    rfl rfl
  refine ⟨(hnamed.1 fun text htext => ?_).2, (hunnamed.2 " tolerant" rfl (by decide +kernel)).2⟩
  cases htext
  decide +kernel

/-- The library falls back to a tolerant run where the process refuses to run. -/
theorem unnamed_mode_has_no_run :
    ¬∀ (env : Environment) (arguments : List String) (command : Command)
        (options : VerifyOptions),
      Command.parse (env.without "PIPEGUARD_MODE") arguments = .ok command →
      command.verifyOptions? = some options → options.mode = none →
      ∃ command' options', Command.parse env arguments = .ok command' ∧
        command'.verifyOptions? = some options' ∧
        options'.executionMode env = ExecutionMode.ofEnvironment env := by
  intro hruns
  obtain ⟨command, -, hcommand, -⟩ :=
    hruns ⟨[("PIPEGUARD_MODE", "lenient")]⟩ ["check"] (.check {}) {} (by decide +kernel) rfl rfl
  have hrefused : Command.parse ⟨[("PIPEGUARD_MODE", "lenient")]⟩ ["check"] =
      .error (.usage (.badValue "--mode" "lenient")) := by
    decide +kernel
  rw [hrefused] at hcommand
  cases hcommand

end

end CommandLine

end WorkflowAudit
