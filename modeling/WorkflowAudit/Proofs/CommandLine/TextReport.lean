import Mathlib.Data.List.Flatten
import Mathlib.Data.List.Forall2
import WorkflowAudit.Proofs.CommandLine.Check
import WorkflowAudit.Proofs.Outcome
import WorkflowAudit.Proofs.Scan.FailedAnswers
import WorkflowAudit.Proofs.Violation.Fingerprints

/-!
# Reading the lines of a report

A report lists its violations between a first line and a blank one.  Texts of the repository
are shown as they are, and so each line feed in one of them splits a line there.  Nothing else
does: the words of the report, its codes and its numbers hold none, and where no text that is
shown holds one, each violation has exactly one line.
-/

namespace WorkflowAudit

open Text

/-! ## Line feeds -/

/-- How many line feeds there are in a text. -/
def lineFeeds (text : String) : Nat := text.toList.count '\n'

def lineFeedsIn (texts : List String) : Nat := (texts.map lineFeeds).sum

theorem lineFeeds_append (front back : String) :
    lineFeeds (front ++ back) = lineFeeds front + lineFeeds back := by
  rw [lineFeeds, String.toList_append, List.count_append]
  rfl

theorem lineFeeds_eq_zero_iff {text : String} : lineFeeds text = 0 ↔ '\n' ∉ text.toList :=
  List.count_eq_zero

theorem lineFeeds_repr (n : Nat) : lineFeeds n.repr = 0 :=
  lineFeeds_eq_zero_iff.2 fun hfeed => absurd (isDigit_of_mem_repr hfeed) (by decide)

theorem lineFeedsIn_append (texts more : List String) :
    lineFeedsIn (texts ++ more) = lineFeedsIn texts + lineFeedsIn more := by
  rw [lineFeedsIn, List.map_append, List.sum_append]
  rfl

theorem lineFeedsIn_eq_zero_iff {texts : List String} :
    lineFeedsIn texts = 0 ↔ ∀ text ∈ texts, '\n' ∉ text.toList := by
  rw [lineFeedsIn, List.sum_eq_zero_iff_forall_eq_nat, List.forall_mem_map]
  simp only [lineFeeds_eq_zero_iff]

theorem length_splitOn_feed (text : String) :
    (splitOn '\n' text.toList).length = 1 + lineFeeds text := by
  unfold lineFeeds
  induction text.toList with
  | nil => rfl
  | cons c rest ih =>
      rw [splitOn, List.count_cons]
      by_cases hc : c = '\n'
      · rw [if_pos hc, List.length_cons, ih]
        simp [hc, Nat.add_assoc]
      · rw [if_neg hc]
        cases hpieces : splitOn '\n' rest with
        | nil => exact absurd hpieces (splitOn_ne_nil _ _)
        | cons piece pieces =>
            rw [hpieces] at ih
            simp [hc, ← ih]

theorem splitOn_join_lines (lines : List String) :
    splitOn '\n' (String.join (lines.map (· ++ "\n"))).toList =
      lines.flatMap (fun line => splitOn '\n' line.toList) ++ [[]] := by
  induction lines with
  | nil => rfl
  | cons line rest ih =>
      have hfeed : (line ++ "\n" ++ String.join (rest.map (· ++ "\n"))).toList =
          line.toList ++ '\n' :: (String.join (rest.map (· ++ "\n"))).toList := by
        simp
      rw [List.map_cons, String.join_cons, hfeed, splitOn_append, ih, List.flatMap_cons,
        List.append_assoc]

/-- Lists that have one item each, and some more, have as many together. -/
theorem length_flatMap_of_extra {α β : Type} {f : α → List β} {extra : α → Nat} {items : List α}
    (hextra : ∀ item ∈ items, (f item).length = 1 + extra item) :
    (items.flatMap f).length = items.length + (items.map extra).sum := by
  induction items with
  | nil => rfl
  | cons item rest ih =>
      obtain ⟨hitem, hrest⟩ := List.forall_mem_cons.1 hextra
      rw [List.flatMap_cons, List.length_append, hitem, ih hrest, List.length_cons, List.map_cons,
        List.sum_cons]
      omega

/-! ## What the lines show -/

theorem Severity.lineFeeds_name (severity : Severity) : lineFeeds severity.name = 0 := by
  cases severity <;> decide

theorem Location.lineFeeds_display (location : Location) :
    lineFeeds location.display = lineFeedsIn (location.path :: location.job.toList) := by
  have hwords : lineFeeds " [job " = 0 ∧ lineFeeds ", step " = 0 ∧ lineFeeds "]" = 0 := by decide
  obtain ⟨hjob, hstep, hclose⟩ := hwords
  obtain ⟨path, job, step⟩ := location
  cases job with
  | none => rfl
  | some job =>
      cases step with
      | none =>
          have hdisplay : (Location.mk path (some job) none).display =
              path ++ " [job " ++ job ++ "]" := rfl
          simp [hdisplay, lineFeeds_append, lineFeedsIn, hjob, hclose]
      | some step =>
          have hdisplay : (Location.mk path (some job) (some step)).display =
              path ++ " [job " ++ job ++ ", step " ++ step.repr ++ "]" := rfl
          simp [hdisplay, lineFeeds_append, lineFeedsIn, hjob, hstep, hclose, lineFeeds_repr]

namespace Violation

/-- The texts of the repository that the line of a violation shows. -/
def shownTexts (v : Violation) : List String :=
  v.location.path :: v.location.job.toList ++ [v.message, v.ruleId]

theorem lineFeeds_summaryLine {v : Violation} (hcode : lineFeeds v.code = 0) :
    lineFeeds v.summaryLine = lineFeedsIn v.shownTexts := by
  have hline : v.summaryLine = "[" ++ v.severity.name ++ "] " ++ v.code ++ " " ++
      v.location.display ++ ": " ++ v.message ++ " (rule " ++ v.ruleId ++ ")" := rfl
  have hwords : ∀ word ∈ ["[", "] ", " ", ": ", " (rule ", ")"], lineFeeds word = 0 := by decide
  have hshown : lineFeedsIn v.shownTexts =
      lineFeeds v.location.display + (lineFeeds v.message + lineFeeds v.ruleId) := by
    rw [shownTexts, lineFeedsIn_append, Location.lineFeeds_display]
    rfl
  simp only [List.forall_mem_cons] at hwords
  simp only [hline, hshown, lineFeeds_append, hcode, Severity.lineFeeds_name, hwords, Nat.zero_add,
    Nat.add_zero, Nat.add_assoc]

end Violation

/-- The line of an exempted violation, which ends with the rationale. -/
def ExemptedViolation.summaryLine (e : ExemptedViolation) : String :=
  s!"[exempted] {e.violation.summaryLine} ({e.rationale})"

theorem ExemptedViolation.lineFeeds_summaryLine {e : ExemptedViolation}
    (hcode : lineFeeds e.violation.code = 0) :
    lineFeeds e.summaryLine = lineFeedsIn (e.violation.shownTexts ++ [e.rationale]) := by
  have hline : e.summaryLine =
      "[exempted] " ++ e.violation.summaryLine ++ " (" ++ e.rationale ++ ")" := rfl
  have hwords : ∀ word ∈ ["[exempted] ", " (", ")"], lineFeeds word = 0 := by decide
  simp only [List.forall_mem_cons] at hwords
  rw [hline, lineFeedsIn_append]
  simp only [lineFeeds_append, Violation.lineFeeds_summaryLine hcode, hwords, Nat.zero_add,
    Nat.add_zero]
  rfl

/-- The lines that list the violations of a decision, each with the texts that it shows. -/
def Decision.listing (d : Decision) : List (String × List String) :=
  (d.remaining ++ d.advisories).map (fun v => (v.summaryLine, v.shownTexts)) ++
    d.exempted.map fun e => (e.summaryLine, e.violation.shownTexts ++ [e.rationale])

theorem Decision.length_listing (d : Decision) : d.listing.length = d.summary.total := by
  simp [listing, summary, Nat.add_assoc]

theorem Decision.lineFeeds_of_mem_listing {d : Decision}
    (hcodes : ∀ v ∈ d.remaining ++ d.advisories ++ d.exempted.map ExemptedViolation.violation,
      lineFeeds v.code = 0) :
    ∀ line ∈ d.listing, lineFeeds line.1 = lineFeedsIn line.2 := by
  obtain ⟨hlisted, hexempted⟩ := List.forall_mem_append.1 hcodes
  refine List.forall_mem_append.2 ⟨List.forall_mem_map.2 fun v hv => ?_,
    List.forall_mem_map.2 fun e he => ?_⟩
  · exact Violation.lineFeeds_summaryLine (hlisted v hv)
  · exact ExemptedViolation.lineFeeds_summaryLine (hexempted _ (List.mem_map_of_mem he))

/-! ## Codes of a run -/

theorem Rule.Reports.lineFeeds_code {rule : Rule} {v : Violation}
    (hreports : rule.Reports (staticCodes ++ verdictCodes) v) : lineFeeds v.code = 0 := by
  have hcodes : ∀ code ∈ staticCodes ++ verdictCodes, lineFeeds code = 0 := by decide +kernel
  exact hcodes v.code hreports.code_mem

theorem AuditInput.lineFeeds_code {σ : Type} (input : AuditInput) (engine : Pattern.Engine)
    (verifier : ReferenceVerifier σ) (state : σ) :
    ∀ v ∈ input.violations engine verifier state, lineFeeds v.code = 0 := by
  intro v hv
  rw [input.violations_eq] at hv
  rcases List.mem_append.1 hv with hv | hv
  · obtain ⟨rule, -, hv⟩ := List.mem_flatMap.1 hv
    exact ((reports_of_mem_problems hv).mono (List.subset_append_left _ _)).lineFeeds_code
  · rw [scanDefinitions_of_reaches .refl] at hv
    obtain ⟨d, -, hv⟩ := List.mem_flatMap.1 hv
    obtain ⟨rule, -, hv⟩ := List.mem_flatMap.1 hv
    exact (reports_of_mem_findings hv).lineFeeds_code

/-! ## Whole reports -/

def ScanReport.headerLine (report : ScanReport) : String :=
  s!"pipeguard check: {report.definitions} definition(s), mode {report.decision.mode.name}"

def Decision.totalsLine (d : Decision) : String :=
  let kinds :=
    s!"{d.summary.errors} errors, {d.summary.warnings} warnings, {d.summary.exempted} exempted"
  s!"Summary: {d.summary.total} total ({kinds})"

def Decision.verdictLine (d : Decision) : String := if d.passes then "PASS" else "FAIL"

theorem ScanReport.lineFeeds_headerLine (report : ScanReport) :
    lineFeeds report.headerLine = 0 := by
  have hline : report.headerLine = "pipeguard check: " ++ report.definitions.repr ++
      " definition(s), mode " ++ report.decision.mode.name := rfl
  have hwords : lineFeeds "pipeguard check: " = 0 ∧ lineFeeds " definition(s), mode " = 0 := by
    decide
  have hmode : lineFeeds report.decision.mode.name = 0 := by
    cases report.decision.mode <;> decide
  simp only [hline, lineFeeds_append, lineFeeds_repr, hwords, hmode]

theorem Decision.lineFeeds_totalsLine (d : Decision) : lineFeeds d.totalsLine = 0 := by
  have hline : d.totalsLine = "Summary: " ++ d.summary.total.repr ++ " total (" ++
      (d.summary.errors.repr ++ " errors, " ++ d.summary.warnings.repr ++ " warnings, " ++
        d.summary.exempted.repr ++ " exempted") ++ ")" := rfl
  have hwords : ∀ word ∈ ["Summary: ", " total (", " errors, ", " warnings, ", " exempted", ")"],
      lineFeeds word = 0 := by
    decide
  simp only [List.forall_mem_cons] at hwords
  simp only [hline, lineFeeds_append, lineFeeds_repr, hwords]

theorem Decision.lineFeeds_verdictLine (d : Decision) : lineFeeds d.verdictLine = 0 := by
  unfold verdictLine
  split <;> decide

theorem splitOn_of_lineFeeds_eq_zero {line : String} (hline : lineFeeds line = 0) :
    splitOn '\n' line.toList = [line.toList] :=
  splitOn_of_not_mem (lineFeeds_eq_zero_iff.1 hline)

namespace CommandLine

theorem reportLines_eq (report : ScanReport) :
    reportLines report = report.headerLine :: report.decision.listing.map Prod.fst ++
      ["", report.decision.totalsLine, report.decision.verdictLine] := by
  rw [Decision.listing, List.map_append, List.map_map, List.map_map]
  rfl

theorem splitOn_reportText (report : ScanReport) :
    splitOn '\n' (reportText report).toList =
      report.headerLine.toList ::
        report.decision.listing.flatMap (fun line => splitOn '\n' line.1.toList) ++
        [[], report.decision.totalsLine.toList, report.decision.verdictLine.toList, []] := by
  rw [reportText, splitOn_join_lines, reportLines_eq]
  simp only [List.cons_append, List.flatMap_cons, List.flatMap_append, List.flatMap_map,
    List.flatMap_nil, List.append_assoc, List.nil_append,
    splitOn_of_lineFeeds_eq_zero report.lineFeeds_headerLine,
    splitOn_of_lineFeeds_eq_zero report.decision.lineFeeds_totalsLine,
    splitOn_of_lineFeeds_eq_zero report.decision.lineFeeds_verdictLine]
  rfl

section

variable {σ : Type} (input : AuditInput) (engine : Pattern.Engine)
  (verifier : ReferenceVerifier σ) (mode : ExecutionMode) (state : σ)

theorem length_splitOn_listed :
    ∀ line ∈ (input.report engine verifier mode state).decision.listing,
      (splitOn '\n' line.1.toList).length = 1 + lineFeedsIn line.2 := by
  have hfound := input.lineFeeds_code engine verifier state
  have hdealt := dealt_decideRun (input.violations engine verifier state) input.exceptions mode
  intro line hline
  rw [length_splitOn_feed, Decision.lineFeeds_of_mem_listing
    (fun v hv => hfound v (hdealt.perm.mem_iff.2 hv)) line hline]

theorem length_listed :
    ((input.report engine verifier mode state).decision.listing.flatMap fun line =>
      splitOn '\n' line.1.toList).length =
    (input.report engine verifier mode state).decision.summary.total +
      ((input.report engine verifier mode state).decision.listing.map fun line =>
        lineFeedsIn line.2).sum := by
  rw [length_flatMap_of_extra (length_splitOn_listed input engine verifier mode state),
    Decision.length_listing]

end

theorem runCheck_output_eq {σ : Type} {engine : Pattern.Engine} {connect : Connector σ}
    {transport : Transport σ} {state : σ} {view : FileView} {env : Environment}
    {options : CheckOptions} {input : AuditInput}
    (hread : AuditInput.read view options.root options.policy options.exceptions = .ok input)
    (hconnect : connect (options.verify.settings env) = .ok transport)
    (hformat : options.format = .text) :
    (runCheck engine connect state view env options).output =
      reportText (input.report engine (verifierOf transport options.verify env).verify
        (verifierOf transport options.verify env).mode (Run.fresh state)) := by
  simp only [runCheck, hread, hconnect, hformat]
  rfl

/-- A check that could read its input and build its client prints its first line, the lines of
the violations in the order of the three lists, a blank line, the totals and the verdict.  The
lines of one violation are one, and one more for each line feed in the texts that it shows; so
there are as many lines as violations if and only if no text that is shown holds a line feed. -/
theorem text_report_splits_at_shown_feeds {σ : Type} (engine : Pattern.Engine)
    (connect : Connector σ) (transport : Transport σ) (state : σ) (view : FileView)
    (env : Environment) (options : CheckOptions) (input : AuditInput)
    (hread : AuditInput.read view options.root options.policy options.exceptions = .ok input)
    (hconnect : connect (options.verify.settings env) = .ok transport)
    (hformat : options.format = .text) :
    let verifier := verifierOf transport options.verify env
    let report := input.report engine verifier.verify verifier.mode (Run.fresh state)
    let decision := report.decision
    let lines := decision.listing.flatMap fun line => splitOn '\n' line.1.toList
    splitOn '\n' (runCheck engine connect state view env options).output.toList =
      report.headerLine.toList :: lines ++
        [[], decision.totalsLine.toList, decision.verdictLine.toList, []] ∧
    decision.listing.length = decision.summary.total ∧
    (∀ line ∈ decision.listing,
      (splitOn '\n' line.1.toList).length = 1 + lineFeedsIn line.2) ∧
    (lines.length = decision.summary.total ↔
      ∀ line ∈ decision.listing, ∀ text ∈ line.2, '\n' ∉ text.toList) := by
  intro verifier report decision lines
  have hsplit := length_splitOn_listed input engine verifier.verify verifier.mode (Run.fresh state)
  refine ⟨?_, decision.length_listing, hsplit, ?_⟩
  · rw [runCheck_output_eq hread hconnect hformat]
    exact splitOn_reportText report
  · have hlength := length_listed input engine verifier.verify verifier.mode (Run.fresh state)
    have hnone : lines.length = decision.summary.total ↔
        ∀ line ∈ decision.listing, lineFeedsIn line.2 = 0 := by
      rw [hlength, Nat.add_eq_left, List.sum_eq_zero_iff_forall_eq_nat, List.forall_mem_map]
    simpa only [lineFeedsIn_eq_zero_iff] using hnone

/-- A repository with a rule on the permissions of jobs, and a workflow with one job. -/
def oneJobView (job : String) : FileView :=
  (Tree.directory [(".github", .directory
    [("pipeguard.yml", .file (.text
        "rules:\n  - {id: scoped, check: {category: permissions, top_level: false}}\n")),
     ("workflows", .directory
        [("ci.yml", .file (.text ("jobs: \x7b\"" ++ job ++ "\": \x7b\x7d\x7d\n")))])])]).find?

/-- Nothing that is shown of a job with a plain name splits its line. -/
theorem text_report_splits_at_shown_feeds_plain_job :
    ∃ input, AuditInput.read (oneJobView "build") "." none none = .ok input ∧
      let verifier := verifierOf Transport.offline {} ⟨[]⟩
      let report := input.report .standard verifier.verify verifier.mode (Run.fresh ())
      report.decision.listing.map Prod.snd = [[".github/workflows/ci.yml", "build",
        "job 'build' does not declare permissions", "scoped"]] ∧
      (report.decision.listing.flatMap fun line => splitOn '\n' line.1.toList).length =
        report.decision.summary.total := by
  obtain ⟨input, hread⟩ : ∃ input, AuditInput.read (oneJobView "build") "." none none = .ok input :=
    exists_ok_of_isSome (by decide +kernel)
  have hshown : (AuditInput.read (oneJobView "build") "." none none).toOption.map (fun input =>
      (input.report .standard (verifierOf Transport.offline {} ⟨[]⟩).verify .tolerant
        (Run.fresh ())).decision.listing.map Prod.snd) = some [[".github/workflows/ci.yml", "build",
          "job 'build' does not declare permissions", "scoped"]] := by
    decide +kernel
  rw [hread] at hshown
  have hlisting := Option.some.inj hshown
  refine ⟨input, hread, hlisting, ?_⟩
  apply (text_report_splits_at_shown_feeds .standard Connector.offline Transport.offline ()
    (oneJobView "build") ⟨[]⟩ {} input hread rfl rfl).2.2.2.2
  intro line hline
  have hmem := (congrArg (line.2 ∈ ·) hlisting).mp (List.mem_map_of_mem hline)
  rw [List.mem_singleton.1 hmem]
  decide

/-- The name of a job is quoted in one line, and shown in two. -/
theorem job_name_splits_its_line :
    ¬∀ (view : FileView) (options : CheckOptions) (input : AuditInput),
      AuditInput.read view options.root options.policy options.exceptions = .ok input →
      options.format = .text →
      let verifier := verifierOf Transport.offline options.verify ⟨[]⟩
      let report := input.report .standard verifier.verify verifier.mode (Run.fresh ())
      ∃ header lines totals verdict,
        splitOn '\n' (runCheck .standard Connector.offline () view ⟨[]⟩ options).output.toList =
          header :: lines ++ [[], totals, verdict, []] ∧
        lines.length = report.decision.summary.total := by
  intro hlines
  obtain ⟨input, hread⟩ :
      ∃ input, AuditInput.read (oneJobView "a\\nb") "." none none = .ok input :=
    exists_ok_of_isSome (by decide +kernel)
  -- The name is shown twice, as the place of the violation and in its message.
  have hfeeds : (AuditInput.read (oneJobView "a\\nb") "." none none).toOption.map (fun input =>
      ((input.report .standard (verifierOf Transport.offline {} ⟨[]⟩).verify .tolerant
        (Run.fresh ())).decision.listing.map fun line => lineFeedsIn line.2).sum) = some 2 := by
    decide +kernel
  rw [hread] at hfeeds
  obtain ⟨header, lines, totals, verdict, hsplit, hlength⟩ :=
    hlines (oneJobView "a\\nb") {} input hread rfl
  rw [runCheck_output_eq hread rfl rfl, splitOn_reportText] at hsplit
  have hcount := congrArg List.length hsplit
  simp only [List.length_append, List.length_cons, List.length_nil, hlength,
    length_listed] at hcount
  have hnone := Nat.add_eq_left.1 (Nat.add_right_cancel (Nat.add_right_cancel hcount))
  cases hnone.symm.trans (Option.some.inj hfeeds)

end CommandLine

end WorkflowAudit
