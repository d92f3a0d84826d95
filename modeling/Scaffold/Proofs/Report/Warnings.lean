import Mathlib.Data.List.Count
import Scaffold.Proofs.Model.Repetition
import Scaffold.Proofs.Plan.Preview
import Scaffold.Proofs.Text.Lines
import Scaffold.Report

/-! Warnings of reports. What a report warns of depends on the request alone, and the error stream
shows the warnings and nothing else. A report on a model has one warning for each field name that is
declared more than once, in the order in which the names are first repeated. Main statement:
`report_warns_of_repeated`. -/

namespace Scaffold

variable {d : Disk} {p : Project} {r : Request} {report : Report}

/-! ### Warnings of a request -/

/-- A report warns of what is odd about its request, on every disk, in a dry run as in a real
one. -/
theorem Request.warnings_of_report {dryRun : Bool}
    (h : ((r.report p dryRun).run d).1 = .ok report) : report.warnings = r.warnings := by
  rw [Request.report, Script.run_bind] at h
  split at h
  · cases h
  · split at h
    · obtain rfl := Except.ok.inj h
      rfl
    · rw [Script.run_bind, Script.run_bind] at h
      split at h
      · cases h
      · obtain rfl := Except.ok.inj h
        rfl

namespace Report

/-- The main part of a report warns of nothing. -/
theorem asWarning?_bodyLines (subject : Text) (body : Body) :
    (bodyLines subject body).filterMap Line.asWarning? = [] := by
  cases body with
  | preview files =>
    simp [bodyLines, Line.asWarning?, List.filterMap_flatMap]
  | written files registered already =>
    have hfiles : (Line.heading ("Generated " ++ subject) :: files.map FileNote.line).filterMap
        Line.asWarning? = [] := by
      rw [List.filterMap_cons_none rfl, List.filterMap_map, List.filterMap_eq_nil_iff]
      rintro (path | path | path) - <;> rfl
    simp only [bodyLines, List.filterMap_append, hfiles]
    cases registered <;> cases already <;> rfl

/-- The error stream shows the warnings of a report, one below the other. -/
theorem errorOutput_eq (report : Report) :
    report.errorOutput = Text.unlines (report.warnings.map fun w => "warning: " ++ w) := by
  have hshown : (report.warnings.map Line.warning).filterMap Line.asWarning? =
      report.warnings.map fun w => ("warning: " ++ w : Text) := by
    rw [List.filterMap_map, ← List.filterMap_eq_map']
    rfl
  rw [errorOutput, lines, List.filterMap_append, asWarning?_bodyLines, List.append_nil, hshown]
  rfl

end Report

/-! ### Repeated names -/

/-- The warning about a field name that is declared more than once. -/
def repeatedWarning (n : Text) : Text :=
  "field " ++ Text.quoted n ++ " is declared more than once"

theorem repeatedWarning_injective : Function.Injective repeatedWarning := by
  intro n n' h
  have hquoted := List.append_cancel_left (List.append_cancel_right h)
  exact List.append_cancel_left (List.append_cancel_right hquoted)

namespace Model

variable {m : Model} {n : Text}

/-- How many fields of a model have a name. -/
def fieldCount (m : Model) (n : Text) : ℕ :=
  m.fields.countP fun f => f.name = n

theorem count_names (m : Model) (n : Text) :
    (m.fields.map (·.name)).count n = m.fieldCount n := by
  rw [List.count, List.countP_map, fieldCount]
  exact List.countP_congr fun f _ => by simp

theorem mem_duplicateNames_iff : n ∈ m.duplicateNames ↔ 2 ≤ m.fieldCount n := by
  rw [duplicateNames, mem_secondOccurrences_iff, count_names]

theorem nodup_duplicateNames (m : Model) : m.duplicateNames.Nodup :=
  (pairwise_secondOccurrences _).imp fun h => by
    rintro rfl
    exact lt_irrefl _ h

end Model

/-- The repeated names of a model are those that at least two of its fields have, each once and in
the order in which they come for the second time, as one scan finds them. A report on the model has
one warning for each of them and no other, and the error stream one line for each warning. -/
theorem report_warns_of_repeated (m : Model) :
    (∀ n, n ∈ m.duplicateNames ↔ 2 ≤ m.fieldCount n) ∧
    m.duplicateNames.Nodup ∧
    (m.duplicateNames.Pairwise fun a b =>
      (m.fields.map (·.name)).idxOfNth a 1 < (m.fields.map (·.name)).idxOfNth b 1) ∧
    m.duplicateNames = ((m.fields.map (·.name)).foldl Model.Met.meet {}).again ∧
    ∀ p force indent dryRun d report,
      (((Request.model m force indent).report p dryRun).run d).1 = .ok report →
      (∀ n, report.warnings.count (repeatedWarning n) = if 2 ≤ m.fieldCount n then 1 else 0) ∧
      report.warnings = m.duplicateNames.map repeatedWarning ∧
      report.errorOutput =
        Text.unlines (m.duplicateNames.map fun n => "warning: " ++ repeatedWarning n) := by
  refine ⟨fun n => Model.mem_duplicateNames_iff, m.nodup_duplicateNames,
    Model.pairwise_secondOccurrences _, (Model.again_foldl_meet _).symm, ?_⟩
  intro p force indent dryRun d report h
  have hwarnings : report.warnings = m.duplicateNames.map repeatedWarning :=
    Request.warnings_of_report h
  refine ⟨fun n => ?_, hwarnings, ?_⟩
  · rw [hwarnings, List.count_map_of_injective _ _ repeatedWarning_injective,
      m.nodup_duplicateNames.count]
    simp only [Model.mem_duplicateNames_iff]
  · rw [Report.errorOutput_eq, hwarnings, List.map_map]
    rfl

/-- A model with one field name three times and another one twice; the second turn of the latter
comes first. -/
def echoModel : Model where
  name := "Note"
  entity := none
  fields := ["title", "body", "page", "body", "title", "title"].map fun n : String =>
    ⟨n, .scalar .string, false⟩
  conformances := {}

/-- The report on the model. -/
def echoReport : Report where
  subject := "model Note"
  warnings :=
    ["field 'body' is declared more than once", "field 'title' is declared more than once"]
  body := .written [.created "Templates/../Models/Own/Note.swift", .updated "Setup.swift"]
    (some ("preparations.append(Note.self)".toList, "Setup.swift".toList)) none

theorem report_warns_of_repeated_echo :
    (((Request.model echoModel false .standard).report noteProject false).run
      (noteTree.disk [])).1 = .ok echoReport ∧
    echoModel.duplicateNames = ["body".toList, "title".toList] ∧
    (∀ n, echoReport.warnings.count (repeatedWarning n) =
      if 2 ≤ echoModel.fieldCount n then 1 else 0) ∧
    echoReport.errorOutput = Text.unlines
      (echoModel.duplicateNames.map fun n => "warning: " ++ repeatedWarning n) := by
  have hrun : (((Request.model echoModel false .standard).report noteProject false).run
      (noteTree.disk [])).1 = .ok echoReport := by
    decide +kernel
  obtain ⟨-, -, -, -, hreport⟩ := report_warns_of_repeated echoModel
  obtain ⟨hcount, -, hshown⟩ := hreport _ _ _ _ _ _ hrun
  exact ⟨hrun, rfl, hcount, hshown⟩

end Scaffold
