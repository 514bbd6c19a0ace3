import ConstraintFacets.Definition.Basic
import ConstraintFacets.Json.Basic

/-! # Checking type definitions

Findings about type definitions are collected in the order in which they are
made. A finding is a warning or an error; neither stops a run.

A checker looks at one definition at a time (`ConstraintFacets.Checker`). Checking a
definition looks at it first and then at the definitions inside it, in order
(`ConstraintFacets.Checker.check`).
-/

namespace ConstraintFacets

/-- How grave a finding is. -/
inductive Severity where
  /-- What is generated may surprise. -/
  | warning
  /-- What is asked for cannot be generated as it is. -/
  | error
deriving DecidableEq

/-- The name of a severity. -/
def Severity.name : Severity → String
  | warning => "warning"
  | error => "error"

/-- A finding. -/
structure Finding where
  /-- How grave it is. -/
  severity : Severity
  /-- What it is about. -/
  subject : String
  /-- What is found. -/
  message : String
deriving DecidableEq

namespace Finding

/-- A finding on one line. -/
def text (finding : Finding) : String :=
  finding.severity.name ++ ": " ++ finding.subject ++ ": " ++ finding.message

/-- The JSON form of a finding. -/
def toJson (finding : Finding) : Json :=
  .record
    [("severity", .text finding.severity.name), ("subject", .text finding.subject),
     ("message", .text finding.message)]

end Finding

/-- The findings of a run, in order. -/
structure Report where
  /-- The findings. -/
  findings : List Finding := []
deriving DecidableEq

namespace Report

/-- A report with one more warning. -/
def warn (report : Report) (subject message : String) : Report :=
  ⟨report.findings ++ [⟨.warning, subject, message⟩]⟩

/-- A report with one more error. -/
def blame (report : Report) (subject message : String) : Report :=
  ⟨report.findings ++ [⟨.error, subject, message⟩]⟩

/-- The findings of one report, then those of another. -/
def append (first second : Report) : Report :=
  ⟨first.findings ++ second.findings⟩

instance : Append Report := ⟨append⟩

/-- The findings of several reports, one after the other. -/
def concat (reports : List Report) : Report :=
  ⟨reports.flatMap findings⟩

/-- The findings of a severity. -/
def ofSeverity (report : Report) (severity : Severity) : List Finding :=
  report.findings.filter fun finding => finding.severity = severity

/-- The warnings. -/
def warnings (report : Report) : List Finding :=
  report.ofSeverity .warning

/-- The errors. -/
def errors (report : Report) : List Finding :=
  report.ofSeverity .error

/-- Whether there is an error. -/
def hasErrors (report : Report) : Bool :=
  !report.errors.isEmpty

/-- Whether nothing was found. -/
def isEmpty (report : Report) : Bool :=
  report.findings.isEmpty

/-- The JSON form of a report. -/
def toJson (report : Report) : Json :=
  .record [("diagnostics", .array (report.findings.map Finding.toJson))]

/-- One report before another has the findings of both, in this order. -/
@[simp] theorem findings_append (first second : Report) :
    (first ++ second).findings = first.findings ++ second.findings := rfl

end Report

/-- What is looked for in single definitions. By default nothing is. -/
structure Checker where
  /-- The findings about a simple type. -/
  simple : SimpleType → Report := fun _ => {}
  /-- The findings about a complex type, without those about what is nested in
  it. -/
  complex : ComplexType → Report := fun _ => {}

namespace Checker

mutual

/-- The findings about a definition and about everything inside it. -/
def check (checker : Checker) : TypeDefinition → Report
  | .simple type => checker.simple type
  | .complex ⟨name, value, attributes, elements, nestedTypes⟩ =>
    checker.complex ⟨name, value, attributes, elements, nestedTypes⟩ ++
      checkAll checker nestedTypes

/-- The findings about a list of definitions. -/
def checkAll (checker : Checker) : List TypeDefinition → Report
  | [] => {}
  | definition :: rest => check checker definition ++ checkAll checker rest

end

end Checker

end ConstraintFacets
