/-!
# Diagnostics

What a check has to say about a script, and the order of severities.
-/

namespace VisualNovel

inductive Severity where
  | info | warn | error
  deriving DecidableEq, Repr, Inhabited

namespace Severity

def label : Severity → String
  | .info => "INFO"
  | .warn => "WARN"
  | .error => "ERROR"

def rank : Severity → Nat
  | .info => 0
  | .warn => 1
  | .error => 2

end Severity

structure Diagnostic where
  severity : Severity
  /-- The name of the script, usually its path. -/
  script : String
  line : Option Nat := none
  message : String
  detail : Option String := none
  deriving DecidableEq, Repr, Inhabited

def Diagnostic.text (d : Diagnostic) : String :=
  let line := match d.line with
    | some line => s!":{line}"
    | none => ""
  let detail := match d.detail with
    | some detail => s!"\n  | {detail}"
    | none => ""
  s!"[{d.severity.label}] {d.script}{line}: {d.message}{detail}"

/-- All that a check found, in the order in which it was found. -/
abbrev Report := List Diagnostic

namespace Report

def count (report : Report) (severity : Severity) : Nat :=
  report.countP (·.severity = severity)

def errors (report : Report) : Nat :=
  count report .error

def warnings (report : Report) : Nat :=
  count report .warn

def hasErrors (report : Report) : Bool :=
  0 < errors report

def atLeast (report : Report) (severity : Severity) : Report :=
  report.filter fun d => severity.rank ≤ d.severity.rank

end Report

end VisualNovel
