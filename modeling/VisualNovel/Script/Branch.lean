import VisualNovel.Script.Program

/-!
# Branch scans

A branch that is not taken is skipped by scanning for the marker at which the
script goes on. A nested scan passes over whole inner blocks; a linear scan
stops at the first marker it is looking for, wherever it stands.
-/

namespace VisualNovel

inductive BranchScan where
  | nested
  | linear
  deriving DecidableEq, Repr, Inhabited

inductive Marker where
  | ifHolds | elseIf | otherwise | endIf
  deriving DecidableEq, Repr

namespace Marker

def ofName : String → Option Marker
  | "if" => some .ifHolds
  | "elseif" => some .elseIf
  | "else" => some .otherwise
  | "endif" => some .endIf
  | _ => none

def ofLine? (line : ScriptLine) : Option Marker :=
  line.form.commandName?.bind ofName

/-- The markers at which another branch of the block can begin, or the block end. -/
def isNextBranch : Marker → Bool
  | .ifHolds => false
  | _ => true

def isEndIf : Marker → Bool
  | .endIf => true
  | _ => false

end Marker

namespace BranchScan

/-- How many lines stand before the first marker sought, `depth` blocks deep. -/
def nestedDistance (sought : Marker → Bool) (depth : Nat) : List ScriptLine → Nat
  | [] => 0
  | line :: rest =>
    match Marker.ofLine? line with
    | none => nestedDistance sought depth rest + 1
    | some marker =>
      if depth = 0 ∧ marker ≠ .ifHolds ∧ sought marker then 0
      else
        let inner := match marker with
          | .ifHolds => depth + 1
          | .endIf => depth - 1
          | _ => depth
        nestedDistance sought inner rest + 1

def linearDistance (sought : Marker → Bool) : List ScriptLine → Nat
  | [] => 0
  | line :: rest =>
    if (Marker.ofLine? line).any sought then 0 else linearDistance sought rest + 1

def distance (sought : Marker → Bool) : BranchScan → List ScriptLine → Nat
  | .nested => nestedDistance sought 0
  | .linear => linearDistance sought

/-- The line of the marker sought at or after `start`, else the end of the program. -/
def find (scan : BranchScan) (sought : Marker → Bool) (program : Program) (start : Nat) : Nat :=
  if start ≤ program.size then start + scan.distance sought (program.lines.drop start)
  else program.size

def nextBranch (scan : BranchScan) (program : Program) (start : Nat) : Nat :=
  scan.find Marker.isNextBranch program start

def blockEnd (scan : BranchScan) (program : Program) (start : Nat) : Nat :=
  scan.find Marker.isEndIf program start

end BranchScan

end VisualNovel
