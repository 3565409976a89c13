import VisualNovel.Affection.Table

/-!
# Conditions

A condition compares a character's affection with a number. One that could not
be read never holds, and neither does an unknown comparison.
-/

namespace VisualNovel

inductive Comparison where
  | ge | le | gt | lt | eq | ne
  | unknown (operator : String)
  deriving DecidableEq, Repr, Inhabited

namespace Comparison

def ofText : String → Comparison
  | ">=" => .ge
  | "<=" => .le
  | ">" => .gt
  | "<" => .lt
  | "==" => .eq
  | "!=" => .ne
  | operator => .unknown operator

def text : Comparison → String
  | .ge => ">="
  | .le => "<="
  | .gt => ">"
  | .lt => "<"
  | .eq => "=="
  | .ne => "!="
  | .unknown operator => operator

def holds : Comparison → Int32 → Int32 → Bool
  | .ge, a, b => b ≤ a
  | .le, a, b => a ≤ b
  | .gt, a, b => b < a
  | .lt, a, b => a < b
  | .eq, a, b => a == b
  | .ne, a, b => a != b
  | .unknown _, _, _ => false

end Comparison

inductive Condition where
  | affection (character : String) (comparison : Comparison) (value : Int32)
  /-- The words of a condition that could not be read. -/
  | invalid (text : String)
  deriving DecidableEq, Repr, Inhabited

def Condition.holds (table : AffectionTable) : Condition → Bool
  | .affection character comparison value => comparison.holds (table.get character) value
  | .invalid _ => false

end VisualNovel
