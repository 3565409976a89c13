import VisualNovel.Script.Condition

/-!
# Script commands
-/

namespace VisualNovel

/-- One option of a menu: what is shown, and the label it leads to. -/
structure Choice where
  text : String
  target : String
  deriving DecidableEq, Repr, Inhabited

/-- How a background replaces the one before it. The first argument is the
mask image. -/
structure Transition where
  name : String
  args : List String := []
  deriving DecidableEq, Repr, Inhabited

inductive Command where
  | background (layer : Nat) (path : String) (transition : Option Transition)
  | character (layer : Nat) (position path : String)
  | choice (options : List Choice)
  | affection (character : String) (delta : Int32)
  | ifHolds (condition : Condition)
  | elseIf (condition : Condition)
  | otherwise
  | endIf
  | jump (label : String)
  | clear (layer : Nat)
  | unknown (name : String)
  | invalid (name : String)
  deriving DecidableEq, Repr, Inhabited

namespace Command

def name : Command → String
  | .background .. => "bg"
  | .character .. => "chara"
  | .choice _ => "choice"
  | .affection .. => "affection"
  | .ifHolds _ => "if"
  | .elseIf _ => "elseif"
  | .otherwise => "else"
  | .endIf => "endif"
  | .jump _ => "jump"
  | .clear _ => "clear"
  | .unknown name => name
  | .invalid name => name

def isBranchMarker : Command → Bool
  | .ifHolds _ | .elseIf _ | .otherwise | .endIf => true
  | _ => false

/-- The labels a command can lead to. -/
def targets : Command → List String
  | .jump label => [label]
  | .choice options => options.map (·.target)
  | _ => []

end Command

end VisualNovel
