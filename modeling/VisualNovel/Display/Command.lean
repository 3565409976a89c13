import VisualNovel.Script.Command

/-!
# What a story asks a display to show
-/

namespace VisualNovel

inductive DisplayCommand where
  | showText (content : String)
  | setImage (layer : Nat) (path : String) (transition : Option Transition)
  | setCharacter (layer : Nat) (position path : String)
  | clearLayer (layer : Nat)
  | presentChoices (choices : List Choice)
  | hideChoices
  deriving DecidableEq, Repr, Inhabited

namespace DisplayCommand

def layer? : DisplayCommand → Option Nat
  | .setImage layer _ _ | .setCharacter layer _ _ | .clearLayer layer => some layer
  | _ => none

/-- The image a command puts on screen. -/
def asset? : DisplayCommand → Option String
  | .setImage _ path _ | .setCharacter _ _ path => some path
  | _ => none

def text? : DisplayCommand → Option String
  | .showText content => some content
  | _ => none

end DisplayCommand

end VisualNovel
