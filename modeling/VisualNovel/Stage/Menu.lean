import VisualNovel.Script.Command

/-!
# The menu on screen

Buttons stand below one another, each centred for its own text. Their borders
belong to them.
-/

namespace VisualNovel

structure Rect where
  x : Int
  y : Int
  width : Int
  height : Int
  deriving DecidableEq, Repr, Inhabited

namespace Rect

def contains (rect : Rect) (x y : Int) : Bool :=
  rect.x ≤ x && x ≤ rect.x + rect.width && rect.y ≤ y && y ≤ rect.y + rect.height

/-- The middle, rounded towards the upper left corner. -/
def centre (rect : Rect) : Int × Int :=
  (rect.x + rect.width.tdiv 2, rect.y + rect.height.tdiv 2)

end Rect

structure Menu where
  choices : List Choice
  rects : List Rect
  deriving DecidableEq, Repr, Inhabited

namespace Menu

/-- The top of the first button. -/
def top : Int := 100

/-- The distance from the top of one button to the top of the next. -/
def pitch : Int := 44

def buttonHeight : Int := 34

def charWidth : Int := 16

def padding : Int := 10

/-- The largest coordinate. -/
def maxCoordinate : Int := Int32.maxValue.toInt

def textWidth (text : String) : Int :=
  min (charWidth * text.length) maxCoordinate

/-- A text wider than the screen begins left of it; half a pixel is dropped
towards the screen's left border. -/
def button (screenWidth : Nat) (y : Int) (choice : Choice) : Rect :=
  let width := textWidth choice.text
  { x := (min (screenWidth : Int) maxCoordinate - width).tdiv 2 - padding
    y
    width := width + 2 * padding
    height := buttonHeight }

def buttonsFrom (screenWidth : Nat) (y : Int) : List Choice → List Rect
  | [] => []
  | choice :: choices =>
    button screenWidth y choice :: buttonsFrom screenWidth (y + pitch) choices

def layout (choices : List Choice) (screenWidth : Nat) : Menu :=
  { choices, rects := buttonsFrom screenWidth top choices }

def hitTest (menu : Menu) (x y : Int) : Option Nat :=
  menu.rects.findIdx? (·.contains x y)

/-- The button hit when the pointer is put on the middle of the given one. -/
def pointAt (menu : Menu) (index : Nat) : Option Nat :=
  (menu.rects[index]?).bind fun rect => menu.hitTest rect.centre.1 rect.centre.2

end Menu

end VisualNovel
