/-!
# Text revealed character by character

Every `delay` frames one more character is shown; without a delay the whole text
is shown at once.
-/

namespace VisualNovel

structure Reveal where
  delay : Nat
  text : String := ""
  /-- How many characters are shown. -/
  shown : Nat := 0
  /-- Frames since the last character was shown. -/
  waited : Nat := 0
  /-- Whether the text counts as shown in full. -/
  isReady : Bool := true
  deriving DecidableEq, Repr, Inhabited

namespace Reveal

def setText (reveal : Reveal) (text : String) : Reveal :=
  let isReady := reveal.delay = 0 || text.length = 0
  { reveal with text, isReady, waited := 0, shown := if isReady then text.length else 0 }

def clear (reveal : Reveal) : Reveal :=
  reveal.setText ""

/-- One frame. -/
def update (reveal : Reveal) : Reveal :=
  if reveal.isReady then reveal
  else
    let next :=
      if reveal.delay ≤ reveal.waited + 1 then
        { reveal with waited := 0, shown := reveal.shown + 1 }
      else { reveal with waited := reveal.waited + 1 }
    { next with isReady := next.text.length ≤ next.shown }

def complete (reveal : Reveal) : Reveal :=
  { reveal with shown := reveal.text.length, isReady := true }

def visible (reveal : Reveal) : String :=
  String.ofList (reveal.text.toList.take reveal.shown)

end Reveal

end VisualNovel
