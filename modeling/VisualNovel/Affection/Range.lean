/-!
# Affection ranges

How far a character's affection may move, and where it stands before the first
write.
-/

namespace VisualNovel

structure AffectionRange where
  min : Int32 := 0
  max : Int32 := 100
  /-- What reads as the affection of a character never written. -/
  initial : Int32 := 50
  deriving DecidableEq, Repr, Inhabited

/-- The lower end is applied first, so a range whose ends are swapped sends
every value to its upper end. -/
def AffectionRange.clamp (range : AffectionRange) (value : Int32) : Int32 :=
  let raised := if value < range.min then range.min else value
  if range.max < raised then range.max else raised

end VisualNovel
