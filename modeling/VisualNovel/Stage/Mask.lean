import VisualNovel.Stage.Scene

/-!
# Mask transitions

A transition advances by its speed every frame and shows itself as the overlay
of its layer, until it is complete and takes the overlay away. Transitions
advance in the order in which they were started, so the newest has the last
word on a layer.
-/

namespace VisualNovel

structure MaskTransition where
  layer : Nat
  mask : String
  /-- The background from before the transition. -/
  origin : Option String := none
  speed : Float32
  progress : Float32 := 0
  deriving Inhabited

namespace MaskTransition

/-- The name of the effect in scripts. -/
def effectName : String := "transition"

def isFinished (transition : MaskTransition) : Bool :=
  transition.progress ≥ 1

/-- One frame; progress stops at one. -/
def advance (transition : MaskTransition) : MaskTransition :=
  let progress := transition.progress + transition.speed
  { transition with progress := if progress ≥ 1 then 1 else progress }

def overlay (transition : MaskTransition) : Overlay :=
  { mask := transition.mask, origin := transition.origin, progress := transition.progress }

/-- Puts the state of a transition on its layer. -/
def render (transition : MaskTransition) (scene : Scene) : Scene :=
  scene.setOverlay transition.layer
    (if transition.isFinished then none else some transition.overlay)

/-- One frame of all transitions; those complete are dropped. -/
def advanceAll : List MaskTransition → Scene → List MaskTransition × Scene
  | [], scene => ([], scene)
  | transition :: rest, scene =>
    let next := transition.advance
    let (rest, scene) := advanceAll rest (next.render scene)
    (if next.isFinished then rest else next :: rest, scene)

end MaskTransition

end VisualNovel
