import VisualNovel.Error
import VisualNovel.Stage.Menu
import VisualNovel.Stage.Reveal
import VisualNovel.Stage.Wrap

/-!
# The scene

What would be on screen: layers with a background image and a character each,
the dialogue text and the menu. A new background takes the place of the last
one, on whatever layer that was; characters do the same among themselves.
-/

namespace VisualNovel

structure Sprite where
  position : String
  path : String
  deriving DecidableEq, Repr, Inhabited

/-- A transition under way on a layer. -/
structure Overlay where
  mask : String
  /-- The background from before the transition. -/
  origin : Option String
  progress : Float32
  deriving Inhabited

structure Layer where
  image : Option String := none
  character : Option Sprite := none
  overlay : Option Overlay := none
  deriving Inhabited

def Layer.isVisible (layer : Layer) : Bool :=
  layer.image.isSome || layer.character.isSome

structure Scene where
  layers : List Layer
  /-- The layer the last background was put on. -/
  imageLayer : Option Nat := none
  characterLayer : Option Nat := none
  text : Reveal
  columns : Nat
  screenWidth : Nat
  menu : Option Menu := none

namespace Scene

def new (layerCount screenWidth delay columns : Nat) : Scene :=
  { layers := List.replicate layerCount {}, text := { delay }, columns, screenWidth }

def layerCount (scene : Scene) : Nat :=
  scene.layers.length

def modifyLayer (scene : Scene) (index : Nat) (f : Layer → Layer) : Scene :=
  { scene with layers := scene.layers.modify index f }

def modifyLayer? (scene : Scene) (index : Option Nat) (f : Layer → Layer) : Scene :=
  match index with
  | some index => scene.modifyLayer index f
  | none => scene

def outOfRange (scene : Scene) (index : Nat) : RuntimeError :=
  .layerOutOfRange index scene.layerCount

/-- A change that takes a layer at the index. -/
def atLayer (scene : Scene) (index : Nat) (changed : Scene) : Except RuntimeError Scene :=
  if index < scene.layerCount then .ok changed else .error (scene.outOfRange index)

/-- Takes something away from the layer that had it last, and puts another on a layer. -/
def exchange (scene : Scene) (last : Option Nat) (take : Layer → Layer) (index : Nat)
    (fill : Layer → Layer) : Scene :=
  (scene.modifyLayer? last take).modifyLayer index fill

def setImage (scene : Scene) (index : Nat) (path : String) : Except RuntimeError Scene :=
  scene.atLayer index
    { scene.exchange scene.imageLayer ({ · with image := none }) index
        ({ · with image := some path }) with
      imageLayer := some index }

def setCharacter (scene : Scene) (index : Nat) (sprite : Sprite) : Except RuntimeError Scene :=
  scene.atLayer index
    { scene.exchange scene.characterLayer ({ · with character := none }) index
        ({ · with character := some sprite }) with
      characterLayer := some index }

def clearLayer (scene : Scene) (index : Nat) : Except RuntimeError Scene :=
  scene.atLayer index (scene.modifyLayer index fun _ => {})

def setOverlay (scene : Scene) (index : Nat) (overlay : Option Overlay) : Scene :=
  scene.modifyLayer index ({ · with overlay })

def showText (scene : Scene) (text : String) : Scene :=
  { scene with text := scene.text.setText text }

def showChoices (scene : Scene) (choices : List Choice) : Scene :=
  { scene with menu := some (.layout choices scene.screenWidth) }

def hideChoices (scene : Scene) : Scene :=
  { scene with menu := none }

def completeText (scene : Scene) : Scene :=
  { scene with text := scene.text.complete }

def updateText (scene : Scene) : Scene :=
  { scene with text := scene.text.update }

/-- The lines of the text shown so far. -/
def textLines (scene : Scene) : List String :=
  Wrap.lines scene.text.visible scene.columns

end Scene

end VisualNovel
