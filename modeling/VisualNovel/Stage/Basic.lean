import VisualNovel.Config.Basic
import VisualNovel.Display.Sink
import VisualNovel.Files.Tree
import VisualNovel.Stage.Mask

/-!
# The stage

The display that keeps a scene. It draws nothing and looks at images only to see
whether their files are there. A transition that cannot be shown is logged, and
the background changes at once.
-/

namespace VisualNovel

structure Stage where
  scene : Scene
  transitions : List MaskTransition := []
  files : Files
  assetsRoot : String
  transitionSpeed : Float32

namespace Stage

def ofConfig (config : Config) (files : Files) : Stage :=
  { scene := .new config.layerCount config.window.width config.text.charDelay config.text.columns
    files
    assetsRoot := config.assetsRoot
    transitionSpeed := config.effects.transitionSpeed }

/-- One frame of the text and the transitions. -/
def update (stage : Stage) : Stage :=
  let (transitions, scene) := MaskTransition.advanceAll stage.transitions stage.scene.updateText
  { stage with transitions, scene }

def checkAsset (stage : Stage) (path : String) : Except DisplayError Unit :=
  let full := Path.join stage.assetsRoot path
  if stage.files.isFile full then .ok () else .error (.asset path s!"文件不存在: {full}")

-- ---------------------------------------------------------------------------
-- Commands
-- ---------------------------------------------------------------------------

/-- The transition to start on a layer, or why the background changes at once. -/
def transitionFor (stage : Stage) (layer : Nat) (origin : Option String)
    (transition : Transition) : Except LogEvent MaskTransition :=
  if transition.name ≠ MaskTransition.effectName then
    .error (.unknownTransition transition.name)
  else
    match transition.args.head? with
    | none => .error .maskNotGiven
    | some mask =>
      match stage.checkAsset mask with
      | .error error => .error (.maskRefused error)
      | .ok () => .ok { layer, mask, origin, speed := stage.transitionSpeed }

def startTransition (stage : Stage) (layer : Nat) (origin : Option String) :
    Option Transition → Stage × List LogEvent
  | none => (stage, [])
  | some transition =>
    match stage.transitionFor layer origin transition with
    | .ok started => ({ stage with transitions := stage.transitions ++ [started] }, [])
    | .error event => (stage, [event])

def refuse (stage : Stage) (error : DisplayError) : Response Stage :=
  { display := stage, refusal := some error }

/-- The scene after a change, or the refusal of it. -/
def adopt (stage : Stage) (log : List LogEvent) : Except RuntimeError Scene → Response Stage
  | .ok scene => { display := { stage with scene }, log }
  | .error error => { display := stage, refusal := some (.runtime error), log }

/-- The image is checked before the layer. -/
def setImage (stage : Stage) (layer : Nat) (path : String) (transition : Option Transition) :
    Response Stage :=
  match stage.checkAsset path with
  | .error error => stage.refuse error
  | .ok () =>
    match stage.scene.layers[layer]? with
    | none => stage.refuse (.runtime (stage.scene.outOfRange layer))
    | some current =>
      let (stage, log) := stage.startTransition layer current.image transition
      stage.adopt log (stage.scene.setImage layer path)

def setCharacter (stage : Stage) (layer : Nat) (sprite : Sprite) : Response Stage :=
  match stage.checkAsset sprite.path with
  | .error error => stage.refuse error
  | .ok () => stage.adopt [] (stage.scene.setCharacter layer sprite)

def execute (stage : Stage) : DisplayCommand → Response Stage
  | .showText content => { display := { stage with scene := stage.scene.showText content } }
  | .setImage layer path transition => stage.setImage layer path transition
  | .setCharacter layer position path => stage.setCharacter layer { position, path }
  | .clearLayer layer => stage.adopt [] (stage.scene.clearLayer layer)
  | .presentChoices choices =>
    { display := { stage with scene := stage.scene.showChoices choices } }
  | .hideChoices => { display := { stage with scene := stage.scene.hideChoices } }

def isTextReady (stage : Stage) : Bool :=
  stage.scene.text.isReady

def completeText (stage : Stage) : Stage :=
  { stage with scene := stage.scene.completeText }

def sink : DisplaySink Stage where
  execute := execute
  isTextReady := isTextReady
  completeText := completeText

end Stage

end VisualNovel
