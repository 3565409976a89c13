import VisualNovel.Files.Path
import VisualNovel.Interpreter.Basic

/-!
# Configuration
-/

namespace VisualNovel

structure WindowConfig where
  width : Nat := 1280
  height : Nat := 720
  title : String := "Visual Novel Engine"
  deriving DecidableEq, Repr, Inhabited

structure TextConfig where
  /-- Frames a character takes to appear; zero shows text at once. -/
  charDelay : Nat := 2
  columns : Nat := 40
  deriving DecidableEq, Repr, Inhabited

structure EffectConfig where
  /-- How far a transition advances each frame. -/
  transitionSpeed : Float32 := 0.01
  deriving BEq, Inhabited

structure DebugConfig where
  /-- Whether the script is checked before it is played. -/
  scriptCheck : Bool := true
  logLevel : String := "info"
  deriving DecidableEq, Repr, Inhabited

structure Config where
  assetsRoot : String := "."
  /-- Where the story starts, seen from the assets. -/
  startScript : String := "resource/script/first.rgo"
  layerCount : Nat := 5
  window : WindowConfig := {}
  text : TextConfig := {}
  effects : EffectConfig := {}
  story : Options := {}
  debug : DebugConfig := {}
  deriving BEq, Inhabited

def Config.startScriptPath (config : Config) : String :=
  Path.join config.assetsRoot config.startScript

end VisualNovel
