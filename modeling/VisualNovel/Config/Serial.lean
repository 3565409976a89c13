import VisualNovel.Config.Basic
import VisualNovel.Json.Single
import VisualNovel.Serial.Interpreter

/-!
# Configuration in JSON

Every field has a default and may be left out.
-/

namespace VisualNovel

/-- The largest width, height or delay. -/
def maxExtent : Nat := UInt32.size - 1

def Json.extent? : Json → Option Nat := Json.natUpTo? maxExtent

namespace WindowConfig

def toJson (window : WindowConfig) : Json :=
  .object
    [("width", .nat window.width), ("height", .nat window.height),
      ("title", .string window.title)]

def ofJson? (json : Json) : Option WindowConfig := do
  let r ← Record.ofJson? ["width", "height", "title"] json
  let fallback : WindowConfig := {}
  let width ← r.withDefault "width" fallback.width Json.extent?
  let height ← r.withDefault "height" fallback.height Json.extent?
  let title ← r.withDefault "title" fallback.title Json.string?
  return { width, height, title }

end WindowConfig

namespace TextConfig

def toJson (text : TextConfig) : Json :=
  .object [("char_delay_frames", .nat text.charDelay), ("max_columns", .nat text.columns)]

def ofJson? (json : Json) : Option TextConfig := do
  let r ← Record.ofJson? ["char_delay_frames", "max_columns"] json
  let fallback : TextConfig := {}
  let charDelay ← r.withDefault "char_delay_frames" fallback.charDelay Json.extent?
  let columns ← r.withDefault "max_columns" fallback.columns Json.index?
  return { charDelay, columns }

end TextConfig

namespace EffectConfig

def toJson (effects : EffectConfig) : Json :=
  .object [("transition_speed", .ofSingle effects.transitionSpeed)]

def ofJson? (json : Json) : Option EffectConfig := do
  let r ← Record.ofJson? ["transition_speed"] json
  let fallback : EffectConfig := {}
  let transitionSpeed ← r.withDefault "transition_speed" fallback.transitionSpeed Json.single?
  return { transitionSpeed }

end EffectConfig

namespace DebugConfig

def toJson (debug : DebugConfig) : Json :=
  .object [("script_check", .bool debug.scriptCheck), ("log_level", .string debug.logLevel)]

def ofJson? (json : Json) : Option DebugConfig := do
  let r ← Record.ofJson? ["script_check", "log_level"] json
  let fallback : DebugConfig := {}
  let scriptCheck ← r.withDefault "script_check" fallback.scriptCheck Json.bool?
  let logLevel ← r.withDefault "log_level" fallback.logLevel Json.string?
  return { scriptCheck, logLevel }

end DebugConfig

namespace Config

def toJson (config : Config) : Json :=
  .object
    [("assets_root", .string config.assetsRoot), ("start_script_path", .string config.startScript),
      ("layer_count", .nat config.layerCount), ("window", config.window.toJson),
      ("text", config.text.toJson), ("effects", config.effects.toJson),
      ("runtime", config.story.toJson), ("debug", config.debug.toJson)]

def ofJson? (json : Json) : Option Config := do
  let r ← Record.ofJson?
    ["assets_root", "start_script_path", "layer_count", "window", "text", "effects", "runtime",
      "debug"] json
  let fallback : Config := {}
  let assetsRoot ← r.withDefault "assets_root" fallback.assetsRoot Json.string?
  let startScript ← r.withDefault "start_script_path" fallback.startScript Json.string?
  let layerCount ← r.withDefault "layer_count" fallback.layerCount Json.index?
  let window ← r.withDefault "window" fallback.window WindowConfig.ofJson?
  let text ← r.withDefault "text" fallback.text TextConfig.ofJson?
  let effects ← r.withDefault "effects" fallback.effects EffectConfig.ofJson?
  let story ← r.withDefault "runtime" fallback.story Options.ofJson?
  let debug ← r.withDefault "debug" fallback.debug DebugConfig.ofJson?
  return { assetsRoot, startScript, layerCount, window, text, effects, story, debug }

end Config

end VisualNovel
