import VisualNovel.Config.Serial
import VisualNovel.Files.Tree
import VisualNovel.Json.Printer
import VisualNovel.Json.Reader

/-!
# Configuration files

Reading and writing a configuration, and what makes one unfit to play a story
with. Of several faults the first in the order of `faults` is reported.
-/

namespace VisualNovel

inductive ConfigFault where
  | noStartScript
  | assetsMissing (root : String)
  | startScriptMissing (path : String)
  | noLayers
  | emptyWindow
  | noColumns
  | transitionSpeed
  | affectionRange (range : AffectionRange)
  | noChainSteps
  deriving DecidableEq, Repr

def ConfigFault.message : ConfigFault → String
  | .noStartScript => "必须配置 start_script_path（入口脚本路径）"
  | .assetsMissing root => s!"资源目录不存在: {root}"
  | .startScriptMissing path => s!"入口脚本不存在: {path}"
  | .noLayers => "layer_count 至少为 1"
  | .emptyWindow => "窗口尺寸必须大于 0"
  | .noColumns => "text.max_columns 至少为 1"
  | .transitionSpeed => "过渡速度必须在 (0.0, 1.0] 之间"
  | .affectionRange range => s!"好感度下限 {range.min.toInt} 大于上限 {range.max.toInt}"
  | .noChainSteps => "runtime.max_chain_steps 至少为 1"

inductive ConfigError where
  | notFound (path : String)
  | malformed
  | unreadable (failure : ReadFailure)
  | invalid (fault : ConfigFault)
  | logLevel (text : String)
  deriving DecidableEq, Repr

def ConfigError.message : ConfigError → String
  | .notFound path => s!"配置文件不存在: {path}"
  | .malformed => "配置序列化失败"
  | .unreadable failure => s!"配置 IO 错误: {failure.message}"
  | .invalid fault => s!"配置验证失败: {fault.message}"
  | .logLevel text => s!"无法识别的日志级别: '{text}'"

inductive LogLevel where
  | off | error | warn | info | debug | trace
  deriving DecidableEq, Repr

namespace LogLevel

def name : LogLevel → String
  | .off => "off"
  | .error => "error"
  | .warn => "warn"
  | .info => "info"
  | .debug => "debug"
  | .trace => "trace"

def all : List LogLevel := [.off, .error, .warn, .info, .debug, .trace]

/-- A level's name in any case, or its place in the order of the levels, from 0.
The empty text stands for errors only. -/
def ofText? (text : String) : Option LogLevel :=
  match (Text.index? text).bind (all[·]?) with
  | some level => some level
  | none =>
    if text = "" then some .error
    else all.find? fun level => level.name.toList = text.toList.map Char.toLower

end LogLevel

namespace Config

def logLevel? (config : Config) : Except ConfigError LogLevel :=
  match LogLevel.ofText? config.debug.logLevel with
  | some level => .ok level
  | none => .error (.logLevel config.debug.logLevel)

-- ---------------------------------------------------------------------------
-- Faults
-- ---------------------------------------------------------------------------

/-- Every fault of a configuration, the one to report first. -/
def faults (config : Config) (files : Files) : List ConfigFault :=
  let speed := config.effects.transitionSpeed
  let range := config.story.affection
  List.flatten
    [ if config.startScript = "" then [.noStartScript] else [],
      if files.contains config.assetsRoot then [] else [.assetsMissing config.assetsRoot],
      if files.isFile config.startScriptPath then []
        else [.startScriptMissing config.startScriptPath],
      if config.layerCount = 0 then [.noLayers] else [],
      if config.window.width = 0 ∨ config.window.height = 0 then [.emptyWindow] else [],
      if config.text.columns = 0 then [.noColumns] else [],
      if speed > 0 ∧ speed ≤ 1 then [] else [.transitionSpeed],
      if range.max < range.min then [.affectionRange range] else [],
      if config.story.maxChainSteps = 0 then [.noChainSteps] else [] ]

def validate (config : Config) (files : Files) : Except ConfigError Unit :=
  match config.faults files with
  | fault :: _ => .error (.invalid fault)
  | [] => config.logLevel?.map fun _ => ()

-- ---------------------------------------------------------------------------
-- Files
-- ---------------------------------------------------------------------------

def load (files : Files) (path : String) : Except ConfigError Config :=
  if files.contains path then
    match files.readText path with
    | .error failure => .error (.unreadable failure)
    | .ok text =>
      match (Json.ofText? text).bind ofJson? with
      | some config => .ok config
      | none => .error .malformed
  else .error (.notFound path)

/-- The configuration of a file, or the default one if it cannot be had. -/
def loadOrDefault (files : Files) (path : String) : Config :=
  match load files path with
  | .ok config => config
  | .error _ => {}

def fileText (config : Config) : String :=
  config.toJson.pretty

def save (config : Config) (files : Files) (path : String) : Except ConfigError Files :=
  (files.writeText path config.fileText).mapError .unreadable

end Config

end VisualNovel
