import VisualNovel.CommandLine.Arguments
import VisualNovel.Config.File
import VisualNovel.Diagnostic.Check
import VisualNovel.Playthrough

/-!
# Playing from the command line

Reads the configuration, lets the arguments override it, checks the script if
asked to, and plays it. The transcript goes to standard output.
-/

namespace VisualNovel.CommandLine

structure PlayOptions where
  config : String := "config.json"
  assetsRoot : Option String := none
  script : Option String := none
  choices : List Nat := []
  maxFrames : Nat := 100000
  skipReveal : Bool := false
  logLevel : Option String := none
  check : Bool := false
  deriving Repr

namespace PlayOptions

def isIndex (text : String) : Bool :=
  (Text.index? text).isSome

/-- The parts of a list separated by commas. -/
def listItems (text : String) : List String :=
  (text.splitOn ",")

def spec : Spec where
  options :=
    [ { long := "config", short := some 'c', kind := .value (· ≠ "") },
      { long := "assets-root", kind := .value (· ≠ "") },
      { long := "script", short := some 's', kind := .value fun _ => true },
      { long := "choices", kind := .value (listItems · |>.all isIndex), repeatable := true },
      { long := "max-frames", kind := .value isIndex },
      { long := "skip-reveal", kind := .switch },
      { long := "log-level", kind := .value fun _ => true },
      { long := "check", kind := .switch },
      { long := "help", short := some 'h', kind := .help },
      { long := "version", short := some 'V', kind := .version } ]

def ofArguments (arguments : Arguments) : PlayOptions :=
  { config := (arguments.value? "config").getD "config.json"
    assetsRoot := arguments.value? "assets-root"
    script := arguments.value? "script"
    choices := ((arguments.values "choices").flatMap listItems).filterMap Text.index?
    maxFrames := ((arguments.value? "max-frames").bind Text.index?).getD 100000
    skipReveal := arguments.has "skip-reveal"
    logLevel := arguments.value? "log-level"
    check := arguments.has "check" }

/-- The configuration with what the command line overrides. -/
def apply (options : PlayOptions) (config : Config) : Config :=
  { config with
    assetsRoot := options.assetsRoot.getD config.assetsRoot
    startScript := options.script.getD config.startScript
    debug := { config.debug with logLevel := options.logLevel.getD config.debug.logLevel } }

end PlayOptions

namespace Play

def fail (message : String) : Exit :=
  .done 1 "" s!"rengo error: {message}\n"

def transcriptText (play : Playthrough) : String :=
  String.join (play.transcript.toList.map (· ++ "\n"))

/-- Plays the story; one that is not over when the frames are used up ends with
code 2. -/
def play (options : PlayOptions) (config : Config) (files : Files) : Exit :=
  match Playthrough.start config files options.choices options.skipReveal with
  | .error error => fail error.chain
  | .ok start =>
    let run := start.run options.maxFrames
    match run.ending with
    | .failed error => fail error.message
    | .finished => .done 0 (transcriptText run.last) ""
    | .frameLimit => .done 2 (transcriptText run.last) ""

/-- Checks before playing, or only checks, in which case errors give code 1. -/
def checkAndPlay (options : PlayOptions) (config : Config) (files : Files) : Exit :=
  if options.check ∨ config.debug.scriptCheck then
    match checkScript files config.startScriptPath config.assetsRoot with
    | .error error => fail error.chain
    | .ok report =>
      if options.check then .done (if Report.hasErrors report then 1 else 0) "" ""
      else play options config files
  else play options config files

def run (options : PlayOptions) (files : Files) : Exit :=
  let config := options.apply (Config.loadOrDefault files options.config)
  match config.logLevel? with
  | .error error => fail error.message
  | .ok _ =>
    match config.validate files with
    | .error error => fail s!"配置无效: {error.message}"
    | .ok () => checkAndPlay options config files

def execute (words : List String) (files : Files) : Exit :=
  match PlayOptions.spec.parse words with
  | .arguments arguments => run (.ofArguments arguments) files
  | .version => .done 0 "rengo 0.1.0\n" ""
  | .help => .help
  | .rejected => .usage

end Play

end VisualNovel.CommandLine
