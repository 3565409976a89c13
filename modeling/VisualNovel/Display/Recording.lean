import VisualNovel.Display.Sink

/-!
# A display that records

It shows nothing and keeps the commands it accepted, in order. Layers and
missing images are fixed beforehand; text is ready at once, or only when
completed.
-/

namespace VisualNovel

structure RecordingDisplay where
  layerCount : Nat := 5
  missing : List String := []
  instantText : Bool := true
  textReady : Bool := true
  commands : Array DisplayCommand := #[]
  deriving DecidableEq, Repr, Inhabited

namespace RecordingDisplay

def texts (display : RecordingDisplay) : List String :=
  display.commands.toList.filterMap (·.text?)

def lastText (display : RecordingDisplay) : Option String :=
  display.texts.getLast?

/-- The layer is checked before the image. -/
def refusal? (display : RecordingDisplay) (command : DisplayCommand) : Option DisplayError :=
  match command.layer? with
  | none => none
  | some layer =>
    if display.layerCount ≤ layer then
      some (.runtime (.layerOutOfRange layer display.layerCount))
    else
      match command.asset? with
      | none => none
      | some path => if path ∈ display.missing then some (.asset path "文件不存在") else none

def record (display : RecordingDisplay) (command : DisplayCommand) : RecordingDisplay :=
  { display with
    commands := display.commands.push command
    textReady := if command.text?.isSome then display.instantText else display.textReady }

def execute (display : RecordingDisplay) (command : DisplayCommand) :
    Response RecordingDisplay :=
  match display.refusal? command with
  | some error => { display, refusal := some error }
  | none => { display := display.record command }

def completeText (display : RecordingDisplay) : RecordingDisplay :=
  { display with textReady := true }

def sink : DisplaySink RecordingDisplay where
  execute := execute
  isTextReady := textReady
  completeText := completeText

end RecordingDisplay

end VisualNovel
