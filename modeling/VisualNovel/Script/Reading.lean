import VisualNovel.Script.Command
import VisualNovel.Script.Error
import VisualNovel.Text.Blank
import VisualNovel.Text.Integer

/-!
# Reading commands

The body of a command is its words; there are no quotes and no escapes. Reading
always gives a command, together with the faults found on the way.
-/

namespace VisualNovel

/-- What was read, and the faults recovered from. -/
structure Reading (α : Type) where
  value : α
  errors : List ScriptError := []
  deriving DecidableEq, Repr

namespace Reading

def refused (name : String) (error : ScriptError) : Reading Command :=
  ⟨.invalid name, [error]⟩

def map (f : α → β) (reading : Reading α) : Reading β :=
  ⟨f reading.value, reading.errors⟩

-- ---------------------------------------------------------------------------
-- Arguments
-- ---------------------------------------------------------------------------

/-- A signed number; one that cannot be read counts as zero. -/
def amount (param word : String) : Reading Int32 :=
  match Text.amount? word with
  | some value => ⟨value, []⟩
  | none => ⟨0, [.invalidInteger param word]⟩

def layer (command : String) : Option String → Except ScriptError Nat
  | none => .error (.missingArgument command "layer")
  | some word =>
    match Text.index? word with
    | some layer => .ok layer
    | none => .error (.invalidLayer command word)

def condition (args : List String) : Reading Condition :=
  let text := " ".intercalate args
  match args with
  | subject :: character :: operator :: word :: _ =>
    if subject = "affection" then
      let comparison := Comparison.ofText operator
      let unknown : List ScriptError :=
        match comparison with
        | .unknown operator => [.unknownOperator operator]
        | _ => []
      let value := amount "value" word
      ⟨.affection character comparison value.value, unknown ++ value.errors⟩
    else ⟨.invalid text, [.unknownConditionSubject subject]⟩
  | _ => ⟨.invalid text, [.incompleteCondition text]⟩

-- ---------------------------------------------------------------------------
-- Commands
-- ---------------------------------------------------------------------------

def background (args : List String) : Reading Command :=
  match layer "bg" args.head? with
  | .error e => refused "bg" e
  | .ok layer =>
    match args.drop 1 with
    | [] => refused "bg" (.missingArgument "bg" "image")
    | [path] => ⟨.background layer path none, []⟩
    | [path, _] => ⟨.background layer path none, [.missingArgument "bg" "transition"]⟩
    | path :: mask :: name :: extra =>
      ⟨.background layer path (some ⟨name, mask :: extra⟩), []⟩

def character (args : List String) : Reading Command :=
  match layer "chara" args.head? with
  | .error e => refused "chara" e
  | .ok layer =>
    match args.drop 1 with
    | [] => refused "chara" (.missingArgument "chara" "position")
    | [_] => refused "chara" (.missingArgument "chara" "image")
    | position :: path :: _ => ⟨.character layer position path, []⟩

/-- Options are read in threes, text, arrow and label, and end at the first
group that is not one. -/
def options (group : Nat) : List String → Reading (List Choice)
  | [] => ⟨[], []⟩
  | text :: arrow :: label :: rest =>
    if arrow = "->" then (options (group + 1) rest).map (⟨text, label⟩ :: ·)
    else ⟨[], [.malformedChoice group s!"缺少 '->'，实际为 '{arrow}'"]⟩
  | chunk => ⟨[], [.malformedChoice group ("不完整的选项: " ++ " ".intercalate chunk)]⟩

def affection : List String → Reading Command
  | [] => refused "affection" (.missingArgument "affection" "character")
  | [_] => refused "affection" (.missingArgument "affection" "delta")
  | character :: word :: _ => (amount "delta" word).map (.affection character ·)

def jump : List String → Reading Command
  | [] => refused "jump" (.missingArgument "jump" "label")
  | label :: _ => ⟨.jump label, []⟩

def clear (args : List String) : Reading Command :=
  match layer "clear" args.head? with
  | .error e => refused "clear" e
  | .ok layer => ⟨.clear layer, []⟩

def ofWords : List String → Reading Command
  | [] => refused "" .emptyCommand
  | "bg" :: args => background args
  | "chara" :: args => character args
  | "choice" :: args => (options 1 args).map .choice
  | "affection" :: args => affection args
  | "if" :: args => (condition args).map .ifHolds
  | "elseif" :: args => (condition args).map .elseIf
  | "else" :: _ => ⟨.otherwise, []⟩
  | "endif" :: _ => ⟨.endIf, []⟩
  | "jump" :: args => jump args
  | "clear" :: args => clear args
  | name :: _ => ⟨.unknown name, []⟩

end Reading

def Command.read (body : String) : Reading Command :=
  Reading.ofWords (Text.words body)

end VisualNovel
