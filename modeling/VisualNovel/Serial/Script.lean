import VisualNovel.Display.Command
import VisualNovel.Script.Branch
import VisualNovel.Serial.Record
import VisualNovel.Text.Integer

/-!
# Script and display commands in JSON
-/

namespace VisualNovel

def Json.index? : Json → Option Nat := Json.natUpTo? Text.maxIndex

def Json.ofInt32 (n : Int32) : Json := .int n.toInt

namespace Comparison

def toJson : Comparison → Json
  | .ge => .string "Ge"
  | .le => .string "Le"
  | .gt => .string "Gt"
  | .lt => .string "Lt"
  | .eq => .string "Eq"
  | .ne => .string "Ne"
  | .unknown operator => .object [("Unknown", .string operator)]

def ofJson? (json : Json) : Option Comparison := do
  let v ← Variant.ofJson? json
  match v.name with
  | "Ge" => v.unit? .ge
  | "Le" => v.unit? .le
  | "Gt" => v.unit? .gt
  | "Lt" => v.unit? .lt
  | "Eq" => v.unit? .eq
  | "Ne" => v.unit? .ne
  | "Unknown" => v.newtype? fun json => json.string?.map .unknown
  | _ => none

end Comparison

namespace Condition

def toJson : Condition → Json
  | .affection who comparison value =>
    .variant "Affection"
      [("character", .string who), ("op", comparison.toJson), ("value", .ofInt32 value)]
  | .invalid text => .variant "Invalid" [("text", .string text)]

def ofJson? (json : Json) : Option Condition := do
  let v ← Variant.ofJson? json
  match v.name with
  | "Affection" =>
    let r ← v.fields? ["character", "op", "value"]
    let who ← r.required "character" Json.string?
    let comparison ← r.required "op" Comparison.ofJson?
    let value ← r.required "value" Json.int32?
    return .affection who comparison value
  | "Invalid" =>
    let r ← v.fields? ["text"]
    let text ← r.required "text" Json.string?
    return .invalid text
  | _ => none

end Condition

namespace Choice

def toJson (choice : Choice) : Json :=
  .object [("text", .string choice.text), ("target_label", .string choice.target)]

def ofJson? (json : Json) : Option Choice := do
  let r ← Record.ofJson? ["text", "target_label"] json
  let text ← r.required "text" Json.string?
  let target ← r.required "target_label" Json.string?
  return { text, target }

end Choice

namespace Transition

def toJson (transition : Transition) : Json :=
  .object [("name", .string transition.name), ("args", .ofList .string transition.args)]

def ofJson? (json : Json) : Option Transition := do
  let r ← Record.ofJson? ["name", "args"] json
  let name ← r.required "name" Json.string?
  let args ← r.required "args" (Json.listOf? Json.string?)
  return { name, args }

end Transition

namespace Command

def toJson : Command → Json
  | .background layer path transition =>
    .variant "Background"
      [("layer", .nat layer), ("path", .string path),
        ("transition", .ofOption Transition.toJson transition)]
  | .character layer position path =>
    .variant "Character"
      [("layer", .nat layer), ("position", .string position), ("path", .string path)]
  | .choice options => .variant "Choice" [("options", .ofList Choice.toJson options)]
  | .affection who delta =>
    .variant "Affection" [("character", .string who), ("delta", .ofInt32 delta)]
  | .ifHolds condition => .variant "If" [("condition", condition.toJson)]
  | .elseIf condition => .variant "ElseIf" [("condition", condition.toJson)]
  | .otherwise => .string "Else"
  | .endIf => .string "EndIf"
  | .jump label => .variant "Jump" [("label", .string label)]
  | .clear layer => .variant "Clear" [("layer", .nat layer)]
  | .unknown name => .variant "Unknown" [("name", .string name)]
  | .invalid name => .variant "Invalid" [("name", .string name)]

def ofJson? (json : Json) : Option Command := do
  let v ← Variant.ofJson? json
  match v.name with
  | "Background" =>
    let r ← v.fields? ["layer", "path", "transition"]
    let layer ← r.required "layer" Json.index?
    let path ← r.required "path" Json.string?
    let transition ← r.optional "transition" Transition.ofJson?
    return .background layer path transition
  | "Character" =>
    let r ← v.fields? ["layer", "position", "path"]
    let layer ← r.required "layer" Json.index?
    let position ← r.required "position" Json.string?
    let path ← r.required "path" Json.string?
    return .character layer position path
  | "Choice" =>
    let r ← v.fields? ["options"]
    let options ← r.required "options" (Json.listOf? Choice.ofJson?)
    return .choice options
  | "Affection" =>
    let r ← v.fields? ["character", "delta"]
    let who ← r.required "character" Json.string?
    let delta ← r.required "delta" Json.int32?
    return .affection who delta
  | "If" =>
    let r ← v.fields? ["condition"]
    let condition ← r.required "condition" Condition.ofJson?
    return .ifHolds condition
  | "ElseIf" =>
    let r ← v.fields? ["condition"]
    let condition ← r.required "condition" Condition.ofJson?
    return .elseIf condition
  | "Else" => v.unit? .otherwise
  | "EndIf" => v.unit? .endIf
  | "Jump" =>
    let r ← v.fields? ["label"]
    let label ← r.required "label" Json.string?
    return .jump label
  | "Clear" =>
    let r ← v.fields? ["layer"]
    let layer ← r.required "layer" Json.index?
    return .clear layer
  | "Unknown" =>
    let r ← v.fields? ["name"]
    let name ← r.required "name" Json.string?
    return .unknown name
  | "Invalid" =>
    let r ← v.fields? ["name"]
    let name ← r.required "name" Json.string?
    return .invalid name
  | _ => none

end Command

namespace DisplayCommand

def toJson : DisplayCommand → Json
  | .showText content => .variant "ShowText" [("content", .string content)]
  | .setImage layer path transition =>
    .variant "SetImage"
      [("layer", .nat layer), ("path", .string path),
        ("transition", .ofOption Transition.toJson transition)]
  | .setCharacter layer position path =>
    .variant "SetCharacter"
      [("layer", .nat layer), ("position", .string position), ("path", .string path)]
  | .clearLayer layer => .variant "ClearLayer" [("layer", .nat layer)]
  | .presentChoices choices =>
    .variant "PresentChoices" [("choices", .ofList Choice.toJson choices)]
  | .hideChoices => .string "HideChoices"

def ofJson? (json : Json) : Option DisplayCommand := do
  let v ← Variant.ofJson? json
  match v.name with
  | "ShowText" =>
    let r ← v.fields? ["content"]
    let content ← r.required "content" Json.string?
    return .showText content
  | "SetImage" =>
    let r ← v.fields? ["layer", "path", "transition"]
    let layer ← r.required "layer" Json.index?
    let path ← r.required "path" Json.string?
    let transition ← r.optional "transition" Transition.ofJson?
    return .setImage layer path transition
  | "SetCharacter" =>
    let r ← v.fields? ["layer", "position", "path"]
    let layer ← r.required "layer" Json.index?
    let position ← r.required "position" Json.string?
    let path ← r.required "path" Json.string?
    return .setCharacter layer position path
  | "ClearLayer" =>
    let r ← v.fields? ["layer"]
    let layer ← r.required "layer" Json.index?
    return .clearLayer layer
  | "PresentChoices" =>
    let r ← v.fields? ["choices"]
    let choices ← r.required "choices" (Json.listOf? Choice.ofJson?)
    return .presentChoices choices
  | "HideChoices" => v.unit? .hideChoices
  | _ => none

end DisplayCommand

namespace BranchScan

def toJson : BranchScan → Json
  | .nested => .string "nested"
  | .linear => .string "linear"

def ofJson? (json : Json) : Option BranchScan := do
  let v ← Variant.ofJson? json
  match v.name with
  | "nested" => v.unit? .nested
  | "linear" => v.unit? .linear
  | _ => none

end BranchScan

end VisualNovel
