import VisualNovel.Interpreter.Basic
import VisualNovel.Serial.Script

/-!
# Inputs, states and options of an interpreter in JSON
-/

namespace VisualNovel

namespace Input

def toJson : Input → Json
  | .click => .string "Click"
  | .hover index => .variant "ChoiceHovered" [("index", .nat index)]
  | .select index => .variant "ChoiceSelected" [("index", .nat index)]

def ofJson? (json : Json) : Option Input := do
  let v ← Variant.ofJson? json
  match v.name with
  | "Click" => v.unit? .click
  | "ChoiceHovered" =>
    let r ← v.fields? ["index"]
    let index ← r.required "index" Json.index?
    return .hover index
  | "ChoiceSelected" =>
    let r ← v.fields? ["index"]
    let index ← r.required "index" Json.index?
    return .select index
  | _ => none

end Input

namespace Suspend

def toJson (suspend : Suspend) : Json :=
  .string suspend.name

def ofJson? (json : Json) : Option Suspend := do
  let v ← Variant.ofJson? json
  match v.name with
  | "Running" => v.unit? .running
  | "WaitingForInput" => v.unit? .waitingForInput
  | "WaitingForChoice" => v.unit? .waitingForChoice
  | _ => none

end Suspend

namespace Cursor

/-- The stack of branches is written outermost first. -/
def toJson (cursor : Cursor) : Json :=
  .object
    [("current_line", .nat cursor.line),
      ("pending_jump", .ofOption .string cursor.pendingJump),
      ("conditional_stack", .ofList .bool cursor.branches.reverse)]

def ofJson? (json : Json) : Option Cursor := do
  let r ← Record.ofJson? ["current_line", "pending_jump", "conditional_stack"] json
  let line ← r.required "current_line" Json.index?
  let pendingJump ← r.optional "pending_jump" Json.string?
  let branches ← r.required "conditional_stack" (Json.listOf? Json.bool?)
  return { line, pendingJump, branches := branches.reverse }

end Cursor

namespace AffectionRange

def toJson (range : AffectionRange) : Json :=
  .object
    [("min", .ofInt32 range.min), ("max", .ofInt32 range.max),
      ("default_value", .ofInt32 range.initial)]

def ofJson? (json : Json) : Option AffectionRange := do
  let r ← Record.ofJson? ["min", "max", "default_value"] json
  let fallback : AffectionRange := {}
  let min ← r.withDefault "min" fallback.min Json.int32?
  let max ← r.withDefault "max" fallback.max Json.int32?
  let initial ← r.withDefault "default_value" fallback.initial Json.int32?
  return { min, max, initial }

end AffectionRange

namespace Options

def toJson (options : Options) : Json :=
  .object
    [("affection", options.affection.toJson), ("branch_scan", options.branchScan.toJson),
      ("max_chain_steps", .nat options.maxChainSteps)]

def ofJson? (json : Json) : Option Options := do
  let r ← Record.ofJson? ["affection", "branch_scan", "max_chain_steps"] json
  let fallback : Options := {}
  let affection ← r.withDefault "affection" fallback.affection AffectionRange.ofJson?
  let branchScan ← r.withDefault "branch_scan" fallback.branchScan BranchScan.ofJson?
  let maxChainSteps ← r.withDefault "max_chain_steps" fallback.maxChainSteps Json.index?
  return { affection, branchScan, maxChainSteps }

end Options

end VisualNovel
