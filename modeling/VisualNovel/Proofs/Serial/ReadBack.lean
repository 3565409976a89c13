import VisualNovel.Proofs.Serial.Omission
import VisualNovel.Serial.Interpreter

/-!
# Reading values back

Every value that has a form in JSON is read back from it, if its indices are indices of 64 bits;
and options from which members were taken out are read with the defaults in their places
(`values_read_back`).
-/

namespace VisualNovel

-- ---------------------------------------------------------------------------
-- Conditions and commands
-- ---------------------------------------------------------------------------

theorem Comparison.ofJson?_toJson (comparison : Comparison) :
    ofJson? comparison.toJson = some comparison := by
  cases comparison <;> rfl

theorem Condition.ofJson?_toJson (condition : Condition) :
    ofJson? condition.toJson = some condition := by
  cases condition with
  | affection who comparison value => simp [ofJson?, toJson, comparison.ofJson?_toJson]
  | invalid text => simp [ofJson?, toJson]

theorem Choice.ofJson?_toJson (choice : Choice) : ofJson? choice.toJson = some choice := by
  simp [ofJson?, toJson]

namespace Transition

theorem ofJson?_toJson (transition : Transition) : ofJson? transition.toJson = some transition := by
  simp [ofJson?, toJson, Json.listOf?_ofList Json.string?_string]

theorem toJson_ne_null (transition : Transition) : transition.toJson ≠ .null := by
  simp [toJson]

/-- A transition that may be missing, as the last field of a record. -/
@[simp] theorem optional_toJson (transition : Option Transition) (field : String) :
    Record.optional ⟨true, [(field, .ofOption toJson transition)]⟩ field ofJson? =
      some transition :=
  Record.optional_cons_ofOption ofJson?_toJson toJson_ne_null ..

end Transition

namespace Command

def layer? : Command → Option Nat
  | .background layer .. | .character layer .. | .clear layer => some layer
  | _ => none

theorem ofJson?_toJson {command : Command} (h : ∀ layer ∈ command.layer?, layer ≤ Text.maxIndex) :
    ofJson? command.toJson = some command := by
  cases command with
  | background layer path transition | character layer position path | clear layer =>
    have hlayer : layer ≤ Text.maxIndex := h layer rfl
    simp [ofJson?, toJson, hlayer]
  | choice options => simp [ofJson?, toJson, Json.listOf?_ofList Choice.ofJson?_toJson]
  | affection who delta => simp [ofJson?, toJson]
  | ifHolds condition | elseIf condition => simp [ofJson?, toJson, condition.ofJson?_toJson]
  | jump text | unknown text | invalid text => simp [ofJson?, toJson]
  | otherwise | endIf => rfl

end Command

theorem DisplayCommand.ofJson?_toJson {command : DisplayCommand}
    (h : ∀ layer ∈ command.layer?, layer ≤ Text.maxIndex) :
    ofJson? command.toJson = some command := by
  cases command with
  | setImage layer path transition | setCharacter layer position path | clearLayer layer =>
    have hlayer : layer ≤ Text.maxIndex := h layer rfl
    simp [ofJson?, toJson, hlayer]
  | showText content => simp [ofJson?, toJson]
  | presentChoices choices => simp [ofJson?, toJson, Json.listOf?_ofList Choice.ofJson?_toJson]
  | hideChoices => rfl

-- ---------------------------------------------------------------------------
-- Inputs and states
-- ---------------------------------------------------------------------------

namespace Input

def index? : Input → Option Nat
  | .click => none
  | .hover index | .select index => some index

theorem ofJson?_toJson {input : Input} (h : ∀ index ∈ input.index?, index ≤ Text.maxIndex) :
    ofJson? input.toJson = some input := by
  cases input with
  | click => rfl
  | hover index | select index =>
    have hindex : index ≤ Text.maxIndex := h index rfl
    simp [ofJson?, toJson, hindex]

end Input

theorem Suspend.ofJson?_toJson (suspend : Suspend) : ofJson? suspend.toJson = some suspend := by
  cases suspend <;> rfl

theorem Cursor.ofJson?_toJson {cursor : Cursor} (h : cursor.line ≤ Text.maxIndex) :
    ofJson? cursor.toJson = some cursor := by
  have hjump := Record.optional_cons_ofOption Json.string?_string (by simp) true
    cursor.pendingJump [("conditional_stack", .ofList .bool cursor.branches.reverse)] "pending_jump"
  simp [ofJson?, toJson, h, hjump, Json.listOf?_ofList Json.bool?_bool]

-- ---------------------------------------------------------------------------
-- Options
-- ---------------------------------------------------------------------------

/-- It has no members to leave out. -/
theorem BranchScan.ofJson?_without (scan : BranchScan) (removed : List String → Bool) :
    ofJson? (scan.toJson.without removed) = some scan := by
  cases scan <;> rfl

theorem BranchScan.ofJson?_toJson (scan : BranchScan) : ofJson? scan.toJson = some scan := by
  have hread := scan.ofJson?_without fun _ => false
  rwa [Json.without_nothing] at hread

namespace AffectionRange

/-- The range with the defaults for the fields removed. -/
def defaulted (range : AffectionRange) (removed : List String → Bool) : AffectionRange :=
  let fallback : AffectionRange := {}
  { min := if removed ["min"] then fallback.min else range.min
    max := if removed ["max"] then fallback.max else range.max
    initial := if removed ["default_value"] then fallback.initial else range.initial }

theorem ofJson?_without (range : AffectionRange) (removed : List String → Bool) :
    ofJson? (range.toJson.without removed) = some (range.defaulted removed) := by
  let members : List (String × Json) :=
    [("min", .ofInt32 range.min), ("max", .ofInt32 range.max),
      ("default_value", .ofInt32 range.initial)]
  let record : Record := ⟨true, Json.membersWithout removed members⟩
  have hrecord : Record.ofJson? ["min", "max", "default_value"] (range.toJson.without removed) =
      some record := Record.ofJson?_without (by simp) removed
  have field (name : String) (value fallback : Int32)
      (h : members.lookup name = some (.ofInt32 value)) :
      record.withDefault name fallback Json.int32? =
        some (if removed [name] then fallback else value) :=
    Record.withDefault_without h (Json.int32?_ofInt32 value) fallback
  rw [ofJson?, hrecord]
  simp only [Option.bind_eq_bind, Option.bind_some, field "min" range.min _ rfl,
    field "max" range.max _ rfl, field "default_value" range.initial _ rfl]
  rfl

theorem ofJson?_toJson (range : AffectionRange) : ofJson? range.toJson = some range := by
  have hread := range.ofJson?_without fun _ => false
  rwa [Json.without_nothing] at hread

end AffectionRange

namespace Options

/-- The options with the defaults for the fields removed, those of the range among them. -/
def defaulted (options : Options) (removed : List String → Bool) : Options :=
  let fallback : Options := {}
  { affection :=
      if removed ["affection"] then fallback.affection
      else options.affection.defaulted fun path => removed ("affection" :: path)
    branchScan := if removed ["branch_scan"] then fallback.branchScan else options.branchScan
    maxChainSteps :=
      if removed ["max_chain_steps"] then fallback.maxChainSteps else options.maxChainSteps }

theorem ofJson?_without {options : Options} (h : options.maxChainSteps ≤ Text.maxIndex)
    (removed : List String → Bool) :
    ofJson? (options.toJson.without removed) = some (options.defaulted removed) := by
  let members : List (String × Json) :=
    [("affection", options.affection.toJson), ("branch_scan", options.branchScan.toJson),
      ("max_chain_steps", .nat options.maxChainSteps)]
  let record : Record := ⟨true, Json.membersWithout removed members⟩
  have hrecord : Record.ofJson? ["affection", "branch_scan", "max_chain_steps"]
      (options.toJson.without removed) = some record := Record.ofJson?_without (by simp) removed
  have haffection : record.withDefault "affection" {} AffectionRange.ofJson? = some _ :=
    Record.withDefault_without rfl (options.affection.ofJson?_without _) {}
  have hscan : record.withDefault "branch_scan" .nested BranchScan.ofJson? = some _ :=
    Record.withDefault_without rfl (options.branchScan.ofJson?_without _) .nested
  have hsteps : record.withDefault "max_chain_steps" 10000 Json.index? = some _ :=
    Record.withDefault_without rfl (Json.index?_nat h) 10000
  rw [ofJson?, hrecord]
  simp only [Option.bind_eq_bind, Option.bind_some, haffection, hscan, hsteps]
  rfl

theorem ofJson?_toJson {options : Options} (h : options.maxChainSteps ≤ Text.maxIndex) :
    ofJson? options.toJson = some options := by
  have hread := ofJson?_without h fun _ => false
  rwa [Json.without_nothing] at hread

end Options

-- ---------------------------------------------------------------------------
-- All of them
-- ---------------------------------------------------------------------------

/-- Whatever is written is read back, the indices in it being of 64 bits. A range or options from
which any members were removed, or any members of the range in the options, are read with the
defaults in place of these. -/
theorem values_read_back {input : Input} {command : Command} {shown : DisplayCommand}
    {cursor : Cursor} {options : Options} (condition : Condition) (comparison : Comparison)
    (suspend : Suspend) (choice : Choice) (transition : Transition) (scan : BranchScan)
    (range : AffectionRange) (removed : List String → Bool)
    (hinput : ∀ index ∈ input.index?, index ≤ Text.maxIndex)
    (hcommand : ∀ layer ∈ command.layer?, layer ≤ Text.maxIndex)
    (hshown : ∀ layer ∈ shown.layer?, layer ≤ Text.maxIndex)
    (hcursor : cursor.line ≤ Text.maxIndex)
    (hoptions : options.maxChainSteps ≤ Text.maxIndex) :
    Input.ofJson? input.toJson = some input ∧
    Command.ofJson? command.toJson = some command ∧
    DisplayCommand.ofJson? shown.toJson = some shown ∧
    Condition.ofJson? condition.toJson = some condition ∧
    Comparison.ofJson? comparison.toJson = some comparison ∧
    Cursor.ofJson? cursor.toJson = some cursor ∧
    Suspend.ofJson? suspend.toJson = some suspend ∧
    Choice.ofJson? choice.toJson = some choice ∧
    Transition.ofJson? transition.toJson = some transition ∧
    BranchScan.ofJson? scan.toJson = some scan ∧
    AffectionRange.ofJson? range.toJson = some range ∧
    Options.ofJson? options.toJson = some options ∧
    AffectionRange.ofJson? (range.toJson.without removed) = some (range.defaulted removed) ∧
    Options.ofJson? (options.toJson.without removed) = some (options.defaulted removed) :=
  ⟨Input.ofJson?_toJson hinput, Command.ofJson?_toJson hcommand,
    DisplayCommand.ofJson?_toJson hshown, condition.ofJson?_toJson, comparison.ofJson?_toJson,
    Cursor.ofJson?_toJson hcursor, suspend.ofJson?_toJson, choice.ofJson?_toJson,
    transition.ofJson?_toJson, scan.ofJson?_toJson, range.ofJson?_toJson,
    Options.ofJson?_toJson hoptions, range.ofJson?_without removed,
    Options.ofJson?_without hoptions removed⟩

/-- Texts that look like operators, tags and null, numbers at the ends of their ranges, and members
left out at both levels. -/
theorem values_read_back_lookalikes :
    let input : Input := .select 18446744073709551615
    let command : Command := .background 18446744073709551615 "null" (some ⟨"Else", ["-", ""]⟩)
    let shown : DisplayCommand := .setImage 0 "HideChoices" none
    let condition : Condition := .affection "Invalid" (.unknown ">=") Int32.minValue
    let cursor : Cursor := { line := 3, pendingJump := some "null", branches := [true, false] }
    let range : AffectionRange := { min := Int32.minValue, max := Int32.maxValue, initial := -1 }
    let options : Options :=
      { affection := range, branchScan := .linear, maxChainSteps := 18446744073709551615 }
    let removed : List String → Bool :=
      fun path => path ∈ [["affection", "max"], ["branch_scan"]]
    Input.ofJson? input.toJson = some input ∧
      Command.ofJson? command.toJson = some command ∧
      DisplayCommand.ofJson? shown.toJson = some shown ∧
      Condition.ofJson? condition.toJson = some condition ∧
      Cursor.ofJson? cursor.toJson = some cursor ∧
      Options.ofJson? options.toJson = some options ∧
      options.toJson.without removed = .object
        [("affection", .object [("min", .int (-2147483648)), ("default_value", .int (-1))]),
          ("max_chain_steps", .nat 18446744073709551615)] ∧
      Options.ofJson? (options.toJson.without removed) = some
        { affection := { min := Int32.minValue, max := 100, initial := -1 }
          branchScan := .nested
          maxChainSteps := 18446744073709551615 } := by
  intro input command shown condition cursor range options removed
  have hinput : ∀ index ∈ input.index?, index ≤ Text.maxIndex := by decide
  have hcommand : ∀ layer ∈ command.layer?, layer ≤ Text.maxIndex := by decide
  have hshown : ∀ layer ∈ shown.layer?, layer ≤ Text.maxIndex := by decide
  have hcursor : cursor.line ≤ Text.maxIndex := by decide
  have hoptions : options.maxChainSteps ≤ Text.maxIndex := by decide
  obtain ⟨h₁, h₂, h₃, h₄, -, h₆, -, -, -, -, -, h₁₂, -, h₁₄⟩ :=
    values_read_back condition (.unknown ">=") .running ⟨"", ""⟩ ⟨"", []⟩ .linear range removed
      hinput hcommand hshown hcursor hoptions
  exact ⟨h₁, h₂, h₃, h₄, h₆, h₁₂, rfl, h₁₄⟩

end VisualNovel
