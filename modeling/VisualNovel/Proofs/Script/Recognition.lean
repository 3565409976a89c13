import VisualNovel.Proofs.Script.Grammar
import VisualNovel.Proofs.Script.MarkerLaws

/-!
# What a line is recognised as

A scan goes by the first word of a line, a step by the command that the whole line is read as.
The first word is the name of that command, well written or not (`Command.name_read`), so both
take a line for the same marker, or both for none (`ScriptLine.recognised_alike`).
-/

namespace VisualNovel

-- ---------------------------------------------------------------------------
-- Names
-- ---------------------------------------------------------------------------

theorem WrittenCommand.head?_eq (h : WrittenCommand words command) :
    words.head? = some command.name := by
  cases h <;> rfl

/-- A fault does not change what a command is called. -/
theorem RecoveredCommand.head?_eq (h : RecoveredCommand words reading) :
    words.head? = some reading.value.name := by
  cases h <;> rfl

theorem Reading.name_ofWords (words : List String) :
    (ofWords words).value.name = words.head?.getD "" := by
  match words with
  | [] => rfl
  | name :: args =>
    by_cases hname : name ∈ Command.names
    · rcases hasRule_of_name hname args with ⟨command, hwritten⟩ | ⟨reading, hrecovered⟩
      · rw [hwritten.reads, hwritten.head?_eq, Option.getD_some]
      · rw [hrecovered.reads, hrecovered.head?_eq, Option.getD_some]
    · rw [ofWords_of_not_named hname]
      rfl

theorem Command.name_read (body : String) :
    (read body).value.name = (Text.words body).head?.getD "" :=
  Reading.name_ofWords _

-- ---------------------------------------------------------------------------
-- Markers
-- ---------------------------------------------------------------------------

namespace Command

theorem marker?_eq_ifHolds {command : Command} :
    command.marker? = some .ifHolds ↔ ∃ condition, command = .ifHolds condition := by
  cases command <;> simp [marker?]

theorem marker?_eq_elseIf {command : Command} :
    command.marker? = some .elseIf ↔ ∃ condition, command = .elseIf condition := by
  cases command <;> simp [marker?]

theorem marker?_eq_otherwise {command : Command} :
    command.marker? = some .otherwise ↔ command = .otherwise := by
  cases command <;> simp [marker?]

theorem marker?_eq_endIf {command : Command} :
    command.marker? = some .endIf ↔ command = .endIf := by
  cases command <;> simp [marker?]

theorem marker?_eq_none {command : Command} :
    command.marker? = none ↔ command.isBranchMarker = false := by
  cases command <;> simp [marker?, isBranchMarker]

end Command

/-- Whatever stands on a line with a command: a scan takes it for the marker that the command is,
and for none if the command is none; and the command is called by the first word of the line, by
the empty text if there is none. -/
theorem ScriptLine.recognised_alike {line : ScriptLine} (h : line.form = .command body) :
    let command := (Command.read body).value
    (Marker.ofLine? line = some .ifHolds ↔ ∃ condition, command = .ifHolds condition) ∧
      (Marker.ofLine? line = some .elseIf ↔ ∃ condition, command = .elseIf condition) ∧
      (Marker.ofLine? line = some .otherwise ↔ command = .otherwise) ∧
      (Marker.ofLine? line = some .endIf ↔ command = .endIf) ∧
      (Marker.ofLine? line = none ↔ command.isBranchMarker = false) ∧
      command.name = line.form.commandName?.getD "" := by
  intro command
  have hname : command.name = line.form.commandName?.getD "" := by
    rw [h]
    exact Command.name_read body
  rw [Marker.ofLine?_of_body h]
  exact ⟨Command.marker?_eq_ifHolds, Command.marker?_eq_elseIf, Command.marker?_eq_otherwise,
    Command.marker?_eq_endIf, Command.marker?_eq_none, hname⟩

/-- An ideographic space behind the `@`, and a condition that is not complete. -/
theorem ScriptLine.recognised_alike_brokenCondition :
    let line : ScriptLine := ⟨1, "@　elseif affection Yuki"⟩
    line.form = .command "　elseif affection Yuki" ∧
      (Command.read "　elseif affection Yuki").errors =
        [.incompleteCondition "affection Yuki"] ∧
      Marker.ofLine? line = some .elseIf ∧ line.form.commandName? = some "elseif" ∧
      (Command.read "　elseif affection Yuki").value.name = "elseif" := by
  intro line
  have hform : line.form = .command "　elseif affection Yuki" := by decide +kernel
  have hread : Command.read "　elseif affection Yuki" =
      ⟨.elseIf (.invalid "affection Yuki"), [.incompleteCondition "affection Yuki"]⟩ := by
    decide +kernel
  have hfirst : line.form.commandName? = some "elseif" := by decide +kernel
  obtain ⟨-, helseIf, -, -, -, hname⟩ := recognised_alike hform
  refine ⟨hform, by rw [hread], helseIf.mpr ?_, hfirst, ?_⟩
  · rw [hread]
    exact ⟨_, rfl⟩
  · rw [hname, hfirst]
    rfl

end VisualNovel
