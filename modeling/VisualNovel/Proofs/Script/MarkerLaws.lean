import VisualNovel.Script.Branch
import VisualNovel.Script.Reading

/-!
# Markers are commands

A scan looks at the first word of a line, a step at the command the whole line
reads as. `Marker.ofLine?_eq`: the two see the same markers.
-/

namespace VisualNovel

def Command.marker? : Command → Option Marker
  | .ifHolds _ => some .ifHolds
  | .elseIf _ => some .elseIf
  | .otherwise => some .otherwise
  | .endIf => some .endIf
  | _ => none

/-- The command on a line, read with its faults left out. -/
def ScriptLine.command? (line : ScriptLine) : Option Command :=
  match line.form with
  | .command body => some (Command.read body).value
  | _ => none

theorem ScriptLine.command?_of_command {line : ScriptLine} (h : line.form = .command body) :
    line.command? = some (Command.read body).value := by
  simp [command?, h]

theorem ScriptLine.command?_eq_some {line : ScriptLine} :
    line.command? = some command ↔
      ∃ body, line.form = .command body ∧ (Command.read body).value = command := by
  unfold command?
  cases line.form <;> simp

-- ---------------------------------------------------------------------------
-- Readers that give no marker
-- ---------------------------------------------------------------------------

namespace Reading

theorem marker?_background : (background args).value.marker? = none := by
  unfold background
  split
  · rfl
  · split <;> rfl

theorem marker?_character : (character args).value.marker? = none := by
  unfold character
  split
  · rfl
  · split <;> rfl

theorem marker?_affection : (affection args).value.marker? = none := by
  unfold affection
  split <;> rfl

theorem marker?_jump : (jump args).value.marker? = none := by
  unfold jump
  split <;> rfl

theorem marker?_clear : (clear args).value.marker? = none := by
  unfold clear
  split <;> rfl

theorem marker?_ofWords (words : List String) :
    (ofWords words).value.marker? = words.head?.bind Marker.ofName := by
  unfold ofWords
  split
  all_goals try rfl
  · exact marker?_background
  · exact marker?_character
  · exact marker?_affection
  · exact marker?_jump
  · exact marker?_clear
  · -- The first word is none of the names, the four of markers among them.
    simp only [List.head?_cons, Option.bind_some, Command.marker?]
    unfold Marker.ofName
    split <;> first | contradiction | rfl

end Reading

theorem Marker.ofLine?_eq (line : ScriptLine) :
    Marker.ofLine? line = line.command?.bind Command.marker? := by
  unfold Marker.ofLine? ScriptLine.command?
  cases line.form with
  | command body =>
    simp only [LineForm.commandName?, Option.bind_some, Command.read]
    exact (Reading.marker?_ofWords _).symm
  | label _ => rfl
  | dialogue _ => rfl

theorem Marker.ofLine?_of_command (h : line.command? = some command) :
    Marker.ofLine? line = command.marker? := by
  simp [Marker.ofLine?_eq, h]

theorem Marker.ofLine?_of_body {line : ScriptLine} (h : line.form = .command body) :
    Marker.ofLine? line = (Command.read body).value.marker? :=
  ofLine?_of_command (ScriptLine.command?_of_command h)

theorem Marker.ofLine?_of_label {line : ScriptLine} (h : line.form = .label name) :
    Marker.ofLine? line = none := by
  simp [Marker.ofLine?_eq, ScriptLine.command?, h]

theorem Marker.ofLine?_of_dialogue {line : ScriptLine} (h : line.form = .dialogue text) :
    Marker.ofLine? line = none := by
  simp [Marker.ofLine?_eq, ScriptLine.command?, h]

end VisualNovel
