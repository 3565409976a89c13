import VisualNovel.Diagnostic.Analysis
import VisualNovel.Proofs.Interpreter.Reasons
import VisualNovel.Proofs.Script.WordLaws

/-!
# What a report foretells

Whatever a line of a program gives reason to log, the analysis of the program has
a finding for (`Program.Explains.foretold`).
-/

namespace VisualNovel

-- ---------------------------------------------------------------------------
-- What is in a report
-- ---------------------------------------------------------------------------

/-- What a report says of the reason for an event; it is not asked about events
that are no warnings. -/
def LogEvent.Foretold (report : Report) : LogEvent → Prop
  | .malformedCommand line error =>
    ∃ d ∈ report, d.severity = .warn ∧ d.line = some line ∧ d.message = error.message
  | .unknownCommand name => ∃ d ∈ report, d.severity = .warn ∧ d.message = s!"未知指令: {name}"
  | .jumpFailed label _ => ∃ d ∈ report, d.severity = .error ∧ d.message = s!"未定义的跳转目标: {label}"
  | event => event.severity ≠ .warn

theorem LogEvent.Foretold.severity_ne (h : Foretold [] event) : event.severity ≠ .warn := by
  cases event <;> simp_all [Foretold]

namespace Program

section
variable {program : Program} {line : ScriptLine} (script : String)

open Analysis in
/-- What is found on a line whatever came before it is in the report. -/
theorem mem_analyze (hline : line ∈ program.lines)
    (h : ∀ state, found ∈ (checkLine { script, program } state line).2) :
    found ∈ program.analyze script := by
  have pass (lines : List ScriptLine) (state : State) (hl : line ∈ lines) :
      found ∈ (checkLines { script, program } state lines).2 := by
    induction lines generalizing state with
    | nil => simp at hl
    | cons first rest ih =>
      rcases List.mem_cons.mp hl with rfl | hl
      · exact List.mem_append_left _ (h state)
      · exact List.mem_append_right _ (ih _ hl)
  exact List.mem_append_left _ (pass program.lines {} hline)

theorem malformed_foretold (hline : line ∈ program.lines) (hform : line.form = .command body)
    (herror : error ∈ (Command.read body).errors) :
    (LogEvent.malformedCommand line.number error).Foretold (program.analyze script) := by
  let found := Analysis.Subject.at { script, program } line.number .warn error.message
    (some line.text)
  refine ⟨found, mem_analyze script hline fun state => ?_, rfl, rfl, rfl⟩
  simp only [Analysis.checkLine, hform]
  exact List.mem_append_right _ (List.mem_map_of_mem herror)

theorem unknown_foretold (hline : line ∈ program.lines) (hform : line.form = .command body)
    (hread : (Command.read body).value = .unknown name) :
    (LogEvent.unknownCommand name).Foretold (program.analyze script) := by
  let found := Analysis.Subject.at { script, program } line.number .warn s!"未知指令: {name}"
  refine ⟨found, mem_analyze script hline fun state => ?_, rfl, rfl⟩
  simp only [Analysis.checkLine, hform, hread, Analysis.checkMarker]
  exact List.mem_append_left _ (List.mem_append_right _ (List.mem_singleton_self _))

theorem undefined_foretold (htarget : program.Targets label)
    (hundefined : program.findLabel label = none) :
    (LogEvent.jumpFailed (Text.trim label) passed).Foretold (program.analyze script) := by
  obtain ⟨line, hline, body, hform, hlabel⟩ := htarget
  rw [Command.trim_of_mem_targets hlabel]
  let found := Analysis.Subject.at { script, program } line.number .error
    s!"未定义的跳转目标: {label}" (some s!"jump 或 choice 引用了不存在的标签 '{label}'")
  refine ⟨found, mem_analyze script hline fun state => ?_, rfl, rfl⟩
  simp only [Analysis.checkLine, hform]
  refine List.mem_append_left _ (List.mem_append_left _ (List.mem_map_of_mem ?_))
  simp [hlabel, hundefined]

theorem Explains.foretold (h : program.Explains event) :
    event.Foretold (program.analyze script) := by
  cases h with
  | malformedCommand hline hform herror => exact malformed_foretold script hline hform herror
  | unknownCommand hline hform hread => exact unknown_foretold script hline hform hread
  | jumpFailed htarget hundefined => exact undefined_foretold script htarget hundefined
  | chainCut => simp [LogEvent.Foretold, LogEvent.severity]

end

end Program

end VisualNovel
