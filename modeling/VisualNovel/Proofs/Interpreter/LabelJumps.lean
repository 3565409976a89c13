import VisualNovel.Display.Recording
import VisualNovel.Proofs.Interpreter.Moves
import VisualNovel.Proofs.Script.Grammar
import VisualNovel.Proofs.Script.Labels
import VisualNovel.Proofs.Session.CarryingOut
import VisualNovel.Proofs.Text.Words

/-!
# Jumps to a label

A command takes the label it jumps to, or offers, from its words, so it names a label
without blanks in it, and of any other no more than its first word. A label without blanks
is reached from every line that names it (`Program.label_reached`).
-/

namespace VisualNovel

-- ---------------------------------------------------------------------------
-- Where a jump leads
-- ---------------------------------------------------------------------------

theorem Program.FirstDefines.landing_eq_iff {program : Program}
    (h : program.FirstDefines index name) (htrim : Text.trim target = target)
    (hpassed : passed ≠ index + 1) :
    program.landing target passed = index + 1 ↔ target = name := by
  constructor
  · intro hlanding
    cases hfound : program.findLabel target with
    | none => exact absurd (by simpa [landing, hfound] using hlanding) hpassed
    | some first =>
      have hfirst := findLabel_eq_some_iff.mp hfound
      have hsame : first = index := by simpa [landing, hfound] using hlanding
      rw [htrim, hsame] at hfirst
      exact hfirst.defines.name_eq h.defines
  · rintro rfl
    rw [landing, h.findLabel_eq, Option.map_some, Option.getD_some]

-- ---------------------------------------------------------------------------
-- What a command names
-- ---------------------------------------------------------------------------

section
variable {name target : String} {more : List String}

theorem read_jump (hname : Text.words name = target :: more) :
    (Command.read s!"jump {name}").value = .jump target := by
  have hbody : s!"jump {name}" = "jump" ++ (" " ++ name) := by
    simp [← String.toList_inj, toString]
  rw [Command.read, hbody, Text.words_append_blank, hname]
  rfl

theorem read_choice {before : List Choice} (hname : Text.words name = target :: more)
    (hleft : Text.words left = "choice" :: before.flatMap Choice.words)
    (htext : Text.IsWord text) (hright : Text.SetOff right) :
    ∃ choices, (Command.read s!"{left} {text} -> {name}{right}").value = .choice choices ∧
      choices[before.length]? = some ⟨text, target⟩ := by
  have hbody : s!"{left} {text} -> {name}{right}" =
      left ++ (" " ++ text) ++ (" " ++ "->") ++ (" " ++ name) ++ right := by
    simp [← String.toList_inj, toString]
  have harrow : Text.words "->" = ["->"] := by decide
  let after := more ++ Text.words right
  have hwords : Text.words s!"{left} {text} -> {name}{right}" =
      "choice" :: (before.flatMap Choice.words ++ ((⟨text, target⟩ : Choice).words ++ after)) := by
    rw [hbody, Text.words_append hright, Text.words_append_blank, Text.words_append_blank,
      Text.words_append_blank, hleft, htext.words_eq, harrow, hname]
    simp [Choice.words, after]
  refine ⟨before ++ ⟨text, target⟩ :: (Reading.options (1 + before.length + 1) after).value, ?_, ?_⟩
  · rw [Command.read, hwords, Reading.ofWords, Reading.options_append, Reading.options_cons]
    rfl
  · rw [List.getElem?_append_right (Nat.le_refl _), Nat.sub_self]
    rfl

end

-- ---------------------------------------------------------------------------
-- Running the line
-- ---------------------------------------------------------------------------

theorem LineForm.classify_command (body : String) : classify ("@" ++ body) = .command body := by
  have htext : ("@" ++ body).toList = '@' :: body.toList := by
    rw [String.toList_append]
    rfl
  simp only [classify, htext, String.ofList_toList]

/-- Whatever an open menu has on offer can be picked, once. -/
theorem Offer.exists_pick {offer : Offer} (hactive : offer.active = true)
    (hchoice : offer.choices[index]? = some choice) :
    ∃ picked rest, offer.select index = .ok picked ∧
      picked.poll = (some choice.target, rest) := by
  let picked := { offer with hovered := some index, selected := some index }
  refine ⟨picked, { picked with selected := none }.deactivate, ?_, ?_⟩
  · exact if_pos (List.getElem?_eq_some_iff.mp hchoice).1
  · simp [picked, poll, hactive, hchoice]

namespace Interpreter

/-- The next line to be run reads so. -/
structure Facing (vm : Interpreter) (text : String) : Prop where
  running : vm.suspend = .running
  noJump : vm.cursor.pendingJump = none
  line : vm.program.line? vm.cursor.line = some text

namespace Facing

section
variable {vm : Interpreter}

theorem form?_eq (h : vm.Facing ("@" ++ body)) :
    vm.program.form? vm.cursor.line = some (.command body) := by
  obtain ⟨line, hline, htext⟩ := Option.map_eq_some_iff.mp h.line
  rw [Program.form?, hline, Option.map_some, ScriptLine.form, htext, LineForm.classify_command]

theorem step_next (h : vm.Facing ("@" ++ body)) :
    ∃ number, vm.step.next = (vm.passLine.obey number (Command.read body).value).1 := by
  obtain ⟨line, hline, hform⟩ := Option.map_eq_some_iff.mp h.form?_eq
  have hrun : vm.Reads line := ⟨h.noJump, hline⟩
  have hstep := LineStep.command hrun hform (obeys_obey ..)
  exact ⟨line.number, by rw [step_of_line h.running hstep.stepLine?]⟩

end

section
variable {session : Session σ} (sink : DisplaySink σ)

/-- A jump takes two steps, the line and the jump itself. -/
theorem step_step_jump (h : session.vm.Facing ("@" ++ body))
    (hread : (Command.read body).value = .jump target) :
    ((session.step sink).next.step sink).next.vm =
      { session.vm with
        cursor := session.vm.cursor.jumpTo
          (session.vm.program.landing target (session.vm.cursor.line + 1)) } := by
  obtain ⟨number, hnext⟩ := h.step_next
  rw [hread, Obeys.jump.obey] at hnext
  have hjump : LineStep session.vm.step.next
      (session.vm.step.next.takeJump.jumpToLabel target) :=
    .jump (by rw [hnext])
  have hrunning : session.vm.step.next.suspend = .running := by
    rw [hnext]
    exact h.running
  rw [Session.step_vm, Session.step_vm, step_of_line hrunning hjump.stepLine?,
    jumpToLabel_landing, hnext]
  simp [takeJump, passLine, Cursor.advance, Cursor.jumpTo, h.noJump]

/-- A menu is closed, and the story goes on, in the step behind the pick. -/
theorem step_choice (h : session.vm.Facing ("@" ++ body))
    (hread : (Command.read body).value = .choice choices)
    (hchoice : choices[index]? = some choice) :
    let asked := (session.step sink).next
    let landed := { session.vm with
      cursor := session.vm.cursor.jumpTo
        (session.vm.program.landing choice.target (session.vm.cursor.line + 1))
      offer := {} }
    asked.vm.suspend = .waitingForChoice ∧
      ∃ picked, asked.input sink (.select index) = .ok (.selectionRecorded, picked) ∧
        (picked.step sink).next =
          (Session.runChain sink landed.options.maxChainSteps
            ⟨landed, (sink.execute asked.display .hideChoices).display⟩).next := by
  intro asked landed
  obtain ⟨number, hnext⟩ := h.step_next
  rw [← Session.step_vm sink] at hnext
  cases choices with
  | nil => cases hchoice
  | cons head tail =>
    rw [hread, Obeys.choice.obey] at hnext
    have hwaiting : asked.vm.suspend = .waitingForChoice := by rw [hnext]
    have hoffer : asked.vm.offer = .ofChoices (head :: tail) := by rw [hnext]
    have hactive : asked.vm.offer.active = true := by rw [hoffer]; rfl
    rw [← show asked.vm.offer.choices = head :: tail by rw [hoffer]; rfl] at hchoice
    obtain ⟨pick, rest, hselect, hpoll⟩ := Offer.exists_pick hactive hchoice
    let picked : Session σ := ⟨{ asked.vm with offer := pick }, asked.display⟩
    have hlanded : (picked.vm.reopen.jumpToLabel choice.target).1 = landed := by
      rw [jumpToLabel_landing]
      simp [picked, landed, asked, reopen, hnext, passLine, Cursor.advance, Cursor.jumpTo,
        h.running]
    refine ⟨hwaiting, picked, ?_, ?_⟩
    · rw [Session.input_eq_map, input_select hwaiting, hselect]
      rfl
    · rw [Session.step_of_pick sink picked hwaiting hpoll, hlanded]

end

end Facing

end Interpreter

-- ---------------------------------------------------------------------------
-- Defined labels
-- ---------------------------------------------------------------------------

namespace Program

/-- A line that names a defined label, in a jump or in an option that is picked, leads no
further than to the first word of the name. The story goes on behind the first definition of
the label if there are no blanks in its name, and only then. -/
theorem label_reached {program : Program} {name : String}
    (hname : name ∈ program.definedLabels) (hne : name ≠ "") (sink : DisplaySink σ) :
    ∃ index target, program.FirstDefines index name ∧
      (Text.words name).head? = some target ∧
      (∀ session : Session σ, session.vm.program = program →
        session.vm.Facing s!"@jump {name}" →
        let line := program.landing target (session.vm.cursor.line + 1)
        (line = index + 1 ↔ Text.Unbroken name) ∧
          ((session.step sink).next.step sink).next.vm =
            { session.vm with cursor := session.vm.cursor.jumpTo line }) ∧
      ∀ (session : Session σ) (left text right : String) (before : List Choice),
        session.vm.program = program →
        session.vm.Facing s!"@{left} {text} -> {name}{right}" →
        Text.words left = "choice" :: before.flatMap Choice.words →
        Text.IsWord text → Text.SetOff right →
        let line := program.landing target (session.vm.cursor.line + 1)
        let landed := { session.vm with cursor := session.vm.cursor.jumpTo line, offer := {} }
        let asked := (session.step sink).next
        (line = index + 1 ↔ Text.Unbroken name) ∧
          asked.vm.suspend = .waitingForChoice ∧
          ∃ picked,
            asked.input sink (.select before.length) = .ok (.selectionRecorded, picked) ∧
            (picked.step sink).next =
              (Session.runChain sink landed.options.maxChainSteps
                ⟨landed, (sink.execute asked.display .hideChoices).display⟩).next := by
  obtain ⟨defined, hdefined⟩ := mem_definedLabels.mp hname
  obtain ⟨index, hfirst⟩ := hdefined.exists_first
  obtain ⟨target, more, hwords, hwhole⟩ := Text.exists_words_eq_cons hne hdefined.trim_eq
  have htrim : Text.trim target = target :=
    Text.trim_of_mem_words (hwords ▸ List.mem_cons_self)
  -- The line run is a command, so it is not the one that defines the label.
  have hline (vm : Interpreter) (body : String) (hprogram : vm.program = program)
      (hfacing : vm.Facing ("@" ++ body)) :
      program.landing target (vm.cursor.line + 1) = index + 1 ↔ Text.Unbroken name := by
    refine (hfirst.landing_eq_iff htrim fun hsame => ?_).trans hwhole
    have hcommand := hprogram ▸ hfacing.form?_eq
    rw [Nat.succ.inj hsame] at hcommand
    cases hcommand.symm.trans hfirst.defines
  refine ⟨index, target, hfirst, by rw [hwords, List.head?_cons],
    fun session hprogram hfacing => ?_,
    fun session left text right before hprogram hfacing hleft hword hright => ?_⟩
  · have htext : s!"@jump {name}" = "@" ++ s!"jump {name}" := by
      simp [← String.toList_inj, toString]
    rw [htext] at hfacing
    refine ⟨hline _ _ hprogram hfacing, ?_⟩
    rw [hfacing.step_step_jump sink (read_jump hwords), hprogram]
  · have htext : s!"@{left} {text} -> {name}{right}" =
        "@" ++ s!"{left} {text} -> {name}{right}" := by
      simp [← String.toList_inj, toString]
    rw [htext] at hfacing
    obtain ⟨choices, hread, hchoice⟩ := read_choice hwords hleft hword hright
    refine ⟨hline _ _ hprogram hfacing, ?_⟩
    have hpicked := hfacing.step_choice sink hread hchoice
    rwa [hprogram] at hpicked

theorem label_reached_end :
    let program := parse "@jump end\n夜\n:end"
    let session : Session RecordingDisplay := ⟨Interpreter.load {} program, {}⟩
    let landed := (session.step RecordingDisplay.sink).next.step RecordingDisplay.sink
    "end" ∈ program.definedLabels ∧ "end" ≠ "" ∧ landed.next.vm.cursor.line = 3 := by
  intro program session landed
  have hname : "end" ∈ program.definedLabels := by decide +kernel
  have hne : "end" ≠ "" := by decide
  obtain ⟨index, target, hfirst, -, hjump, -⟩ :=
    label_reached hname hne RecordingDisplay.sink
  obtain ⟨hline, hnext⟩ := hjump session rfl ⟨rfl, rfl, by decide +kernel⟩
  have hindex : index = 2 :=
    Option.some.inj (hfirst.findLabel_eq.symm.trans (by decide +kernel))
  have hreached := hline.mpr (by decide +kernel)
  rw [hindex] at hreached
  refine ⟨hname, hne, ?_⟩
  rw [hnext, Cursor.jumpTo, hreached]

/-- A blank in the name of a defined label, and a jump to it leads nowhere. -/
theorem label_not_reached :
    let program := parse "@jump foo bar\n:foo bar\n完"
    let session : Session RecordingDisplay := ⟨Interpreter.load {} program, {}⟩
    let landed := (session.step RecordingDisplay.sink).next.step RecordingDisplay.sink
    "foo bar" ∈ program.definedLabels ∧ "foo bar" ≠ "" ∧
      session.vm.suspend = .running ∧ session.vm.cursor.pendingJump = none ∧
      program.line? session.vm.cursor.line = some ("@jump " ++ "foo bar") ∧
      program.findLabel "foo bar" = some 1 ∧
      landed.next.vm.cursor.line = 1 := by
  decide +kernel

end Program

end VisualNovel
