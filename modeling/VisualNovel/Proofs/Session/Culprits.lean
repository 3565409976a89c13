import VisualNovel.Proofs.Interpreter.Requests
import VisualNovel.Proofs.Script.ProgramLaws
import VisualNovel.Proofs.Session.JustPassed
import VisualNovel.Proofs.Session.Trail

/-!
# The numbers in the log

A warning that names a line names, by its number in the text, the line it was
logged for; only a jump that failed is logged with the position of its line among
those of the program (`Trail.warnings_blamed`). The two differ behind a comment or
a blank line.
-/

namespace VisualNovel

-- ---------------------------------------------------------------------------
-- What a line does
-- ---------------------------------------------------------------------------

/-- What a command wants shown; an empty menu is not. -/
def Command.request? : Command → Option DisplayCommand
  | .choice [] => none
  | .choice (option :: options) => some (.presentChoices (option :: options))
  | other => other.picture?

def LineForm.request? : LineForm → Option DisplayCommand
  | .command body => (Command.read body).value.request?
  | .label _ => none
  | .dialogue text => some (.showText text)

namespace Program

/-- The line, at the index, is to blame for the warning. The number in it is that of
the line, or the line's position if a jump failed. -/
inductive Blames (sink : DisplaySink σ) (program : Program) (index : Nat)
    (line : ScriptLine) : LogEvent → Prop
  | malformedCommand : line.form = .command body → error ∈ (Command.read body).errors →
      Blames sink program index line (.malformedCommand line.number error)
  | commandRefused : line.form.request? = some command →
      (sink.execute display command).refusal = some error →
      Blames sink program index line (.commandRefused line.number error)
  | jumpFailed : line.form = .command body → label ∈ (Command.read body).value.targets →
      program.findLabel label = none →
      Blames sink program index line (.jumpFailed (Text.trim label) (index + 1))

/-- What can be done for the line at the index. -/
inductive Does (program : Program) (index : Nat) : Action → Prop
  | shows : program.lines[index]? = some line → line.form.request? = some command →
      Does program index (.display line.number command)
  | closeMenu : Does program index .closeMenu
  | wrote : Does program index (.wrote who value)
  | malformedCommand : program.lines[index]? = some line → line.form = .command body →
      error ∈ (Command.read body).errors →
      Does program index (.log (.malformedCommand line.number error))
  | unknownCommand : Does program index (.log (.unknownCommand name))
  | jumpFailed : program.Names index label → program.findLabel label = none →
      Does program index (.log (.jumpFailed (Text.trim label) (index + 1)))
  | chainCut : Does program index (.log (.chainCut steps line))

/-- A warning with a line in it. -/
theorem Does.blames {program : Program} (h : program.Does index action)
    (he : event ∈ (DisplaySink.perform sink.silent display action).2)
    (hw : event.isWarning = true) (hl : "line" ∈ event.fields.map Prod.fst) :
    ∃ line, program.lines[index]? = some line ∧ program.Blames sink index line event := by
  cases h with
  | shows hline hrequest =>
    simp only [DisplaySink.perform, DisplaySink.silent, List.nil_append, List.mem_map,
      Option.mem_toList] at he
    obtain ⟨error, herror, rfl⟩ := he
    exact ⟨_, hline, .commandRefused hrequest herror⟩
  | closeMenu =>
    simp only [DisplaySink.perform, DisplaySink.silent, List.nil_append, List.mem_map,
      Option.mem_toList] at he
    obtain ⟨error, -, rfl⟩ := he
    simp [LogEvent.fields] at hl
  | wrote => simp [DisplaySink.perform] at he
  | malformedCommand hline hform herror =>
    cases List.mem_singleton.mp he
    exact ⟨_, hline, .malformedCommand hform herror⟩
  | unknownCommand =>
    cases List.mem_singleton.mp he
    simp [LogEvent.fields] at hl
  | jumpFailed hnames hfind =>
    cases List.mem_singleton.mp he
    obtain ⟨body, hbody, htarget⟩ := hnames
    obtain ⟨line, hline, hform⟩ := Option.map_eq_some_iff.mp hbody
    exact ⟨line, hline, .jumpFailed hform htarget hfind⟩
  | chainCut =>
    cases List.mem_singleton.mp he
    simp [LogEvent.isWarning, LogEvent.severity] at hw

end Program

/-- A label on its way was named by the line run last, and the cursor is behind it. -/
structure Trail.Placed (trail : Trail) : Prop where
  bound : trail.vm.Bound
  behind : trail.vm.cursor.pendingJump.isSome ∨ trail.vm.suspend = .waitingForChoice →
    trail.vm.cursor.line = trail.last + 1

-- ---------------------------------------------------------------------------
-- Lines run
-- ---------------------------------------------------------------------------

namespace Interpreter

/-- The cursor is behind the line that named the label. -/
theorem jumpToLabel_does (vm : Interpreter) (hnamed : vm.JustNamed label)
    (hlast : vm.cursor.line = last + 1) (ha : action ∈ (vm.jumpToLabel label).2) :
    vm.program.Does last action := by
  obtain ⟨index, hindex, hnames⟩ := hnamed
  cases Nat.succ.inj (hlast.symm.trans hindex)
  cases hf : vm.program.findLabel label with
  | none =>
    rw [jumpToLabel_eq_of_none hf, List.mem_singleton, hlast] at ha
    exact ha ▸ .jumpFailed hnames hf
  | some target => simp [jumpToLabel_eq_of_some hf] at ha

/-- Of what a command asks for besides the faults in it. -/
theorem Obeys.does {vm : Interpreter} {program : Program} {line : ScriptLine}
    (h : vm.Obeys line.number command done) (hline : program.lines[index]? = some line)
    (hf : line.form = .command body) (hread : (Command.read body).value = command)
    (ha : action ∈ done.2) :
    program.Does index action := by
  have shows (shown : DisplayCommand) (hs : command.request? = some shown) :
      program.Does index (.display line.number shown) := by
    refine .shows hline ?_
    rw [hf, LineForm.request?, hread, hs]
  cases h with
  | background | character | clear | choice =>
    cases List.mem_singleton.mp ha
    exact shows _ rfl
  | affection =>
    cases List.mem_singleton.mp ha
    exact .wrote
  | unknown =>
    cases List.mem_singleton.mp ha
    exact .unknownCommand
  | _ => cases ha

end Interpreter

namespace Trail

section
variable {trail : Trail}

theorem current_of_jump (h : trail.vm.cursor.pendingJump = some label) :
    trail.current = trail.last := by
  simp [current, h]

theorem current_of_reads (h : trail.vm.Reads line) : trail.current = trail.vm.cursor.line := by
  simp [current, h.1]

theorem Placed.of_free (hb : trail.vm.Bound) (hp : trail.vm.cursor.pendingJump = none)
    (hv : trail.vm.suspend ≠ .waitingForChoice) : trail.Placed := by
  refine ⟨hb, fun h => ?_⟩
  rcases h with h | h
  · simp [hp] at h
  · exact absurd h hv

theorem Placed.line (hp : trail.Placed) (h : trail.vm.LineStep done)
    (hv : trail.vm.suspend = .running) : Placed ⟨done.1, trail.current⟩ := by
  have hb := h.bound hp.bound hv
  cases h with
  | jump _ =>
    refine .of_free hb (Interpreter.jumpToLabel_pendingJump ..) ?_
    rw [Interpreter.jumpToLabel_suspend]
    simp [Interpreter.takeJump, hv]
  | label hr _ => exact .of_free hb hr.1 (by simp [Interpreter.passLine, hv])
  | dialogue hr _ => exact .of_free hb hr.1 (by simp)
  | @command line body done hr hf ho =>
    have hline : trail.vm.passLine.cursor.line = trail.current + 1 := by
      rw [current_of_reads hr]
      rfl
    generalize (Command.read body).value = command at ho
    -- Only these two leave a label on its way, and neither moves the cursor on.
    cases ho with
    | choice | jump => exact ⟨hb, fun _ => hline⟩
    | _ => exact .of_free hb hr.1 (by simp [Interpreter.passLine, Interpreter.branchTo, hv])

theorem Placed.does_line (hp : trail.Placed) (h : trail.vm.LineStep done)
    (ha : action ∈ done.2) : trail.vm.program.Does trail.current action := by
  cases h with
  | jump hj =>
    rw [current_of_jump hj]
    have hnamed : trail.vm.takeJump.JustNamed _ := hp.bound.pending _ hj
    have hbehind := hp.behind (.inl (by simp [hj]))
    exact Interpreter.jumpToLabel_does trail.vm.takeJump hnamed hbehind ha
  | label _ _ => cases ha
  | dialogue hr hf =>
    cases List.mem_singleton.mp ha
    rw [current_of_reads hr]
    exact .shows hr.2 (by rw [hf]; rfl)
  | command hr hf ho =>
    rw [current_of_reads hr]
    rcases List.mem_append.mp ha with ha | ha
    · obtain ⟨error, herror, rfl⟩ := List.mem_map.mp ha
      exact .malformedCommand hr.2 hf herror
    · exact ho.does hr.2 hf rfl ha

-- ---------------------------------------------------------------------------
-- Steps and inputs
-- ---------------------------------------------------------------------------

/-- Actions in a program, each of them one of its line, and the trail they left. -/
structure Keeps (program : Program) (done : Trail × List (Nat × Action)) : Prop where
  placed : done.1.Placed
  same : done.1.vm.program = program
  does : ∀ entry ∈ done.2, program.Does entry.1 entry.2

theorem Keeps.append (h : Keeps program done)
    (hactions : ∀ entry ∈ actions, program.Does entry.1 entry.2) :
    Keeps program (done.1, actions ++ done.2) := by
  refine ⟨h.placed, h.same, fun entry hentry => ?_⟩
  rcases List.mem_append.mp hentry with hentry | hentry
  · exact hactions entry hentry
  · exact h.does entry hentry

theorem Placed.stays (hp : trail.Placed) : Keeps trail.vm.program (trail, []) :=
  ⟨hp, rfl, by simp⟩

theorem Placed.stepLine? (hp : trail.Placed) (hv : trail.vm.suspend = .running)
    (h : trail.stepLine? = some done) : Keeps trail.vm.program done := by
  obtain ⟨line, hs, rfl⟩ := Option.map_eq_some_iff.mp h
  have hline := Interpreter.stepLine?_eq_some.mp hs
  refine ⟨hp.line hline hv, hline.program, fun entry hentry => ?_⟩
  obtain ⟨action, ha, rfl⟩ := List.mem_map.mp hentry
  exact hp.does_line hline ha

theorem Placed.runChain (hp : trail.Placed) (fuel : Nat) :
    Keeps trail.vm.program (trail.runChain fuel) := by
  induction fuel generalizing trail with
  | zero =>
    unfold Trail.runChain
    split
    · refine ⟨hp, rfl, fun entry hentry => ?_⟩
      cases List.mem_singleton.mp hentry
      exact .chainCut
    · exact hp.stays
  | succ fuel ih =>
    unfold Trail.runChain
    split
    · rename_i hv
      cases hs : trail.stepLine? with
      | none => exact hp.stays
      | some done =>
        have hline := hp.stepLine? hv hs
        have hmore := ih hline.placed
        rw [hline.same] at hmore
        exact hmore.append hline.does
    · exact hp.stays

/-- A pick is made for the line of the menu, which the cursor is still behind. -/
theorem Placed.pick (hp : trail.Placed) (hv : trail.vm.suspend = .waitingForChoice)
    (hchoice : choice ∈ trail.vm.offer.choices) :
    let jump := trail.vm.reopen.jumpToLabel choice.target
    Placed { trail with vm := jump.1 } ∧
      ∀ action ∈ .closeMenu :: jump.2, trail.vm.program.Does trail.last action := by
  intro jump
  constructor
  · obtain ⟨-, -, -, hnone, -⟩ := hp.bound.coherent.of_waitingForChoice hv
    have hpending := Interpreter.jumpToLabel_pendingJump trail.vm.reopen choice.target
    refine .of_free (hp.bound.picked hv choice.target) (hpending.trans hnone) ?_
    rw [Interpreter.jumpToLabel_suspend]
    simp [Interpreter.reopen]
  · intro action ha
    have hnamed : trail.vm.reopen.JustNamed choice.target := hp.bound.offered hv hchoice
    have hbehind : trail.vm.reopen.cursor.line = trail.last + 1 := hp.behind (.inr hv)
    rcases List.mem_cons.mp ha with rfl | ha
    · exact .closeMenu
    · exact Interpreter.jumpToLabel_does trail.vm.reopen hnamed hbehind ha

theorem Placed.step (hp : trail.Placed) : Keeps trail.vm.program trail.step := by
  cases hv : trail.vm.suspend with
  | running =>
    cases hs : trail.stepLine? with
    | none => simpa [Trail.step, hv, hs] using hp.stays
    | some done => simpa [Trail.step, hv, hs] using hp.stepLine? hv hs
  | waitingForInput => simpa [Trail.step, hv] using hp.stays
  | waitingForChoice =>
    rcases hpoll : trail.vm.offer.poll with ⟨_ | label, rest⟩
    · cases (hp.bound.coherent.of_waitingForChoice hv).2.1.poll_none hpoll
      have hstep : trail.step =
          ({ trail with vm := { trail.vm with offer := trail.vm.offer } }, []) := by
        simp [Trail.step, hv, hpoll]
      exact hstep ▸ hp.stays
    · obtain ⟨choice, hchoice, rfl⟩ := Offer.mem_of_poll hpoll
      obtain ⟨hjump, hdoes⟩ := hp.pick hv hchoice
      let jump := trail.vm.reopen.jumpToLabel choice.target
      have hprogram : jump.1.program = trail.vm.program :=
        Interpreter.jumpToLabel_program trail.vm.reopen choice.target
      have hchain := hjump.runChain jump.1.options.maxChainSteps
      rw [hprogram] at hchain
      simp only [Trail.step, hv, hpoll]
      refine hchain.append fun entry hentry => ?_
      obtain ⟨action, ha, rfl⟩ := List.mem_map.mp hentry
      exact hdoes action ha

theorem Placed.input (hp : trail.Placed) (h : trail.vm.input ready given = .ok (outcome, next)) :
    Placed { trail with vm := next } := by
  refine ⟨(Interpreter.input_moves h).preserve Interpreter.Bound.move hp.bound, fun hnext => ?_⟩
  -- No input moves the cursor or opens a menu.
  cases Interpreter.takes_of_input h with
  | resume _ _ =>
    rcases hnext with hnext | hnext
    · exact hp.behind (.inl hnext)
    · cases hnext
  | _ => exact hp.behind hnext

theorem Placed.operate (hp : trail.Placed) (ready : Bool) (op : Operation)
    (hop : ∀ program, op ≠ .load program) :
    Keeps trail.vm.program (trail.operate ready op) := by
  cases op with
  | step => exact hp.step
  | input given =>
    cases h : trail.vm.input ready given with
    | error _ => simpa [Trail.operate, Interpreter.operate, h] using hp.stays
    | ok done =>
      have hprogram := Interpreter.input_program h
      simpa [Trail.operate, Interpreter.operate, h] using
        (⟨hp.input h, hprogram, by simp⟩ : Keeps trail.vm.program ({ trail with vm := done.2 }, []))
  | load program => exact absurd rfl (hop program)

-- ---------------------------------------------------------------------------
-- Runs
-- ---------------------------------------------------------------------------

/-- Of operations that load nothing. -/
theorem Placed.account (sink : DisplaySink σ) (hp : trail.Placed)
    (hops : ∀ other, .load other ∉ ops)
    (hentry : entry ∈ trail.account sink.silent display ops) (hw : entry.2.isWarning = true)
    (hl : "line" ∈ entry.2.fields.map Prod.fst) :
    ∃ line, trail.vm.program.lines[entry.1]? = some line ∧
      trail.vm.program.Blames sink entry.1 line entry.2 := by
  induction ops generalizing trail display with
  | nil => cases hentry
  | cons op ops ih =>
    obtain ⟨hop, hops⟩ := noLoad_cons.mp hops
    have hkeeps := hp.operate (sink.silent.isTextReady display) op hop
    rcases List.mem_append.mp hentry with hentry | hentry
    · obtain ⟨before, action, ha, hevent⟩ := DisplaySink.mem_account hentry
      exact (hkeeps.does _ ha).blames hevent hw hl
    · have hblames := ih hkeeps.placed hops hentry
      rwa [hkeeps.same] at hblames

end

/-- Every warning of the interpreter that names a line was logged for a line of the
text that gave reason for it, and names that line's number in the text; if a jump
failed, its position among the program's lines. The warnings of the display itself
are left out. -/
theorem warnings_blamed (sink : DisplaySink σ) (vm : Interpreter) (text : String) (display : σ)
    (ops : List Operation) (hops : ∀ other, .load other ∉ ops) :
    let program := Program.parse text
    let trail : Trail := { vm := vm.load program }
    let session : Session σ := ⟨trail.vm, display⟩
    let account := trail.account sink.silent display ops
    account.map Prod.snd = session.log sink.silent ops ∧
      session.moments sink.silent ops = session.moments sink ops ∧
      (session.log sink.silent ops).Sublist (session.log sink ops) ∧
      ∀ index event, (index, event) ∈ account → event.isWarning = true →
        "line" ∈ event.fields.map Prod.fst →
        ∃ line above raw, program.lines[index]? = some line ∧ line.number = above + 1 ∧
          (Text.lines text)[above]? = some raw ∧ line.text = Text.trim raw ∧
          program.Blames sink index line event := by
  intro program trail session account
  obtain ⟨hmoments, hlog⟩ := session.silent_same sink ops
  have hplaced : trail.Placed :=
    .of_free (Interpreter.Bound.load vm program) rfl (by simp [trail, Interpreter.load])
  refine ⟨account_events sink.silent trail display ops, hmoments, hlog, ?_⟩
  intro index event hentry hw hl
  obtain ⟨line, hline, hblames⟩ := hplaced.account sink hops hentry hw hl
  obtain ⟨above, raw, hnumber, hraw, htext⟩ := Program.parse_line hline
  exact ⟨line, above, raw, hline, hnumber, hraw, htext, hblames⟩

/-- A fault in a command, a command that is refused, and a jump to nowhere, behind a
comment and around a blank line. -/
theorem warnings_blamed_threeFaults :
    let text := "-- 序章\n@bg x room.png\n\n@bg 9 room.png\n@jump nowhere\n"
    let trail : Trail := { vm := ({} : Interpreter).load (Program.parse text) }
    let ops : List Operation := [.step, .step, .step, .step]
    let account := trail.account RecordingDisplay.sink.silent {} ops
    (∀ other, .load other ∉ ops) ∧
      account = [(0, .malformedCommand 2 (.invalidLayer "bg" "x")),
        (1, .commandRefused 4 (.runtime (.layerOutOfRange 9 5))),
        (2, .jumpFailed "nowhere" 3)] ∧
      account.map Prod.snd =
        Session.log RecordingDisplay.sink.silent ⟨trail.vm, {}⟩ ops := by
  intro text trail ops account
  have hops : ∀ other, .load other ∉ ops := by simp [ops]
  exact ⟨hops, by decide +kernel,
    (warnings_blamed RecordingDisplay.sink {} text {} ops hops).1⟩

/-- The jump on the second line of a text fails, and the log says the first. -/
theorem jumpFailed_behind_comment :
    let program := Program.parse "-- 序章\n@jump nowhere\n"
    let session : Session RecordingDisplay := ⟨({} : Interpreter).load program, {}⟩
    program.lines = [⟨2, "@jump nowhere"⟩] ∧
      session.log RecordingDisplay.sink [.step, .step] = [.jumpFailed "nowhere" 1] ∧
      (LogEvent.jumpFailed "nowhere" 1).severity = .warn ∧
      ("line", "1") ∈ (LogEvent.jumpFailed "nowhere" 1).fields := by
  exact ⟨by decide +kernel, by decide +kernel, rfl, by decide +kernel⟩

end Trail

end VisualNovel
