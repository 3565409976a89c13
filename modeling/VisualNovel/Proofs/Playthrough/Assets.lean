import VisualNovel.Diagnostic.Check
import VisualNovel.Proofs.Interpreter.Requests
import VisualNovel.Proofs.Playthrough.Acts
import VisualNovel.Proofs.Session.Warnings
import VisualNovel.Proofs.Stage.AssetLaws

/-!
# Missing assets are found beforehand

A check of the program warns of every file that a playthrough will look for in
vain (`Playthrough.missing_foretold`), but for a mask of the name `-`: the check
takes it for no mask at all, the stage looks for a file of that name.
-/

namespace VisualNovel

/-- The report warns that an asset of this path is missing. -/
def Report.WarnsOfMissing (report : Report) (path : String) : Prop :=
  ∃ kind : AssetKind, ∃ finding ∈ report, finding.severity = .warn ∧
    finding.message = s!"{kind.label}素材不存在: {path}"

-- ---------------------------------------------------------------------------
-- The check
-- ---------------------------------------------------------------------------

/-- A command refers to whatever its picture needs, a mask `-` apart. -/
theorem Command.mem_assets {command : Command} (h : command.picture? = some picture)
    (hneeds : picture.asset? = some path ∨ picture.mask? = some path ∧ path ≠ "-")
    (line : Nat) : ∃ asset ∈ command.assets line, asset.path = path := by
  cases command with
  | background layer image transition =>
    cases h
    obtain himage | ⟨hmask, hname⟩ := hneeds
    · cases himage
      exact ⟨_, List.mem_cons_self, rfl⟩
    · obtain ⟨transition, rfl, hfirst⟩ := Option.bind_eq_some_iff.mp hmask
      have hmask : transition.mask? = some path := by
        rw [Transition.mask?, hfirst]
        exact Option.filter_some_pos (decide_eq_true hname)
      refine ⟨⟨.mask, path, line⟩, List.mem_cons_of_mem _ ?_, rfl⟩
      simp [hmask]
  | character layer position image =>
    cases h
    obtain himage | ⟨hmask, -⟩ := hneeds
    · cases himage
      exact ⟨_, List.mem_cons_self, rfl⟩
    · cases hmask
  | clear layer =>
    cases h
    obtain himage | ⟨hmask, -⟩ := hneeds
    · cases himage
    · cases hmask
  | _ => cases h

namespace Program

variable {program : Program}

theorem mem_assetReferences (hline : line ∈ program.lines) (hf : line.form = .command body)
    (hasset : asset ∈ (Command.read body).value.assets line.number) :
    asset ∈ program.assetReferences := by
  refine List.mem_flatMap.mpr ⟨(line.number, (Command.read body).value), ?_, hasset⟩
  refine List.mem_filterMap.mpr ⟨line, hline, ?_⟩
  rw [hf]

theorem check_warns (script : String) (hasset : asset ∈ program.assetReferences)
    (hmissing : files.isFile (Path.join assetsRoot asset.path) = false) :
    (program.check files assetsRoot script).WarnsOfMissing asset.path := by
  have hlisted : asset ∈ program.assetReferences.filter fun asset =>
      !files.isFile (Path.join assetsRoot asset.path) :=
    List.mem_filter.mpr ⟨hasset, by simp [hmissing]⟩
  exact ⟨asset.kind, _, List.mem_append_right _ (List.mem_map_of_mem hlisted), rfl, rfl⟩

theorem Asks.warned (script : String) (h : program.Asks picture)
    (hneeds : picture.asset? = some path ∨ picture.mask? = some path ∧ path ≠ "-")
    (hmissing : files.isFile (Path.join assetsRoot path) = false) :
    (program.check files assetsRoot script).WarnsOfMissing path := by
  obtain ⟨line, hline, body, hf, hpicture⟩ := h
  obtain ⟨asset, hasset, rfl⟩ := Command.mem_assets hpicture hneeds line.number
  exact check_warns script (mem_assetReferences hline hf hasset) hmissing

end Program

-- ---------------------------------------------------------------------------
-- The session
-- ---------------------------------------------------------------------------

theorem DisplayCommand.layer?_of_needs {picture : DisplayCommand}
    (h : picture.asset? = some path ∨ picture.mask? = some path) : picture.layer?.isSome = true := by
  cases picture with
  | setImage | setCharacter | clearLayer => rfl
  | showText | presentChoices | hideChoices => simp [asset?, mask?] at h

/-- The event tells of no missing asset that the report does not warn of, but of the
mask `-` that a line names. -/
def LogEvent.MissingForetold (event : LogEvent) (program : Program) (report : Report) : Prop :=
  ∀ path, event.missing? = some path →
    report.WarnsOfMissing path ∨
      (∃ reason, event = .maskRefused (.asset "-" reason)) ∧
        ∃ picture, program.Asks picture ∧ picture.mask? = some "-"

theorem Program.Explains.missing? {program : Program} (h : program.Explains event) :
    event.missing? = none := by
  cases h <;> rfl

namespace Session

/-- The program is told, with these assets at hand. -/
structure Equipped (program : Program) (files : Files) (assetsRoot : String)
    (session : Session Stage) : Prop where
  program : session.vm.program = program
  sourced : session.vm.Sourced
  files : session.display.files = files
  assetsRoot : session.display.assetsRoot = assetsRoot

theorem sameAssets_act (session : Session Stage) (act : Act) :
    session.display.SameAssets (session.act act).display := by
  cases act with
  | host op =>
    cases op with
    | step =>
      rw [act_step]
      exact session.display.sameAssets_performAll session.vm.step.actions
    | input given =>
      obtain ⟨_, -, hdisplay⟩ := session.takes_act given
      rw [hdisplay]
      split <;> exact ⟨rfl, rfl⟩
    | load program => exact ⟨rfl, rfl⟩
  | update | completeText => exact ⟨rfl, rfl⟩

theorem program_act {act : Act} (session : Session Stage) (hact : ¬act.IsLoad) :
    (session.act act).vm.program = session.vm.program := by
  cases act with
  | host op =>
    have hvm : (session.act (.host op)).vm = _ := operate_vm Stage.sink session op
    rw [hvm]
    exact Interpreter.operate_program _ _ fun program heq => hact ⟨program, heq ▸ rfl⟩
  | update | completeText => rfl

section
variable {program : Program} {files : Files} {assetsRoot : String} {session : Session Stage}

theorem Equipped.act {act : Act} (h : session.Equipped program files assetsRoot)
    (hact : ¬act.IsLoad) : (session.act act).Equipped program files assetsRoot := by
  obtain ⟨hfiles, hroot⟩ := session.sameAssets_act act
  have hsourced := (session.act_moves act).preserve Interpreter.Sourced.move h.sourced
  exact ⟨(session.program_act hact).trans h.program, hsourced, hfiles.trans h.files,
    hroot.trans h.assetsRoot⟩

theorem Equipped.step_log (h : session.Equipped program files assetsRoot) (script : String)
    (hevent : event ∈ (session.step Stage.sink).log) :
    event.MissingForetold program (program.check files assetsRoot script) := by
  intro path hm
  rw [Session.step_log] at hevent
  obtain ⟨action, haction, other, hsame, hevent⟩ := Stage.mem_performAll _ _ hevent
  obtain rfl | ⟨line, picture, rfl, hl, hneeds⟩ := Stage.perform_missing hevent hm
  · cases (Interpreter.step_explained h.sourced haction).missing?.symm.trans hm
  · have hlayer := DisplayCommand.layer?_of_needs (hneeds.imp_right And.left)
    have hasks : program.Asks picture := h.program ▸ Interpreter.step_asks haction hlayer
    have hmissing : files.isFile (Path.join assetsRoot path) = false := by
      rw [← h.files, ← h.assetsRoot]
      exact hsame.lacks hl
    obtain hasset | ⟨hmask, reason, rfl⟩ := hneeds
    · exact .inl (hasks.warned script (.inl hasset) hmissing)
    · by_cases hname : path = "-"
      · subst hname
        exact .inr ⟨⟨reason, rfl⟩, picture, hasks, hmask⟩
      · exact .inl (hasks.warned script (.inr ⟨hmask, hname⟩) hmissing)

end

end Session

-- ---------------------------------------------------------------------------
-- Runs
-- ---------------------------------------------------------------------------

namespace Playthrough

/-- All missing assets in the log so far have been warned of. -/
structure Checked (program : Program) (files : Files) (assetsRoot script : String)
    (play : Playthrough) : Prop where
  equipped : play.session.Equipped program files assetsRoot
  foretold : ∀ event ∈ play.log, event.MissingForetold program (program.check files assetsRoot script)

section
variable {play : Playthrough} {program : Program} {files : Files} {assetsRoot script : String}

theorem Checked.updateStage (h : play.Checked program files assetsRoot script) :
    play.updateStage.Checked program files assetsRoot script := by
  have hupdate : ¬Act.IsLoad .update := nofun
  exact ⟨h.equipped.act hupdate, h.foretold⟩

theorem Checked.frame (h : play.Checked program files assetsRoot script) :
    play.frame.2.Checked program files assetsRoot script := by
  cases hinput : play.updateStage.applyInput with
  | error error => exact frame_of_refused hinput ▸ h.updateStage
  | ok fed =>
    obtain ⟨hsession, -, hlog⟩ := applyInput_eq_ok hinput
    have hfed : fed.session.Equipped program files assetsRoot := by
      rw [hsession]
      refine Session.afterActs_preserve (P := (·.Equipped program files assetsRoot)) ?_
        h.updateStage.equipped
      rintro act hact middle hmiddle
      obtain ⟨given, -, rfl⟩ := List.mem_map.mp hact
      exact hmiddle.act fun ⟨_, heq⟩ => nomatch heq
    rw [(frame_of_fed hinput).2]
    have hstep : ¬Act.IsLoad (.host .step) := nofun
    refine ⟨hfed.act hstep, fun event hevent => ?_⟩
    obtain hevent | hevent := Array.mem_append.mp hevent
    · exact h.foretold event (hlog ▸ hevent)
    · exact hfed.step_log script (List.mem_toArray.mp hevent)

theorem Checked.runFrom (h : play.Checked program files assetsRoot script)
    (limit frames left : Nat) :
    (play.runFrom limit frames left).last.Checked program files assetsRoot script := by
  induction left generalizing frames play with
  | zero =>
    refine ⟨h.equipped, fun event hevent => ?_⟩
    obtain hevent | rfl := Array.mem_push.mp hevent
    · exact h.foretold event hevent
    · exact nofun
  | succ left ih =>
    have hnext := h.frame
    unfold Playthrough.runFrom
    rcases hframe : play.frame with ⟨_ | _ | _, next⟩ <;> rw [hframe] at hnext
    · exact ih hnext (frames + 1)
    · exact hnext
    · exact hnext

end

theorem checked_opening (program : Program) (config : Config) (files : Files) (picks : List Nat)
    (skipReveal : Bool) (script : String) :
    (opening program config files picks skipReveal).Checked program files config.assetsRoot
      script where
  equipped := ⟨rfl, .load _ program, rfl, rfl⟩
  foretold := by simp [opening]

/-- Of every file that is looked for in vain in a run, be it for a command or for a
transition, the check has warned, unless it is the mask `-` of some line. -/
theorem missing_foretold {picks : List Nat} (script : String) (limit : Nat)
    (hstart : start config files picks skip = .ok play)
    (hload : Program.load files config.startScriptPath = .ok program)
    (hevent : event ∈ (play.run limit).last.log) (hmissing : event.missing? = some path) :
    (program.check files config.assetsRoot script).WarnsOfMissing path ∨
      (∃ reason, event = .maskRefused (.asset "-" reason)) ∧
        ∃ picture, program.Asks picture ∧ picture.mask? = some "-" := by
  obtain ⟨loaded, hloaded, rfl⟩ := eq_opening_of_start hstart
  cases hloaded.symm.trans hload
  have hchecked := (checked_opening program config files picks skip script).runFrom limit 0 limit
  exact hchecked.foretold event hevent path hmissing

/-- The image is there, its mask is not. -/
theorem missing_foretold_rule :
    let files : Files := { entries := [
      (["first.rgo"], some "@bg 0 room.png rule.png transition\n完".toUTF8),
      (["room.png"], some .empty)] }
    let config : Config := { assetsRoot := "", startScript := "first.rgo" }
    let program : Program := ⟨[⟨1, "@bg 0 room.png rule.png transition"⟩, ⟨2, "完"⟩]⟩
    let event : LogEvent := .maskRefused (.asset "rule.png" "文件不存在: rule.png")
    ∃ play, start config files [] true = .ok play ∧
      Program.load files config.startScriptPath = .ok program ∧
      event ∈ (play.run 9).last.log ∧ event.missing? = some "rule.png" ∧
      (program.check files config.assetsRoot "first.rgo").WarnsOfMissing "rule.png" := by
  intro files config program event
  have hread : (Program.load files config.startScriptPath).toOption = some program := by
    decide +kernel
  have hstart := start_eq_opening hread [] true
  obtain ⟨loaded, hload, heq⟩ := eq_opening_of_start hstart
  have hprogram : loaded = program := by simpa [hload, Except.toOption] using hread
  have hevent : event ∈ ((opening program config files [] true).run 9).last.log := by
    decide +kernel
  refine ⟨_, hstart, hprogram ▸ hload, hevent, rfl, ?_⟩
  obtain hwarned | ⟨⟨_, hmask⟩, -⟩ :=
    missing_foretold "first.rgo" 9 hstart (hprogram ▸ hload) hevent rfl
  · exact hwarned
  · simp [event] at hmask

/-- The check takes the mask `-` for none and finds nothing; the stage looks for it. -/
theorem dash_mask_refused :
    let files : Files := { entries := [
      (["resource", "script", "first.rgo"], some "@bg 0 room.png - transition\n完".toUTF8),
      (["room.png"], some .empty)] }
    let program : Program := ⟨[⟨1, "@bg 0 room.png - transition"⟩, ⟨2, "完"⟩]⟩
    let play := opening program {} files [] false
    (Program.load files ({} : Config).startScriptPath).toOption = some program ∧
      start {} files [] false = .ok play ∧
      program.check files ({} : Config).assetsRoot "first.rgo" = [] ∧
      (play.run 9).ending = .finished ∧
      (play.run 9).last.log = #[.maskRefused (.asset "-" "文件不存在: ./-")] := by
  intro files program play
  have hload : (Program.load files ({} : Config).startScriptPath).toOption = some program := by
    decide +kernel
  refine ⟨hload, start_eq_opening hload [] false, ?_, ?_, ?_⟩
  · decide +kernel
  · decide +kernel
  · decide +kernel

end Playthrough

end VisualNovel
