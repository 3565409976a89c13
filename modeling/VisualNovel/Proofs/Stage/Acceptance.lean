import VisualNovel.Display.Recording
import VisualNovel.Proofs.Stage.AssetLaws
import VisualNovel.Proofs.Stage.Cleared
import VisualNovel.Proofs.Stage.Layers

/-!
# Accepted commands

A stage accepts a command if there is a layer for it and a file for its image. A
recording display that knows of the same layers and of the same files accepts the same
commands, though it looks for them in the other order, and what is refused leaves no
trace on either (`Stage.displays_agree`).
-/

namespace VisualNovel

/-- There is the layer that the command names, of so many, and its image. -/
def DisplayCommand.Fits (layerCount : Nat) (lacks : String → Prop) : DisplayCommand → Prop
  | .setImage layer path _ | .setCharacter layer _ path => layer < layerCount ∧ ¬ lacks path
  | .clearLayer layer => layer < layerCount
  | .showText _ | .presentChoices _ | .hideChoices => True

theorem DisplayCommand.fits_congr {command : DisplayCommand}
    (h : ∀ path, command.asset? = some path → (lacks path ↔ lacking path)) :
    command.Fits layerCount lacks ↔ command.Fits layerCount lacking := by
  cases command with
  | setImage layer path _ | setCharacter layer _ path => simp [Fits, h path rfl]
  | clearLayer _ | showText _ | presentChoices _ | hideChoices => exact .rfl

/-- What an accepted command makes of a scene. -/
def Scene.Follows (scene : Scene) : DisplayCommand → Scene → Prop
  | .showText content, next => next = scene.showText content
  | .setImage layer path _, next => scene.setImage layer path = .ok next
  | .setCharacter layer position path, next =>
    scene.setCharacter layer { position, path } = .ok next
  | .clearLayer layer, next => scene.clearLayer layer = .ok next
  | .presentChoices choices, next => next = scene.showChoices choices
  | .hideChoices, next => next = scene.hideChoices

namespace Scene

section
variable {scene : Scene}

theorem Follows.layerCount (h : scene.Follows command next) :
    next.layerCount = scene.layerCount := by
  cases command with
  | setImage layer path _ | setCharacter layer position path =>
    obtain ⟨-, rfl⟩ := atLayer_eq_ok.mp h
    exact layerCount_exchange ..
  | clearLayer layer =>
    obtain ⟨-, rfl⟩ := atLayer_eq_ok.mp h
    exact layerCount_modifyLayer ..
  | showText _ | presentChoices _ | hideChoices =>
    cases h
    rfl

end

end Scene

-- ---------------------------------------------------------------------------
-- The stage
-- ---------------------------------------------------------------------------

namespace Stage

def Accepts (stage : Stage) (command : DisplayCommand) : Prop :=
  command.Fits stage.scene.layerCount stage.Lacks

instance (stage : Stage) (path : String) : Decidable (stage.Lacks path) :=
  inferInstanceAs (Decidable (_ = false))

/-- The transition that a command starts: the one of its effect's name and of a mask
that is there, from the background that the layer has so far. -/
def begun? (stage : Stage) : DisplayCommand → Option MaskTransition
  | .setImage layer path (some { name, args := mask :: _ }) =>
    if name = MaskTransition.effectName ∧ ¬ stage.Lacks path ∧ ¬ stage.Lacks mask then
      stage.scene.layers[layer]?.map fun current =>
        { layer, mask, origin := current.image, speed := stage.transitionSpeed }
    else none
  | _ => none

section
variable {stage : Stage}

theorem checkAsset_of_found (h : ¬ stage.Lacks path) : stage.checkAsset path = .ok () := by
  simp_all [checkAsset, Lacks]

theorem checkAsset_of_lacks (h : stage.Lacks path) :
    ∃ error, stage.checkAsset path = .error error := by
  simp_all [checkAsset, Lacks]

theorem startTransition_eq (hpath : ¬ stage.Lacks path)
    (hlayer : stage.scene.layers[layer]? = some current) (transition : Option Transition) :
    (stage.startTransition layer current.image transition).1 =
      { stage with
        transitions :=
          stage.transitions ++ (stage.begun? (.setImage layer path transition)).toList } := by
  cases transition with
  | none => simp [startTransition, begun?]
  | some transition =>
    obtain ⟨name, args⟩ := transition
    by_cases hname : name = MaskTransition.effectName
    · cases args with
      | nil => simp [startTransition, transitionFor, begun?, hname]
      | cons mask extra =>
        by_cases hmask : stage.Lacks mask
        · obtain ⟨error, herror⟩ := checkAsset_of_lacks hmask
          simp [startTransition, transitionFor, begun?, hname, herror, hmask]
        · simp [startTransition, transitionFor, begun?, hname, checkAsset_of_found hmask, hmask,
            hpath, hlayer]
    · cases args <;> simp [startTransition, transitionFor, begun?, hname]

/-- What becomes of a stage that accepts a command. -/
structure Carries (stage : Stage) (command : DisplayCommand) (response : Response Stage) :
    Prop where
  accepted : response.refusal = none
  scene : stage.scene.Follows command response.display.scene
  transitions : response.display.transitions = stage.transitions ++ (stage.begun? command).toList
  speed : response.display.transitionSpeed = stage.transitionSpeed

theorem execute_accepted (h : stage.Accepts command) :
    stage.Carries command (stage.execute command) := by
  cases command with
  | setImage layer path transition =>
    obtain ⟨hlt, hpath⟩ := h
    have hlayer := List.getElem?_eq_getElem hlt
    obtain ⟨next, hnext⟩ : ∃ next, stage.scene.setImage layer path = .ok next :=
      ⟨_, Scene.atLayer_of_lt hlt⟩
    simp only [execute, setImage_of_layer (checkAsset_of_found hpath) hlayer,
      startTransition_eq hpath hlayer, hnext, adopt]
    exact ⟨rfl, hnext, rfl, rfl⟩
  | setCharacter layer position path =>
    obtain ⟨hlt, hpath⟩ := h
    obtain ⟨next, hnext⟩ : ∃ next, stage.scene.setCharacter layer { position, path } = .ok next :=
      ⟨_, Scene.atLayer_of_lt hlt⟩
    simp only [execute, setCharacter_of_found (checkAsset_of_found hpath), hnext, adopt]
    exact ⟨rfl, hnext, (List.append_nil _).symm, rfl⟩
  | clearLayer layer =>
    obtain ⟨next, hnext⟩ : ∃ next, stage.scene.clearLayer layer = .ok next :=
      ⟨_, Scene.atLayer_of_lt h⟩
    simp only [execute, hnext, adopt]
    exact ⟨rfl, hnext, (List.append_nil _).symm, rfl⟩
  | showText _ | presentChoices _ | hideChoices =>
    exact ⟨rfl, rfl, (List.append_nil _).symm, rfl⟩

theorem begun?_of_refused (h : ¬ stage.Accepts command) : stage.begun? command = none := by
  unfold begun?
  split
  next layer path name mask _ =>
    split
    next hstarts =>
      have hlayer : stage.scene.layers[layer]? = none :=
        List.getElem?_eq_none (Nat.le_of_not_lt fun hlt => h ⟨hlt, hstarts.2.1⟩)
      rw [hlayer, Option.map_none]
    next => rfl
  next => rfl

theorem execute_refused (h : ¬ stage.Accepts command) :
    ∃ error, stage.execute command = stage.refuse error := by
  cases command with
  | setImage layer path transition =>
    by_cases hpath : stage.Lacks path
    · obtain ⟨error, herror⟩ := checkAsset_of_lacks hpath
      exact ⟨error, setImage_of_missing herror⟩
    · have hlayer : stage.scene.layers[layer]? = none :=
        List.getElem?_eq_none (Nat.le_of_not_lt fun hlt => h ⟨hlt, hpath⟩)
      exact ⟨_, setImage_of_noLayer (checkAsset_of_found hpath) hlayer⟩
  | setCharacter layer position path =>
    by_cases hpath : stage.Lacks path
    · obtain ⟨error, herror⟩ := checkAsset_of_lacks hpath
      exact ⟨error, setCharacter_of_missing herror⟩
    · have hge : ¬ layer < stage.scene.layerCount := fun hlt => h ⟨hlt, hpath⟩
      simp only [execute, setCharacter_of_found (checkAsset_of_found hpath), Scene.setCharacter,
        Scene.atLayer, hge, if_false, adopt]
      exact ⟨_, rfl⟩
  | clearLayer layer =>
    have hge : ¬ layer < stage.scene.layerCount := h
    simp only [execute, Scene.clearLayer, Scene.atLayer, hge, if_false, adopt]
    exact ⟨_, rfl⟩
  | showText _ | presentChoices _ | hideChoices => exact absurd trivial h

theorem refusal_eq_none_iff : (stage.execute command).refusal = none ↔ stage.Accepts command := by
  by_cases h : stage.Accepts command
  · exact iff_of_true (execute_accepted h).accepted h
  · obtain ⟨error, hrefused⟩ := execute_refused h
    exact iff_of_false (by simp [hrefused, refuse]) h

theorem display_of_refused (h : (stage.execute command).refusal ≠ none) :
    (stage.execute command).display = stage := by
  obtain ⟨error, hrefused⟩ := execute_refused (mt refusal_eq_none_iff.mpr h)
  rw [hrefused, refuse]

theorem call_of_refused (h : ¬ stage.Accepts command) : stage.call (.execute command) = stage := by
  obtain ⟨error, hrefused⟩ := execute_refused h
  rw [call, hrefused, refuse]

theorem layerCount_call (stage : Stage) (call : StageCall) :
    (stage.call call).scene.layerCount = stage.scene.layerCount := by
  cases call with
  | execute command =>
    by_cases h : stage.Accepts command
    · exact (execute_accepted h).scene.layerCount
    · rw [call_of_refused h]
  | update => exact MaskTransition.layerCount_advanceAll ..
  | completeText => rfl

theorem layerCount_afterCalls (stage : Stage) (calls : List StageCall) :
    (stage.afterCalls calls).scene.layerCount = stage.scene.layerCount := by
  induction calls generalizing stage with
  | nil => rfl
  | cons call calls ih => exact (ih _).trans (stage.layerCount_call call)

theorem layerCount_ofConfig (config : Config) (files : Files) :
    (ofConfig config files).scene.layerCount = config.layerCount :=
  List.length_replicate

theorem sameAssets_call (stage : Stage) (call : StageCall) :
    stage.SameAssets (stage.call call) := by
  cases call with
  | execute command => exact stage.sameAssets_execute command
  | update | completeText => exact ⟨rfl, rfl⟩

theorem accepts_call (stage : Stage) (call : StageCall) :
    (stage.call call).Accepts command ↔ stage.Accepts command := by
  obtain ⟨hfiles, hroot⟩ := stage.sameAssets_call call
  rw [Accepts, Accepts, layerCount_call]
  refine DisplayCommand.fits_congr fun path _ => ?_
  rw [Lacks, hfiles, hroot, Lacks]

/-- Which commands are accepted is settled when the stage is set up. -/
theorem accepts_afterCalls (stage : Stage) (calls : List StageCall) :
    (stage.afterCalls calls).Accepts command ↔ stage.Accepts command := by
  induction calls generalizing stage with
  | nil => exact .rfl
  | cons call calls ih => exact (ih _).trans (stage.accepts_call call)

/-- The command of the call, if it has one that is accepted. -/
def accepted? (stage : Stage) : StageCall → Option DisplayCommand
  | .execute command => if (stage.execute command).refusal = none then some command else none
  | .update | .completeText => none

/-- The commands of the calls that are accepted, each at its time. -/
def accepted (stage : Stage) : List StageCall → List DisplayCommand
  | [] => []
  | call :: calls => (stage.accepted? call).toList ++ (stage.call call).accepted calls

theorem accepted?_of_accepts (h : stage.Accepts command) :
    stage.accepted? (.execute command) = some command := by
  simp [accepted?, refusal_eq_none_iff, h]

theorem accepted?_of_refused (h : ¬ stage.Accepts command) :
    stage.accepted? (.execute command) = none := by
  simp [accepted?, refusal_eq_none_iff, h]

end

end Stage

-- ---------------------------------------------------------------------------
-- The recording display
-- ---------------------------------------------------------------------------

namespace RecordingDisplay

def Accepts (display : RecordingDisplay) (command : DisplayCommand) : Prop :=
  command.Fits display.layerCount (· ∈ display.missing)

/-- Frames pass a recording by. -/
def call (display : RecordingDisplay) : StageCall → RecordingDisplay
  | .execute command => (display.execute command).display
  | .update => display
  | .completeText => display.completeText

def afterCalls (display : RecordingDisplay) (calls : List StageCall) : RecordingDisplay :=
  calls.foldl call display

section
variable {display : RecordingDisplay}

theorem refusal?_eq_none_iff : display.refusal? command = none ↔ display.Accepts command := by
  cases command with
  | setImage layer path _ | setCharacter layer _ path =>
    by_cases hlayer : display.layerCount ≤ layer <;> by_cases hpath : path ∈ display.missing <;>
      simp [refusal?, DisplayCommand.layer?, DisplayCommand.asset?, Accepts, DisplayCommand.Fits,
        hlayer, hpath, Nat.not_le.mp]
  | clearLayer layer =>
    by_cases hlayer : display.layerCount ≤ layer <;>
      simp [refusal?, DisplayCommand.layer?, DisplayCommand.asset?, Accepts, DisplayCommand.Fits,
        hlayer, Nat.not_le.mp]
  | showText _ | presentChoices _ | hideChoices => exact iff_of_true rfl trivial

theorem refusal_eq_none_iff :
    (display.execute command).refusal = none ↔ display.Accepts command := by
  rw [← refusal?_eq_none_iff, execute]
  cases display.refusal? command <;> simp

theorem display_of_refused (h : (display.execute command).refusal ≠ none) :
    (display.execute command).display = display := by
  revert h
  rw [execute]
  cases display.refusal? command <;> simp

theorem accepts_call (display : RecordingDisplay) (call : StageCall) :
    (display.call call).Accepts command ↔ display.Accepts command := by
  cases call with
  | execute other =>
    rw [call, execute]
    cases display.refusal? other <;> exact .rfl
  | update | completeText => exact .rfl

theorem accepts_afterCalls (display : RecordingDisplay) (calls : List StageCall) :
    (display.afterCalls calls).Accepts command ↔ display.Accepts command := by
  induction calls generalizing display with
  | nil => exact .rfl
  | cons call calls ih => exact (ih _).trans (display.accepts_call call)

end

end RecordingDisplay

namespace Stage

/-- Let a recording have as many layers as a stage, and of the images that the commands
name count as missing exactly those for which there is no file. Then each command is
accepted by both or refused by both, and a refusal changes neither. -/
theorem displays_agree (config : Config) (files : Files) (recording : RecordingDisplay)
    (calls : List StageCall) (hlayers : recording.layerCount = config.layerCount)
    (hmissing : ∀ command, .execute command ∈ calls → ∀ path, command.asset? = some path →
      (path ∈ recording.missing ↔ (ofConfig config files).Lacks path)) :
    ∀ before command after, calls = before ++ .execute command :: after →
      let stage := (ofConfig config files).afterCalls before
      let display := recording.afterCalls before
      ((stage.execute command).refusal = none ↔ (display.execute command).refusal = none) ∧
        ((stage.execute command).refusal ≠ none → (stage.execute command).display = stage) ∧
        ((display.execute command).refusal ≠ none →
          (display.execute command).display = display) := by
  rintro before command after rfl stage display
  have hknown := hmissing command (by simp)
  refine ⟨?_, display_of_refused, RecordingDisplay.display_of_refused⟩
  calc (stage.execute command).refusal = none
    _ ↔ stage.Accepts command := refusal_eq_none_iff
    _ ↔ (ofConfig config files).Accepts command := accepts_afterCalls ..
    _ ↔ command.Fits config.layerCount (ofConfig config files).Lacks := by
      rw [Accepts, layerCount_ofConfig]
    _ ↔ recording.Accepts command := by
      rw [RecordingDisplay.Accepts, hlayers, DisplayCommand.fits_congr hknown]
    _ ↔ display.Accepts command := (RecordingDisplay.accepts_afterCalls ..).symm
    _ ↔ (display.execute command).refusal = none := RecordingDisplay.refusal_eq_none_iff.symm

/-- A background is refused for its image though there is its layer, a character for its
layer though there is its image. -/
theorem displays_agree_twoRefusals :
    let files : Files := { entries := [(["room.png"], some .empty)] }
    let recording : RecordingDisplay := { layerCount := 2, missing := ["gone.png"] }
    let config : Config := { layerCount := 2 }
    let gone : DisplayCommand := .setImage 1 "gone.png" (some ⟨"transition", ["room.png"]⟩)
    let before : List StageCall := [.execute (.setImage 0 "room.png" none), .update]
    let outside : DisplayCommand := .setCharacter 2 "left" "room.png"
    let calls : List StageCall :=
      before ++ [.execute gone, .completeText, .execute outside]
    recording.layerCount = config.layerCount ∧
      (∀ command, .execute command ∈ calls → ∀ path, command.asset? = some path →
        (path ∈ recording.missing ↔ (ofConfig config files).Lacks path)) ∧
      let stage := (ofConfig config files).afterCalls before
      let display := recording.afterCalls before
      (stage.execute gone).refusal ≠ none ∧ (stage.execute gone).display = stage ∧
        (display.execute gone).refusal ≠ none ∧ (display.execute gone).display = display := by
  intro files recording config gone before outside calls
  have hmissing : ∀ command, .execute command ∈ calls → ∀ path, command.asset? = some path →
      (path ∈ recording.missing ↔ (ofConfig config files).Lacks path) := by
    have hroom : ¬ (ofConfig config files).Lacks "room.png" := by decide +kernel
    have hgone : (ofConfig config files).Lacks "gone.png" := by decide +kernel
    intro command hcommand path hpath
    simp only [calls, before, List.cons_append, List.nil_append, List.mem_cons,
      StageCall.execute.injEq, reduceCtorEq, List.not_mem_nil, or_false, false_or] at hcommand
    rcases hcommand with rfl | rfl | rfl <;> cases hpath <;> simp [recording, hroom, hgone]
  obtain ⟨hsame, hstage, hdisplay⟩ :=
    displays_agree config files recording calls rfl hmissing before gone
      [.completeText, .execute outside] rfl
  have hrefused : (((ofConfig config files).afterCalls before).execute gone).refusal ≠ none := by
    decide +kernel
  exact ⟨rfl, hmissing, hrefused, hstage hrefused, mt hsame.mpr hrefused,
    hdisplay (mt hsame.mpr hrefused)⟩

end Stage

end VisualNovel
