import VisualNovel.Proofs.Stage.StageLaws

/-!
# Assets the stage lacks

Which files there are does not change. When the stage complains of a file that is
not there, it is the image of a background or a character, or the mask that a
transition names first (`Stage.perform_missing`).
-/

namespace VisualNovel

/-- The file that was looked for and not found. -/
def LogEvent.missing? : LogEvent → Option String
  | .commandRefused _ (.asset path _) | .menuNotClosed (.asset path _)
  | .maskRefused (.asset path _) => some path
  | _ => none

/-- The first argument of the transition. -/
def DisplayCommand.mask? : DisplayCommand → Option String
  | .setImage _ _ transition => transition.bind (·.args.head?)
  | _ => none

namespace Stage

-- ---------------------------------------------------------------------------
-- Files
-- ---------------------------------------------------------------------------

/-- The same files, and the same place to look for assets. -/
structure SameAssets (stage other : Stage) : Prop where
  files : other.files = stage.files
  assetsRoot : other.assetsRoot = stage.assetsRoot

theorem SameAssets.trans {stage middle other : Stage} (h : stage.SameAssets middle)
    (hother : middle.SameAssets other) : stage.SameAssets other :=
  ⟨hother.files.trans h.files, hother.assetsRoot.trans h.assetsRoot⟩

theorem sameAssets_adopt (stage : Stage) (log : List LogEvent)
    (changed : Except RuntimeError Scene) :
    stage.SameAssets (stage.adopt log changed).display := by
  cases changed <;> exact ⟨rfl, rfl⟩

theorem sameAssets_startTransition (stage : Stage) (layer : Nat) (origin : Option String)
    (transition : Option Transition) :
    stage.SameAssets (stage.startTransition layer origin transition).1 := by
  unfold startTransition
  repeat' split
  all_goals exact ⟨rfl, rfl⟩

theorem sameAssets_setImage (stage : Stage) (layer : Nat) (path : String)
    (transition : Option Transition) :
    stage.SameAssets (stage.setImage layer path transition).display := by
  cases hcheck : stage.checkAsset path with
  | error _ => exact setImage_of_missing hcheck ▸ ⟨rfl, rfl⟩
  | ok _ =>
    cases hlayer : stage.scene.layers[layer]? with
    | none => exact setImage_of_noLayer hcheck hlayer ▸ ⟨rfl, rfl⟩
    | some current =>
      rw [setImage_of_layer hcheck hlayer]
      exact (stage.sameAssets_startTransition layer current.image transition).trans
        (sameAssets_adopt ..)

theorem sameAssets_setCharacter (stage : Stage) (layer : Nat) (position path : String) :
    stage.SameAssets (stage.setCharacter layer { position, path }).display := by
  cases hcheck : stage.checkAsset path with
  | error _ => exact setCharacter_of_missing hcheck ▸ ⟨rfl, rfl⟩
  | ok _ =>
    rw [setCharacter_of_found hcheck]
    exact sameAssets_adopt ..

theorem sameAssets_execute (stage : Stage) (command : DisplayCommand) :
    stage.SameAssets (stage.execute command).display := by
  cases command with
  | setImage layer path transition => exact stage.sameAssets_setImage layer path transition
  | setCharacter layer position path => exact stage.sameAssets_setCharacter layer position path
  | clearLayer layer => exact sameAssets_adopt ..
  | showText _ | presentChoices _ | hideChoices => exact ⟨rfl, rfl⟩

theorem sameAssets_perform (stage : Stage) (action : Action) :
    stage.SameAssets (sink.perform stage action).1 := by
  cases action with
  | display line command => exact stage.sameAssets_execute command
  | closeMenu => exact stage.sameAssets_execute .hideChoices
  | wrote _ _ | log _ => exact ⟨rfl, rfl⟩

theorem sameAssets_performAll (stage : Stage) (actions : List Action) :
    stage.SameAssets (sink.performAll stage actions).1 := by
  induction actions generalizing stage with
  | nil => exact ⟨rfl, rfl⟩
  | cons action actions ih => exact (stage.sameAssets_perform action).trans (ih _)

-- ---------------------------------------------------------------------------
-- Complaints
-- ---------------------------------------------------------------------------

/-- There is no file of this path among the assets. -/
def Lacks (stage : Stage) (path : String) : Prop :=
  stage.files.isFile (Path.join stage.assetsRoot path) = false

theorem SameAssets.lacks {stage other : Stage} (h : stage.SameAssets other)
    (hl : other.Lacks path) : stage.Lacks path := by
  rwa [Lacks, ← h.files, ← h.assetsRoot]

section
variable {stage : Stage}

theorem checkAsset_eq_error (h : stage.checkAsset path = .error error) :
    stage.Lacks path ∧ ∃ reason, error = .asset path reason := by
  simp only [checkAsset] at h
  split at h <;> cases h
  exact ⟨Bool.of_not_eq_true ‹_›, _, rfl⟩

theorem refuse_refusal (h : stage.checkAsset image = .error error)
    (hrefused : (stage.refuse error).refusal = some (.asset path reason)) :
    stage.Lacks path ∧ image = path := by
  obtain ⟨hl, _, rfl⟩ := checkAsset_eq_error h
  cases hrefused
  exact ⟨hl, rfl⟩

theorem adopt_refusal {changed : Except RuntimeError Scene} :
    (stage.adopt log changed).refusal ≠ some (.asset path reason) := by
  cases changed <;> simp [adopt]

theorem execute_refusal (h : (stage.execute command).refusal = some (.asset path reason)) :
    stage.Lacks path ∧ command.asset? = some path := by
  cases command with
  | setImage layer image transition =>
    change (stage.setImage layer image transition).refusal = _ at h
    cases hcheck : stage.checkAsset image with
    | error _ =>
      rw [setImage_of_missing hcheck] at h
      obtain ⟨hl, rfl⟩ := refuse_refusal hcheck h
      exact ⟨hl, rfl⟩
    | ok _ =>
      cases hlayer : stage.scene.layers[layer]? with
      | none =>
        rw [setImage_of_noLayer hcheck hlayer] at h
        cases h
      | some current =>
        rw [setImage_of_layer hcheck hlayer] at h
        exact absurd h adopt_refusal
  | setCharacter layer position image =>
    change (stage.setCharacter layer { position, path := image }).refusal = _ at h
    cases hcheck : stage.checkAsset image with
    | error _ =>
      rw [setCharacter_of_missing hcheck] at h
      obtain ⟨hl, rfl⟩ := refuse_refusal hcheck h
      exact ⟨hl, rfl⟩
    | ok _ =>
      rw [setCharacter_of_found hcheck] at h
      exact absurd h adopt_refusal
  | clearLayer layer => exact absurd h adopt_refusal
  | showText _ | presentChoices _ | hideChoices => cases h

theorem transitionFor_missing (h : stage.transitionFor layer origin transition = .error event)
    (hm : event.missing? = some path) :
    stage.Lacks path ∧ transition.args.head? = some path ∧
      ∃ reason, event = .maskRefused (.asset path reason) := by
  unfold transitionFor at h
  split at h
  · cases h
    cases hm
  · cases hmask : transition.args.head? with
    | none =>
      rw [hmask] at h
      cases h
      cases hm
    | some mask =>
      cases hcheck : stage.checkAsset mask with
      | error error =>
        simp only [hmask, hcheck] at h
        obtain ⟨hl, reason, rfl⟩ := checkAsset_eq_error hcheck
        cases h
        cases hm
        exact ⟨hl, rfl, reason, rfl⟩
      | ok _ => simp [hmask, hcheck] at h

theorem startTransition_missing
    (h : event ∈ (stage.startTransition layer origin transition).2)
    (hm : event.missing? = some path) :
    stage.Lacks path ∧ (transition.bind (·.args.head?)) = some path ∧
      ∃ reason, event = .maskRefused (.asset path reason) := by
  cases transition with
  | none => cases h
  | some transition =>
    cases hstart : stage.transitionFor layer origin transition with
    | ok _ => simp [startTransition, hstart] at h
    | error _ =>
      simp only [startTransition, hstart, List.mem_singleton] at h
      cases h
      exact transitionFor_missing hstart hm

theorem adopt_log (stage : Stage) (log : List LogEvent) (changed : Except RuntimeError Scene) :
    (stage.adopt log changed).log = log := by
  cases changed <;> rfl

theorem execute_log (h : event ∈ (stage.execute command).log) (hm : event.missing? = some path) :
    stage.Lacks path ∧ command.mask? = some path ∧
      ∃ reason, event = .maskRefused (.asset path reason) := by
  cases command with
  | setImage layer image transition =>
    change event ∈ (stage.setImage layer image transition).log at h
    cases hcheck : stage.checkAsset image with
    | error _ =>
      rw [setImage_of_missing hcheck] at h
      cases h
    | ok _ =>
      cases hlayer : stage.scene.layers[layer]? with
      | none =>
        rw [setImage_of_noLayer hcheck hlayer] at h
        cases h
      | some current =>
        rw [setImage_of_layer hcheck hlayer, adopt_log] at h
        exact startTransition_missing h hm
  | setCharacter layer position image =>
    change event ∈ (stage.setCharacter layer { position, path := image }).log at h
    cases hcheck : stage.checkAsset image with
    | error _ =>
      rw [setCharacter_of_missing hcheck] at h
      cases h
    | ok _ =>
      rw [setCharacter_of_found hcheck, adopt_log] at h
      cases h
  | clearLayer layer =>
    change event ∈ (stage.adopt [] _).log at h
    rw [adopt_log] at h
    cases h
  | showText _ | presentChoices _ | hideChoices => cases h

/-- Where a complaint of a missing file comes from: a command, or the story. -/
theorem perform_missing (h : event ∈ (sink.perform stage action).2)
    (hm : event.missing? = some path) :
    action = .log event ∨ ∃ line command, action = .display line command ∧ stage.Lacks path ∧
      (command.asset? = some path ∨ command.mask? = some path ∧
        ∃ reason, event = .maskRefused (.asset path reason)) := by
  cases action with
  | display line command =>
    refine .inr ⟨line, command, rfl, ?_⟩
    obtain hlog | hrefused := List.mem_append.mp h
    · obtain ⟨hl, hmask, hevent⟩ := execute_log hlog hm
      exact ⟨hl, .inr ⟨hmask, hevent⟩⟩
    · obtain ⟨error, herror, rfl⟩ := List.mem_map.mp hrefused
      cases error with
      | asset other reason =>
        cases hm
        obtain ⟨hl, hasset⟩ := execute_refusal (Option.mem_toList.mp herror)
        exact ⟨hl, .inl hasset⟩
      | runtime _ => cases hm
  | closeMenu => cases h
  | wrote _ _ => cases h
  | log other =>
    cases List.mem_singleton.mp h
    exact .inl rfl

end

/-- Of many actions each is carried out by a stage with the same assets. -/
theorem mem_performAll (stage : Stage) (actions : List Action)
    (h : event ∈ (sink.performAll stage actions).2) :
    ∃ action ∈ actions, ∃ other : Stage, stage.SameAssets other ∧
      event ∈ (sink.perform other action).2 := by
  induction actions generalizing stage with
  | nil => cases h
  | cons action actions ih =>
    obtain h | h := List.mem_append.mp h
    · exact ⟨action, List.mem_cons_self, stage, ⟨rfl, rfl⟩, h⟩
    · obtain ⟨later, hlater, other, hsame, hevent⟩ := ih _ h
      exact ⟨later, List.mem_cons_of_mem _ hlater, other,
        (stage.sameAssets_perform action).trans hsame, hevent⟩

end Stage

end VisualNovel
