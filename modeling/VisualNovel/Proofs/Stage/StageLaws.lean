import VisualNovel.Proofs.Interpreter.Texts
import VisualNovel.Proofs.Session.CarryingOut
import VisualNovel.Proofs.Stage.Layers
import VisualNovel.Stage.Basic

/-!
# Text and menu of the stage

Images, characters and transitions leave the text and the menu alone; each is
set by its own commands, and of the frames only the text takes notice.
-/

namespace VisualNovel

/-- The same text and the same menu, on a screen of the same width. -/
structure Scene.SameWords (scene other : Scene) : Prop where
  text : other.text = scene.text
  menu : other.menu = scene.menu
  width : other.screenWidth = scene.screenWidth

namespace Scene

/-- Whichever layer is noted down afterwards as the last one. -/
theorem sameWords_exchange (scene : Scene) (last : Option Nat) (take : Layer → Layer)
    (index : Nat) (fill : Layer → Layer) (imageLayer characterLayer : Option Nat) :
    scene.SameWords { scene.exchange last take index fill with imageLayer, characterLayer } := by
  cases last <;> exact ⟨rfl, rfl, rfl⟩

theorem sameWords_atLayer {scene changed : Scene} {index : Nat} (h : scene.SameWords changed) :
    ∀ next, scene.atLayer index changed = .ok next → scene.SameWords next := by
  intro next hnext
  obtain ⟨-, rfl⟩ := atLayer_eq_ok.mp hnext
  exact h

end Scene

theorem MaskTransition.sameWords_advanceAll (transitions : List MaskTransition) (scene : Scene) :
    scene.SameWords (advanceAll transitions scene).2 := by
  induction transitions generalizing scene with
  | nil => exact ⟨rfl, rfl, rfl⟩
  | cons transition rest ih =>
    obtain ⟨htext, hmenu, hwidth⟩ := ih (transition.advance.render scene)
    exact ⟨htext, hmenu, hwidth⟩

namespace Stage

theorem text_update (stage : Stage) : stage.update.scene.text = stage.scene.text.update :=
  (MaskTransition.sameWords_advanceAll stage.transitions stage.scene.updateText).text

theorem menu_update (stage : Stage) : stage.update.scene.menu = stage.scene.menu :=
  (MaskTransition.sameWords_advanceAll stage.transitions stage.scene.updateText).menu

theorem sameWords_adopt (stage : Stage) (log : List LogEvent) (changed : Except RuntimeError Scene)
    (h : ∀ next, changed = .ok next → stage.scene.SameWords next) :
    stage.scene.SameWords (stage.adopt log changed).display.scene := by
  cases changed with
  | ok next => exact h next rfl
  | error _ => exact ⟨rfl, rfl, rfl⟩

theorem startTransition_scene (stage : Stage) (layer : Nat) (origin : Option String)
    (transition : Option Transition) :
    (stage.startTransition layer origin transition).1.scene = stage.scene := by
  unfold startTransition
  repeat' split
  all_goals rfl

section
variable {stage : Stage}

theorem setImage_of_missing (h : stage.checkAsset path = .error error) :
    stage.setImage layer path transition = stage.refuse error := by
  unfold setImage
  rw [h]

theorem setImage_of_noLayer (h : stage.checkAsset path = .ok found)
    (hlayer : stage.scene.layers[layer]? = none) :
    stage.setImage layer path transition =
      stage.refuse (.runtime (stage.scene.outOfRange layer)) := by
  unfold setImage
  rw [h, hlayer]

theorem setImage_of_layer (h : stage.checkAsset path = .ok found)
    (hlayer : stage.scene.layers[layer]? = some current) :
    stage.setImage layer path transition =
      let started := stage.startTransition layer current.image transition
      started.1.adopt started.2 (started.1.scene.setImage layer path) := by
  unfold setImage
  rw [h, hlayer]

theorem setCharacter_of_missing (h : stage.checkAsset path = .error error) :
    stage.setCharacter layer { position, path } = stage.refuse error := by
  unfold setCharacter
  rw [h]

theorem setCharacter_of_found (h : stage.checkAsset path = .ok found) :
    stage.setCharacter layer { position, path } =
      stage.adopt [] (stage.scene.setCharacter layer { position, path }) := by
  unfold setCharacter
  rw [h]

end

theorem sameWords_setImage (stage : Stage) (layer : Nat) (path : String)
    (transition : Option Transition) :
    stage.scene.SameWords (stage.setImage layer path transition).display.scene := by
  cases hcheck : stage.checkAsset path with
  | error _ =>
    rw [setImage_of_missing hcheck]
    exact ⟨rfl, rfl, rfl⟩
  | ok _ =>
    cases hlayer : stage.scene.layers[layer]? with
    | none =>
      rw [setImage_of_noLayer hcheck hlayer]
      exact ⟨rfl, rfl, rfl⟩
    | some current =>
      rw [setImage_of_layer hcheck hlayer]
      have hscene := stage.startTransition_scene layer current.image transition
      obtain ⟨htext, hmenu, hwidth⟩ := sameWords_adopt
        (stage.startTransition layer current.image transition).1 _
        ((stage.startTransition layer current.image transition).1.scene.setImage layer path)
        (Scene.sameWords_atLayer (Scene.sameWords_exchange ..))
      exact ⟨htext.trans (congrArg Scene.text hscene), hmenu.trans (congrArg Scene.menu hscene),
        hwidth.trans (congrArg Scene.screenWidth hscene)⟩

theorem sameWords_setCharacter (stage : Stage) (layer : Nat) (position path : String) :
    stage.scene.SameWords (stage.setCharacter layer { position, path }).display.scene := by
  cases hcheck : stage.checkAsset path with
  | error _ =>
    rw [setCharacter_of_missing hcheck]
    exact ⟨rfl, rfl, rfl⟩
  | ok _ =>
    rw [setCharacter_of_found hcheck]
    exact sameWords_adopt stage [] _
      (Scene.sameWords_atLayer (Scene.sameWords_exchange ..))

/-- Pictures leave the words alone. -/
theorem sameWords_execute (stage : Stage) (h : (DisplayCommand.layer? command).isSome = true) :
    stage.scene.SameWords (stage.execute command).display.scene := by
  cases command with
  | setImage layer path transition => exact stage.sameWords_setImage layer path transition
  | setCharacter layer position path => exact stage.sameWords_setCharacter layer position path
  | clearLayer layer =>
    exact sameWords_adopt stage [] _ (Scene.sameWords_atLayer ⟨rfl, rfl, rfl⟩)
  | showText _ | presentChoices _ | hideChoices => cases h

theorem text_execute (stage : Stage) (command : DisplayCommand) :
    (stage.execute command).display.scene.text =
      command.text?.toList.foldl Reveal.setText stage.scene.text := by
  cases command with
  | setImage | setCharacter | clearLayer => exact (stage.sameWords_execute rfl).text
  | showText _ | presentChoices _ | hideChoices => rfl

theorem text_perform (stage : Stage) (action : Action) :
    (sink.perform stage action).1.scene.text =
      action.text?.toList.foldl Reveal.setText stage.scene.text := by
  cases action with
  | display line command => exact stage.text_execute command
  | closeMenu | wrote _ _ | log _ => rfl

theorem text_performAll (stage : Stage) (actions : List Action) :
    (sink.performAll stage actions).1.scene.text =
      (Action.texts actions).foldl Reveal.setText stage.scene.text := by
  induction actions generalizing stage with
  | nil => rfl
  | cons action actions ih =>
    simp only [DisplaySink.performAll, ih, text_perform, Action.texts_cons, List.foldl_append]

/-- A menu on screen is one that was laid out. -/
def MenuLaid (stage : Stage) : Prop :=
  ∀ menu, stage.scene.menu = some menu → ∃ choices screenWidth, menu = .layout choices screenWidth

theorem MenuLaid.of_eq {stage next : Stage} (hl : stage.MenuLaid)
    (h : next.scene.menu = stage.scene.menu) : next.MenuLaid :=
  fun menu hmenu => hl menu (h ▸ hmenu)

theorem MenuLaid.execute {stage : Stage} (hl : stage.MenuLaid) (command : DisplayCommand) :
    (stage.execute command).display.MenuLaid := by
  cases command with
  | setImage | setCharacter | clearLayer => exact hl.of_eq (stage.sameWords_execute rfl).menu
  | showText _ => exact hl
  | presentChoices choices => exact fun menu h => ⟨choices, _, (Option.some.inj h).symm⟩
  | hideChoices => exact fun menu h => nomatch h

theorem MenuLaid.perform {stage : Stage} (hl : stage.MenuLaid) (action : Action) :
    (sink.perform stage action).1.MenuLaid := by
  cases action with
  | display line command => exact hl.execute command
  | closeMenu => exact hl.execute .hideChoices
  | wrote _ _ | log _ => exact hl

theorem MenuLaid.performAll {stage : Stage} (hl : stage.MenuLaid) (actions : List Action) :
    (sink.performAll stage actions).1.MenuLaid := by
  induction actions generalizing stage with
  | nil => exact hl
  | cons action actions ih => exact ih (hl.perform action)

end Stage

end VisualNovel
