import VisualNovel.Proofs.Interpreter.Reasons
import VisualNovel.Proofs.Stage.RevealLaws
import VisualNovel.Proofs.Stage.StageLaws

/-!
# Words on screen

What can be read on a screen, a text and a menu, is what the commands of a story
add up to (`Stage.words_performAll`). So is what the story stands at
(`Interpreter.words_step`), and no input changes that (`Interpreter.Takes.words`).
-/

namespace VisualNovel

/-- What can be read on a screen of some width. -/
structure Words where
  text : String := ""
  menu : Option Menu := none
  width : Nat
  deriving DecidableEq, Repr

/-- The words after a command. The last text stays, and the last menu until it is
taken away. -/
def Words.put (words : Words) : DisplayCommand → Words
  | .showText content => { words with text := content }
  | .presentChoices choices => { words with menu := some (.layout choices words.width) }
  | .hideChoices => { words with menu := none }
  | .setImage .. | .setCharacter .. | .clearLayer _ => words

theorem Words.put_of_layer? (words : Words) (h : (DisplayCommand.layer? command).isSome = true) :
    words.put command = words := by
  cases command with
  | setImage | setCharacter | clearLayer => rfl
  | showText | presentChoices | hideChoices => cases h

-- ---------------------------------------------------------------------------
-- On the stage
-- ---------------------------------------------------------------------------

def Scene.words (scene : Scene) : Words :=
  ⟨scene.text.text, scene.menu, scene.screenWidth⟩

theorem Scene.SameWords.words {scene other : Scene} (h : scene.SameWords other) :
    other.words = scene.words := by
  rw [Scene.words, h.text, h.menu, h.width, Scene.words]

namespace Stage

def words (stage : Stage) : Words :=
  stage.scene.words

theorem words_execute (stage : Stage) (command : DisplayCommand) :
    (stage.execute command).display.words = stage.words.put command := by
  cases command with
  | setImage | setCharacter | clearLayer => exact (stage.sameWords_execute rfl).words
  | showText _ | presentChoices _ | hideChoices => rfl

theorem words_performAll (stage : Stage) (actions : List Action) :
    (sink.performAll stage actions).1.words =
      (Action.commands actions).foldl Words.put stage.words := by
  induction actions generalizing stage with
  | nil => rfl
  | cons action actions ih =>
    have hrest := ih (sink.perform stage action).1
    cases action with
    | display line command =>
      exact hrest.trans (congrArg (List.foldl Words.put · _) (stage.words_execute command))
    | closeMenu | wrote _ _ | log _ => exact hrest

theorem words_update (stage : Stage) : stage.update.words = stage.words := by
  have hscene : stage.update.scene.words = stage.scene.updateText.words :=
    (MaskTransition.sameWords_advanceAll stage.transitions stage.scene.updateText).words
  rw [words, hscene, Scene.words, Scene.updateText, Reveal.text_update]
  rfl

end Stage

-- ---------------------------------------------------------------------------
-- In the story
-- ---------------------------------------------------------------------------

namespace Interpreter

/-- What a story stands at, on a screen of some width. -/
def words (vm : Interpreter) (width : Nat) : Words where
  text := vm.currentText.getD ""
  menu := if vm.suspend = .waitingForChoice then some (.layout vm.offer.choices width) else none
  width := width

theorem words_of_not_choosing {vm : Interpreter} (h : vm.suspend ≠ .waitingForChoice)
    (width : Nat) : vm.words width = ⟨vm.currentText.getD "", none, width⟩ := by
  rw [words, if_neg h]

/-- The menu that was there has been taken away. -/
theorem Utters.words (h : Utters before commands vm) (width : Nat) :
    commands.foldl Words.put ⟨before.getD "", none, width⟩ = vm.words width := by
  induction h with
  | nothing hv ht => rw [words_of_not_choosing (by simp [hv]), ht]; rfl
  | text hv ht => rw [words_of_not_choosing (by simp [hv]), ht]; rfl
  | menu hv ho ht => rw [Interpreter.words, if_pos hv, ho, ht]; rfl
  | picture hc _ ih => rw [List.foldl_cons, Words.put_of_layer? _ hc, ih]

theorem words_step (vm : Interpreter) (width : Nat) :
    (Action.commands vm.step.actions).foldl Words.put (vm.words width) =
      vm.step.next.words width := by
  cases hv : vm.suspend with
  | running =>
    rw [words_of_not_choosing (by simp [hv])]
    exact (step_utters hv).words width
  | waitingForInput => rw [step_of_waitingForInput hv]; rfl
  | waitingForChoice =>
    rcases hp : vm.offer.poll with ⟨_ | label, rest⟩
    · have hchoices := Offer.choices_poll hp
      rw [step_of_noPick hv hp, words, words, hchoices]
      rfl
    · obtain ⟨commands, heq, hutters⟩ := step_utters_pick hv hp
      rw [heq]
      exact hutters.words width

theorem Takes.words (h : Takes vm ready given outcome next) (width : Nat) :
    next.words width = vm.words width := by
  cases h with
  | resume hv _ => simp only [Interpreter.words, hv, reduceCtorEq, if_false]
  | hover _ ho => rw [Interpreter.words, Interpreter.words, Offer.choices_hover ho]
  | select _ ho => rw [Interpreter.words, Interpreter.words, Offer.choices_select ho]
  | reveal _ _ | ignored => rfl

end Interpreter

end VisualNovel
