import VisualNovel.Proofs.Interpreter.Utterances

/-!
# Texts of a step

A step shows one text at most, and then it is the one the story waits to have
read (`step_shows`), even if the step was a chain of lines behind a pick.
-/

namespace VisualNovel

namespace Action

def text? : Action → Option String
  | .display _ command => command.text?
  | _ => none

def texts (actions : List Action) : List String :=
  actions.filterMap text?

theorem texts_cons (action : Action) (actions : List Action) :
    texts (action :: actions) = action.text?.toList ++ texts actions := by
  cases h : action.text? <;> simp [texts, h]

theorem texts_eq (actions : List Action) :
    texts actions = (commands actions).filterMap (·.text?) := by
  rw [texts, commands, List.filterMap_filterMap]
  congr 1
  funext action
  cases action <;> rfl

end Action

namespace Interpreter

/-- What was shown on the way to an interpreter, which waits to have it read. -/
inductive Shows (vm : Interpreter) : List String → Prop
  | text : vm.suspend = .waitingForInput → vm.currentText = some text → vm.Shows [text]
  | nothing : vm.suspend ≠ .waitingForInput → vm.Shows []

theorem Utters.shows (h : Utters before commands vm) :
    vm.Shows (commands.filterMap (·.text?)) := by
  induction h with
  | nothing hv _ => exact .nothing (by simp [hv])
  | text hv ht => exact .text hv ht
  | menu hv _ _ => exact .nothing (by simp [hv])
  | picture hc _ ih => rwa [List.filterMap_cons_none (DisplayCommand.eq_of_layer? hc).1]

theorem step_shows (hv : suspend vm ≠ .waitingForInput) :
    vm.step.next.Shows (Action.texts vm.step.actions) := by
  rw [Action.texts_eq]
  cases hs : vm.suspend with
  | running => exact (step_utters hs).shows
  | waitingForInput => exact absurd hs hv
  | waitingForChoice =>
    rcases hp : vm.offer.poll with ⟨_ | label, rest⟩
    · rw [step_of_noPick hs hp]
      exact .nothing hv
    · obtain ⟨commands, heq, hutters⟩ := step_utters_pick hs hp
      rw [heq]
      exact hutters.shows

end Interpreter

end VisualNovel
