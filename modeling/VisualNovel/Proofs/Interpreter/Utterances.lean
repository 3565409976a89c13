import VisualNovel.Proofs.Interpreter.Moves

/-!
# What lines put on screen

Lines run one after another put pictures on layers, as many as they like, and
then one text or one menu at most, with which they end (`Chain.utters`). A step
from a menu takes that menu away first (`step_utters_pick`), so menus are put up
and taken away in turn (`step_menus`).
-/

namespace VisualNovel

namespace DisplayCommand

def menu? : DisplayCommand → Option (List Choice)
  | .presentChoices choices => some choices
  | _ => none

/-- A picture on a layer is neither a text nor a menu, nor the end of one. -/
theorem eq_of_layer? (h : (layer? command).isSome = true) :
    command.text? = none ∧ command.menu? = none ∧ command ≠ .hideChoices := by
  cases command with
  | setImage | setCharacter | clearLayer => exact ⟨rfl, rfl, nofun⟩
  | showText | presentChoices | hideChoices => cases h

end DisplayCommand

namespace Action

def command? : Action → Option DisplayCommand
  | .display _ command => some command
  | .closeMenu => some .hideChoices
  | .wrote .. | .log _ => none

/-- What the display is asked to show, in order. -/
def commands (actions : List Action) : List DisplayCommand :=
  actions.filterMap command?

theorem commands_append (actions more : List Action) :
    commands (actions ++ more) = commands actions ++ commands more :=
  List.filterMap_append ..

theorem commands_logs (f : α → LogEvent) (xs : List α) :
    commands (xs.map (.log <| f ·)) = [] := by
  simp [commands, List.filterMap_map, Function.comp_def, command?]

end Action

namespace Interpreter

/-- What was put on screen on the way to an interpreter; `before` is the text that
was on show. -/
inductive Utters (before : Option String) : List DisplayCommand → Interpreter → Prop
  | nothing : next.suspend = .running → next.currentText = before → Utters before [] next
  | text : next.suspend = .waitingForInput → next.currentText = some said →
      Utters before [.showText said] next
  | menu : next.suspend = .waitingForChoice → next.offer.choices = choices →
      next.currentText = before → Utters before [.presentChoices choices] next
  | picture : command.layer?.isSome = true → Utters before commands next →
      Utters before (command :: commands) next

/-- As long as the story runs on, there are only pictures on the way. -/
theorem Utters.append (h : Utters before commands middle) (hm : middle.suspend = .running)
    (hmore : Utters middle.currentText more next) : Utters before (commands ++ more) next := by
  induction h with
  | nothing _ ht => exact ht ▸ hmore
  | text hw | menu hw => simp [hm] at hw
  | picture hc _ ih => exact .picture hc (ih hm hmore)

theorem jumpToLabel_utters (vm : Interpreter) (hv : vm.suspend = .running) (label : String) :
    Utters vm.currentText (Action.commands (vm.jumpToLabel label).2) (vm.jumpToLabel label).1 := by
  cases hf : vm.program.findLabel label with
  | none =>
    rw [jumpToLabel_eq_of_none hf]
    exact .nothing hv rfl
  | some index =>
    rw [jumpToLabel_eq_of_some hf]
    exact .nothing hv rfl

theorem Obeys.utters (h : Obeys vm line command done) (hv : vm.suspend = .running) :
    Utters vm.currentText (Action.commands done.2) done.1 := by
  cases h with
  | background | character | clear => exact .picture rfl (.nothing hv rfl)
  | choice => exact .menu rfl rfl rfl
  | _ => exact .nothing hv rfl

theorem LineStep.utters (h : LineStep vm done) (hv : vm.suspend = .running) :
    Utters vm.currentText (Action.commands done.2) done.1 := by
  cases h with
  | jump _ => exact jumpToLabel_utters vm.takeJump hv _
  | label _ _ => exact .nothing hv rfl
  | dialogue _ _ => exact .text rfl rfl
  | command _ _ ho =>
    rw [Action.commands_append, Action.commands_logs]
    exact ho.utters hv

theorem Chain.utters (h : Chain vm chain) (hv : vm.suspend = .running) :
    Utters vm.currentText (Action.commands chain.2) chain.1 := by
  induction h with
  | waits hw => exact absurd hv hw
  | ends | cut => exact .nothing hv rfl
  | @line vm done chain _ hs hrest ih =>
    rw [Action.commands_append]
    have hdone := hs.utters hv
    by_cases hnext : done.1.suspend = .running
    · exact hdone.append hnext (ih hnext)
    · -- The chain waits where the line has left it.
      cases hrest with
      | waits =>
        change Utters vm.currentText (Action.commands done.2 ++ []) done.1
        rwa [List.append_nil]
      | ends hrun | cut hrun | line hrun => exact absurd hrun hnext

theorem step_utters (hv : suspend vm = .running) :
    Utters vm.currentText (Action.commands vm.step.actions) vm.step.next := by
  cases hs : vm.stepLine? with
  | none =>
    rw [step_of_end hv hs]
    exact .nothing hv rfl
  | some done =>
    rw [step_of_line hv hs]
    exact (stepLine?_eq_some.mp hs).utters hv

theorem step_utters_pick (hv : suspend vm = .waitingForChoice)
    (hp : vm.offer.poll = (some label, rest)) :
    ∃ commands, Action.commands vm.step.actions = .hideChoices :: commands ∧
      Utters vm.currentText commands vm.step.next := by
  rw [step_of_pick hv hp]
  let jump := vm.reopen.jumpToLabel label
  let chain := jump.1.runChain jump.1.options.maxChainSteps
  have hrunning : jump.1.suspend = .running := jumpToLabel_suspend vm.reopen label
  have hchain : Utters jump.1.currentText (Action.commands chain.2) chain.1 :=
    (chain_runChain ..).utters hrunning
  refine ⟨Action.commands (jump.2 ++ chain.2), rfl, ?_⟩
  rw [Action.commands_append]
  exact (jumpToLabel_utters vm.reopen rfl label).append hrunning hchain

-- ---------------------------------------------------------------------------
-- Menus
-- ---------------------------------------------------------------------------

/-- The options the story waits for one of to be picked. -/
def menu? (vm : Interpreter) : Option (List Choice) :=
  if vm.suspend = .waitingForChoice then some vm.offer.choices else none

theorem menu?_of_choosing (hv : suspend vm = .waitingForChoice) :
    vm.menu? = some vm.offer.choices :=
  if_pos hv

theorem menu?_of_not_choosing (hv : suspend vm ≠ .waitingForChoice) : vm.menu? = none :=
  if_neg hv

theorem Utters.menus (h : Utters before commands vm) :
    commands.filterMap (·.menu?) = vm.menu?.toList ∧ commands.count .hideChoices = 0 := by
  induction h with
  | nothing hv _ | text hv _ =>
    rw [menu?_of_not_choosing (by simp [hv])]
    exact ⟨rfl, rfl⟩
  | menu hv ho _ =>
    rw [menu?_of_choosing hv, ho]
    exact ⟨rfl, rfl⟩
  | picture hc _ ih =>
    obtain ⟨-, hmenu, hhide⟩ := DisplayCommand.eq_of_layer? hc
    rwa [List.filterMap_cons_none hmenu, List.count_cons_of_ne hhide]

/-- In a step a menu is taken away if there was one, and one is put up if the
story comes to wait for a pick. -/
theorem step_menus
    (h : suspend vm = .waitingForChoice → ∃ label rest, vm.offer.poll = (some label, rest)) :
    let commands := Action.commands vm.step.actions
    commands.filterMap (·.menu?) = vm.step.next.menu?.toList ∧
      commands.count .hideChoices = vm.menu?.toList.length := by
  cases hv : vm.suspend with
  | running =>
    have hnone : vm.menu? = none := menu?_of_not_choosing (by simp [hv])
    rw [hnone]
    exact (step_utters hv).menus
  | waitingForInput =>
    rw [step_of_waitingForInput hv, menu?_of_not_choosing (by simp [hv])]
    exact ⟨rfl, rfl⟩
  | waitingForChoice =>
    obtain ⟨label, rest, hp⟩ := h hv
    obtain ⟨commands, heq, hutters⟩ := step_utters_pick hv hp
    obtain ⟨hmenus, hhides⟩ := hutters.menus
    have hmenu : vm.menu? = some vm.offer.choices := menu?_of_choosing hv
    rw [heq, hmenu]
    exact ⟨hmenus, by rw [List.count_cons_self, hhides]; rfl⟩

end Interpreter

end VisualNovel
