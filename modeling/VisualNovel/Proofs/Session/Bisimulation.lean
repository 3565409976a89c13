import VisualNovel.Proofs.Session.History

/-!
# Interpreters that cannot be told apart

A relation between interpreters is a bisimulation if related ones run their next
line alike and stay related under every other move. Sessions on the same display
whose interpreters are so related give the same replies, ask for the same things
and are seen at the same lines, whatever the host does (`Bisimulation.moments`).
-/

namespace VisualNovel

namespace Interpreter

structure Bisimulation (R : Interpreter → Interpreter → Prop) : Prop where
  suspend : R vm other → vm.suspend = other.suspend
  offer : R vm other → vm.offer = other.offer
  line : R vm other → vm.cursor.line = other.cursor.line
  limit : R vm other → vm.options.maxChainSteps = other.options.maxChainSteps
  stop : R vm other → vm.stepLine? = none → other.stepLine? = none
  step : R vm other → vm.suspend = .running → LineStep vm done →
    ∃ next, LineStep other (next, done.2) ∧ R done.1 next
  choose : R vm other → vm.suspend = .waitingForChoice → ∀ label,
    R (vm.reopen.jumpToLabel label).1 (other.reopen.jumpToLabel label).1 ∧
      (vm.reopen.jumpToLabel label).2 = (other.reopen.jumpToLabel label).2
  pick : R vm other → vm.suspend = .waitingForChoice → ∀ picked,
    R { vm with offer := picked } { other with offer := picked }
  resume : R vm other → vm.suspend = .waitingForInput →
    R { vm with suspend := .running } { other with suspend := .running }
  load : R vm other → ∀ program, R (vm.load program) (other.load program)

/-- The same answer to an input, and related interpreters behind it. -/
inductive Alike (R : Interpreter → Interpreter → Prop) :
    Except RuntimeError (InputOutcome × Interpreter) →
      Except RuntimeError (InputOutcome × Interpreter) → Prop
  | ok : R next next' → Alike R (.ok (outcome, next)) (.ok (outcome, next'))
  | error : Alike R (.error e) (.error e)

namespace Bisimulation

variable {R : Interpreter → Interpreter → Prop} (hb : Bisimulation R)
include hb

theorem runChain (fuel : Nat) (h : R vm other) :
    R (vm.runChain fuel).1 (other.runChain fuel).1 ∧
      (vm.runChain fuel).2 = (other.runChain fuel).2 := by
  induction fuel generalizing vm other with
  | zero =>
    unfold Interpreter.runChain
    rw [← hb.suspend h, hb.line h, hb.limit h]
    split <;> exact ⟨h, rfl⟩
  | succ fuel ih =>
    unfold Interpreter.runChain
    rw [← hb.suspend h]
    split
    · rename_i hv
      cases hs : vm.stepLine? with
      | none =>
        rw [hb.stop h hs]
        exact ⟨h, rfl⟩
      | some done =>
        obtain ⟨next, hstep, hr⟩ := hb.step h hv (stepLine?_eq_some.mp hs)
        rw [hstep.stepLine?]
        obtain ⟨hlast, hmore⟩ := ih hr
        exact ⟨hlast, congrArg (done.2 ++ ·) hmore⟩
    · exact ⟨h, rfl⟩

/-- Related interpreters take a step alike. -/
theorem step_eq (h : R vm other) :
    vm.step.running = other.step.running ∧ vm.step.actions = other.step.actions ∧
      R vm.step.next other.step.next := by
  have hv' := hb.suspend h
  cases hv : vm.suspend with
  | running =>
    rw [hv] at hv'
    cases hs : vm.stepLine? with
    | none =>
      rw [step_of_end hv hs, step_of_end hv'.symm (hb.stop h hs)]
      exact ⟨rfl, rfl, h⟩
    | some done =>
      obtain ⟨next, hstep, hr⟩ := hb.step h hv (stepLine?_eq_some.mp hs)
      rw [step_of_line hv hs, step_of_line hv'.symm hstep.stepLine?]
      exact ⟨rfl, rfl, hr⟩
  | waitingForInput =>
    rw [hv] at hv'
    rw [step_of_waitingForInput hv, step_of_waitingForInput hv'.symm]
    exact ⟨rfl, rfl, h⟩
  | waitingForChoice =>
    rw [hv] at hv'
    rcases hp : vm.offer.poll with ⟨_ | label, rest⟩
    · rw [step_of_noPick hv hp, step_of_noPick hv'.symm (hb.offer h ▸ hp)]
      exact ⟨rfl, rfl, hb.pick h hv rest⟩
    · obtain ⟨hr, ha⟩ := hb.choose h hv label
      obtain ⟨hlast, hmore⟩ := hb.runChain (vm.reopen.jumpToLabel label).1.options.maxChainSteps hr
      rw [step_of_pick hv hp, step_of_pick hv'.symm (hb.offer h ▸ hp)]
      simp only [← ha, ← hb.limit hr, hmore]
      exact ⟨trivial, trivial, hlast⟩

theorem input_alike (h : R vm other) (ready : Bool) (given : Input) :
    Alike R (vm.input ready given) (other.input ready given) := by
  have hs := hb.suspend h
  cases given with
  | click =>
    by_cases hv : vm.suspend = .waitingForInput
    · rw [input_click hv, input_click (hs ▸ hv)]
      cases ready
      · exact .ok h
      · exact .ok (hb.resume h hv)
    · rw [input_click_ignored hv, input_click_ignored (hs ▸ hv)]
      exact .ok h
  | hover index =>
    by_cases hv : vm.suspend = .waitingForChoice
    · rw [input_hover hv, input_hover (hs ▸ hv), ← hb.offer h]
      cases vm.offer.hover index with
      | error _ => exact .error
      | ok pointed => exact .ok (hb.pick h hv pointed)
    · rw [input_hover_ignored hv, input_hover_ignored (hs ▸ hv)]
      exact .ok h
  | select index =>
    by_cases hv : vm.suspend = .waitingForChoice
    · rw [input_select hv, input_select (hs ▸ hv), ← hb.offer h]
      cases vm.offer.select index with
      | error _ => exact .error
      | ok picked => exact .ok (hb.pick h hv picked)
    · rw [input_select_refused hv, input_select_refused (hs ▸ hv), hs]
      exact .error

theorem operate_eq (h : R vm other) (ready : Bool) (op : Operation) :
    (vm.operate ready op).reply = (other.operate ready op).reply ∧
      (vm.operate ready op).actions = (other.operate ready op).actions ∧
      R (vm.operate ready op).vm (other.operate ready op).vm := by
  cases op with
  | step =>
    obtain ⟨hrunning, hactions, hnext⟩ := hb.step_eq h
    exact ⟨congrArg Reply.stepped hrunning, hactions, hnext⟩
  | input given =>
    have ha := hb.input_alike h ready given
    simp only [operate]
    generalize vm.input ready given = answer at ha ⊢
    generalize other.input ready given = answer' at ha ⊢
    cases ha with
    | ok hr => exact ⟨rfl, rfl, hr⟩
    | error => exact ⟨rfl, rfl, h⟩
  | load program => exact ⟨rfl, rfl, hb.load h program⟩

end Bisimulation

end Interpreter

/-- A moment without the interpreter, but for its state and its line. -/
def Moment.seen (moment : Moment) : Reply × List Action × Suspend × Nat :=
  (moment.reply, moment.actions, moment.vm.suspend, moment.vm.cursor.line)

theorem Interpreter.Bisimulation.moments (hb : Bisimulation R) (sink : DisplaySink σ)
    (s t : Session σ) (h : R s.vm t.vm) (hd : s.display = t.display) (ops : List Operation) :
    (s.moments sink ops).map Moment.seen = (t.moments sink ops).map Moment.seen := by
  induction ops generalizing s t with
  | nil => rfl
  | cons op ops ih =>
    obtain ⟨hreply, hactions, hr⟩ := hb.operate_eq h (sink.isTextReady s.display) op
    have hs := Session.operate_moment sink s op
    have ht := Session.operate_moment sink t op
    rw [← hd] at ht
    rw [← hs, ← ht] at hreply hactions hr
    have hcalls : (s.operate sink op).moment.calls = (t.operate sink op).moment.calls := by
      simp only [Moment.calls, hreply, hactions]
    have hdisplay : (s.operate sink op).next.display = (t.operate sink op).next.display := by
      rw [Session.operate_display, Session.operate_display, hd, hcalls]
    simp only [Session.moments, List.map_cons, ih _ _ hr hdisplay, Moment.seen, hreply, hactions,
      hb.suspend hr, hb.line hr]

end VisualNovel
