import VisualNovel.Display.Recording
import VisualNovel.Proofs.Session.StateInvariant

/-!
# Inputs that come to nothing

Inputs that are ignored or refused, hovers, and picks overruled by a later pick
can be left out of a history, and nothing else in it changes: not what the other
operations answer, not what the display is asked for, and not the story but for
what the pointer is on (`Session.idle_erased`).
-/

namespace VisualNovel

-- ---------------------------------------------------------------------------
-- What can be left out
-- ---------------------------------------------------------------------------

/-- What a host did, and what came of it. -/
structure Exchange where
  op : Operation
  moment : Moment

def Reply.isIdle : Reply → Bool
  | .answered .ignored | .answered .hovered | .refused _ => true
  | _ => false

/-- A pick is recorded before the next step. -/
def overruled : List Exchange → Bool
  | [] => false
  | exchange :: later =>
    match exchange.moment.reply with
    | .answered .selectionRecorded => true
    | .answered _ | .refused _ => overruled later
    | .stepped _ | .loaded => false

/-- An idle input, or a pick that is overruled later. -/
def Reply.Dispensable (reply : Reply) (later : List Exchange) : Prop :=
  reply.isIdle = true ∨ reply = .answered .selectionRecorded ∧ overruled later = true

instance (reply : Reply) (later : List Exchange) : Decidable (reply.Dispensable later) :=
  inferInstanceAs (Decidable (_ ∨ _))

/-- The exchanges left when the dispensable ones are taken out. -/
def essential : List Exchange → List Exchange
  | [] => []
  | exchange :: later =>
    if exchange.moment.reply.Dispensable later then essential later
    else exchange :: essential later

theorem Reply.Dispensable.overruled_cons {exchange : Exchange}
    (h : exchange.moment.reply.Dispensable later) :
    overruled (exchange :: later) = overruled later := by
  rcases h with h | ⟨h, hlater⟩
  · unfold Reply.isIdle at h
    split at h
    · simp only [overruled, *]
    · simp only [overruled, *]
    · simp only [overruled, *]
    · cases h
  · simp only [overruled, h, hlater]

def Session.exchanges (sink : DisplaySink σ) (session : Session σ) :
    List Operation → List Exchange
  | [] => []
  | op :: ops =>
    let performed := session.operate sink op
    ⟨op, performed.moment⟩ :: performed.next.exchanges sink ops

-- ---------------------------------------------------------------------------
-- The same but for an overruled pick
-- ---------------------------------------------------------------------------

/-- The offer without what the pointer is on, and without a pick to be overruled. -/
def Offer.forget (offer : Offer) (pick : Bool) : Offer :=
  { offer with hovered := none, selected := if pick then none else offer.selected }

namespace Offer

theorem forget_hover (h : hover offer index = .ok pointed) (pick : Bool) :
    pointed.forget pick = offer.forget pick := by
  unfold hover at h
  split at h <;> cases h
  rfl

theorem forget_select (h : select offer index = .ok picked) :
    picked.forget true = offer.forget true := by
  unfold select at h
  split at h <;> cases h
  rfl

/-- A pick replaces the one before it. -/
theorem select_forget (offer : Offer) (pick : Bool) (index : Nat) :
    (offer.forget pick).select index = offer.select index :=
  rfl

theorem poll_forget (offer : Offer) : ((offer.forget false).poll).1 = offer.poll.1 := by
  unfold poll forget
  simp only [Bool.false_eq_true, if_false]
  repeat' split
  all_goals simp_all

end Offer

namespace Interpreter

def forget (vm : Interpreter) (pick : Bool) : Interpreter :=
  { vm with offer := vm.offer.forget pick }

/-- The interpreter without what the pointer is on. -/
def unhover (vm : Interpreter) : Interpreter :=
  { vm with offer := vm.offer.unhover }

theorem Coherent.closed (hc : Coherent vm) (hv : vm.suspend ≠ .waitingForChoice) :
    vm.offer = {} := by
  cases hc with
  | running _ _ ho => exact ho
  | waitingForInput _ _ ho => exact ho
  | waitingForChoice h => exact absurd h hv

/-- Two interpreters that differ in what the pointer is on, and in the pick if one
is still to come. -/
structure SameStory (pick : Bool) (vm other : Interpreter) : Prop where
  same : vm.forget pick = other.forget pick
  left : vm.Coherent
  right : other.Coherent

section
variable {vm other : Interpreter}

theorem SameStory.suspend (h : SameStory pick vm other) : other.suspend = vm.suspend :=
  (congrArg Interpreter.suspend h.same).symm

/-- They differ only at a menu. -/
theorem SameStory.eq (h : SameStory pick vm other) (hv : vm.suspend ≠ .waitingForChoice) :
    other = vm := by
  have hleft := h.left.closed hv
  have hright := h.right.closed (h.suspend ▸ hv)
  have hsame := h.same
  cases vm
  cases other
  simp_all [forget]

theorem SameStory.weaken (h : SameStory false vm other) (pick : Bool) :
    SameStory pick vm other := by
  refine ⟨?_, h.left, h.right⟩
  have hsame := congrArg (fun vm : Interpreter => vm.forget pick) h.same
  cases pick <;> exact hsame

theorem SameStory.unhover (h : SameStory false vm other) : other.unhover = vm.unhover :=
  h.same.symm

theorem SameStory.refl (hc : vm.Coherent) : SameStory pick vm vm :=
  ⟨rfl, hc, hc⟩

/-- The pick taken by a step is the same. -/
theorem SameStory.step (h : SameStory false vm other) :
    other.step.running = vm.step.running ∧ other.step.actions = vm.step.actions ∧
      SameStory false vm.step.next other.step.next := by
  by_cases hv : vm.suspend = .waitingForChoice
  · have hv' : other.suspend = .waitingForChoice := h.suspend ▸ hv
    have hpoll : other.offer.poll.1 = vm.offer.poll.1 := by
      rw [← Offer.poll_forget, ← Offer.poll_forget vm.offer]
      exact congrArg (·.offer.poll.1) h.same.symm
    rcases hp : vm.offer.poll with ⟨_ | label, rest⟩ <;>
      rcases hp' : other.offer.poll with ⟨pick, rest'⟩ <;> rw [hp, hp'] at hpoll <;> cases hpoll
    · cases (h.left.of_waitingForChoice hv).2.1.poll_none hp
      cases (h.right.of_waitingForChoice hv').2.1.poll_none hp'
      rw [step_of_noPick hv hp, step_of_noPick hv' hp']
      exact ⟨rfl, rfl, h⟩
    · have hopen : (other.forget false).reopen = (vm.forget false).reopen :=
        congrArg reopen h.same.symm
      have hc := (step_moves vm).preserve Coherent.move h.left
      rw [step_of_pick hv hp] at hc ⊢
      rw [step_of_pick hv' hp', show other.reopen = vm.reopen from hopen]
      exact ⟨rfl, rfl, .refl hc⟩
  · rw [h.eq hv]
    exact ⟨rfl, rfl, .refl ((step_moves vm).preserve Coherent.move h.left)⟩

theorem SameStory.select (h : SameStory pick vm other) (ready : Bool) (index : Nat) :
    other.input ready (.select index) = vm.input ready (.select index) := by
  by_cases hv : vm.suspend = .waitingForChoice
  · have hv' : other.suspend = .waitingForChoice := h.suspend ▸ hv
    rw [input_select hv, input_select hv', ← Offer.select_forget _ pick,
      ← Offer.select_forget vm.offer pick]
    exact congrArg (fun vm : Interpreter => (vm.offer.select index).map fun picked =>
      (InputOutcome.selectionRecorded, { vm with offer := picked })) h.same.symm
  · rw [h.eq hv]

/-- What is not left out comes out the same, and leaves nothing to be overruled. -/
theorem SameStory.kept (h : SameStory pick vm other) (ready : Bool) (op : Operation)
    (hidle : (vm.operate ready op).reply.isIdle = false) (hstep : op = .step → pick = false) :
    (other.operate ready op).reply = (vm.operate ready op).reply ∧
      (other.operate ready op).actions = (vm.operate ready op).actions ∧
      SameStory false (vm.operate ready op).vm (other.operate ready op).vm := by
  have hc := (vm.operate_moves ready op).preserve Coherent.move h.left
  cases op with
  | step =>
    cases hstep rfl
    obtain ⟨hrunning, hactions, hsame⟩ := h.step
    exact ⟨congrArg Reply.stepped hrunning, hactions, hsame⟩
  | input given =>
    by_cases hv : vm.suspend = .waitingForChoice
    · cases given with
      | click =>
        rw [operate, input_click_ignored (by simp [hv])] at hidle
        cases hidle
      | hover index =>
        rw [operate, input_hover hv] at hidle
        cases ho : vm.offer.hover index <;> rw [ho] at hidle <;> cases hidle
      | select index =>
        have hsame := h.select ready index
        cases hs : vm.input ready (.select index) with
        | error _ =>
          simp only [operate, hs] at hidle
          cases hidle
        | ok done =>
          simp only [operate, hsame, hs] at hc ⊢
          exact ⟨trivial, trivial, .refl hc⟩
    · rw [h.eq hv]
      exact ⟨rfl, rfl, .refl hc⟩
  | load program =>
    have hsame : other.load program = vm.load program := congrArg (·.load program) h.same.symm
    simp only [operate, hsame]
    exact ⟨trivial, trivial, .refl hc⟩

/-- What is left out asks for nothing, and its traces are forgotten. -/
theorem SameStory.dropped (h : SameStory pick vm other) (ready : Bool) (op : Operation)
    (hdrop : (vm.operate ready op).reply.Dispensable later) (hpick : overruled later = pick) :
    (vm.operate ready op).calls = [] ∧ SameStory pick (vm.operate ready op).vm other := by
  have hc := (vm.operate_moves ready op).preserve Coherent.move h.left
  cases op with
  | step | load program => simp [operate, Reply.Dispensable, Reply.isIdle] at hdrop
  | input given =>
    cases hi : vm.input ready given with
    | error _ => simpa [operate, hi, Moment.calls] using h
    | ok done =>
      obtain ⟨outcome, next⟩ := done
      simp only [operate, hi] at hdrop hc ⊢
      cases takes_of_input hi with
      | resume _ _ | reveal _ _ => simp [Reply.Dispensable, Reply.isIdle] at hdrop
      | hover _ ho =>
        have hforget := congrArg (fun offer => { vm with offer }) (Offer.forget_hover ho pick)
        exact ⟨rfl, hforget.trans h.same, hc, h.right⟩
      | select _ ho =>
        simp only [Reply.Dispensable, Reply.isIdle, Bool.false_eq_true, true_and, false_or,
          hpick] at hdrop
        cases hdrop
        have hforget := congrArg (fun offer => { vm with offer }) (Offer.forget_select ho)
        exact ⟨rfl, hforget.trans h.same, hc, h.right⟩
      | ignored => exact ⟨rfl, h⟩

end

end Interpreter

-- ---------------------------------------------------------------------------
-- Histories
-- ---------------------------------------------------------------------------

/-- What the pointer is on left out of what came of an operation. -/
def Exchange.unhover (exchange : Exchange) : Exchange :=
  { exchange with moment := { exchange.moment with vm := exchange.moment.vm.unhover } }

namespace Session

section
variable (sink : DisplaySink σ) (session : Session σ) {other : Interpreter}

theorem operate_dropped (h : Interpreter.SameStory pick session.vm other) (op : Operation)
    (hdrop : (session.operate sink op).moment.reply.Dispensable later)
    (hpick : overruled later = pick) :
    (session.operate sink op).moment.calls = [] ∧
      (session.operate sink op).next.display = session.display ∧
      Interpreter.SameStory pick (session.operate sink op).next.vm other := by
  have hdisplay := session.operate_display sink op
  rw [operate_moment] at hdrop hdisplay ⊢
  obtain ⟨hcalls, hsame⟩ := h.dropped _ op hdrop hpick
  rw [hcalls] at hdisplay ⊢
  exact ⟨rfl, hdisplay, operate_vm sink session op ▸ hsame⟩

theorem operate_kept (h : Interpreter.SameStory pick session.vm other) (op : Operation)
    (hidle : (session.operate sink op).moment.reply.isIdle = false)
    (hstep : op = .step → pick = false) :
    let again : Session σ := ⟨other, session.display⟩
    Exchange.unhover ⟨op, (again.operate sink op).moment⟩ =
        Exchange.unhover ⟨op, (session.operate sink op).moment⟩ ∧
      (again.operate sink op).moment.calls = (session.operate sink op).moment.calls ∧
      (again.operate sink op).next.display = (session.operate sink op).next.display ∧
      Interpreter.SameStory false (session.operate sink op).next.vm
        (again.operate sink op).next.vm := by
  intro again
  have hagain := again.operate_moment sink op
  have hmoment := session.operate_moment sink op
  rw [hmoment] at hidle
  obtain ⟨hreply, hactions, hsame⟩ := h.kept _ op hidle hstep
  have hcalls : (again.operate sink op).moment.calls = (session.operate sink op).moment.calls := by
    rw [hagain, hmoment]
    simp only [Moment.calls, again, hreply, hactions]
  refine ⟨?_, hcalls, ?_, ?_⟩
  · rw [hagain, hmoment]
    simp only [Exchange.unhover, again, hreply, hactions, hsame.unhover]
  · rw [operate_display, operate_display, hcalls]
  · rw [operate_vm, operate_vm]
    exact hsame

end

/-- From an interpreter that differs at most in what is forgotten or overruled. -/
theorem essential_same (sink : DisplaySink σ) (session : Session σ) {other : Interpreter}
    (h : Interpreter.SameStory (overruled (session.exchanges sink ops)) session.vm other) :
    let again : Session σ := ⟨other, session.display⟩
    let kept := essential (session.exchanges sink ops)
    let fewer := kept.map (·.op)
    (again.exchanges sink fewer).map Exchange.unhover = kept.map Exchange.unhover ∧
      (again.moments sink fewer).flatMap Moment.calls =
        (session.moments sink ops).flatMap Moment.calls ∧
      (again.after sink fewer).display = (session.after sink ops).display ∧
      (again.after sink fewer).vm.unhover = (session.after sink ops).vm.unhover := by
  induction ops generalizing session other with
  | nil => exact ⟨rfl, rfl, rfl, h.unhover⟩
  | cons op ops ih =>
    intro again kept fewer
    let performed := session.operate sink op
    let later := performed.next.exchanges sink ops
    by_cases hdrop : performed.moment.reply.Dispensable later
    · -- The other interpreter stays where it is, on the same display.
      have hkept : kept = essential later := if_pos hdrop
      have hoverruled : overruled (⟨op, performed.moment⟩ :: later) = overruled later :=
        hdrop.overruled_cons
      obtain ⟨hcalls, hdisplay, hsame⟩ := operate_dropped sink session h op hdrop hoverruled.symm
      obtain ⟨hexchanges, hmoments, hend⟩ := ih (session.operate sink op).next (hoverruled ▸ hsame)
      rw [hdisplay] at hexchanges hmoments hend
      simp only [again, fewer, hkept, moments, after, List.flatMap_cons, hcalls, List.nil_append]
      exact ⟨hexchanges, hmoments, hend⟩
    · -- Both operate; what a later pick overrules is not looked at by anything but a step.
      have hkept : kept = ⟨op, performed.moment⟩ :: essential later := if_neg hdrop
      have hidle : performed.moment.reply.isIdle = false := by
        simpa using fun hi => hdrop (.inl hi)
      have hstep (hop : op = .step) : overruled (⟨op, performed.moment⟩ :: later) = false := by
        cases hop
        rfl
      obtain ⟨hexchange, hcalls, hdisplay, hsame⟩ := operate_kept sink session h op hidle hstep
      obtain ⟨hexchanges, hmoments, hend⟩ :=
        ih (session.operate sink op).next (hsame.weaken (overruled later))
      rw [← hdisplay] at hexchanges hmoments hend
      simp only [again, fewer, hkept, List.map_cons, exchanges, moments, after, List.flatMap_cons,
        hcalls, hexchange]
      exact ⟨congrArg _ hexchanges, congrArg _ hmoments, hend⟩

/-- Without its idle inputs and overruled picks a history goes the same way: all else
answers the same, asks the display for the same and leaves the same story, but for
what the pointer is on. -/
theorem idle_erased (sink : DisplaySink σ) (vm : Interpreter) (program : Program) (display : σ)
    (ops : List Operation) :
    let session : Session σ := ⟨vm.load program, display⟩
    let kept := essential (session.exchanges sink ops)
    let fewer := kept.map (·.op)
    (session.exchanges sink fewer).map Exchange.unhover = kept.map Exchange.unhover ∧
      (session.moments sink fewer).flatMap Moment.calls =
        (session.moments sink ops).flatMap Moment.calls ∧
      (session.after sink fewer).display = (session.after sink ops).display ∧
      (session.after sink fewer).vm.unhover = (session.after sink ops).vm.unhover :=
  essential_same sink ⟨vm.load program, display⟩ (.refl (.running rfl (Nat.zero_le _) rfl))

/-- Of a click at a menu, a hover and three picks, the last of them of nothing. -/
example :
    let session : Session RecordingDisplay :=
      ⟨({} : Interpreter).load ⟨[⟨1, "@choice 进去 -> 里面 出去 -> 外面"⟩]⟩, {}⟩
    let ops : List Operation := [.step, .input .click, .input (.hover 0), .input (.select 0),
      .input (.select 1), .input (.select 2), .step]
    (essential (session.exchanges RecordingDisplay.sink ops)).map (·.op) =
      [.step, .input (.select 1), .step] := by
  decide +kernel

end Session

end VisualNovel
