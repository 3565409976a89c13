import VisualNovel.Proofs.Session.Warnings

/-!
# The line something is done for

A `Trail` is an interpreter that also keeps which line it ran last, and names
with each action the line it is done for. Forgetting the lines leaves the
interpreter and its log (`Trail.account_events`).
-/

namespace VisualNovel

structure Trail where
  vm : Interpreter
  /-- The index of the line run last. -/
  last : Nat := 0

namespace Trail

/-- The line the next step is taken for; a jump is made for the line that asked for
it. -/
def current (trail : Trail) : Nat :=
  if trail.vm.cursor.pendingJump.isSome then trail.last else trail.vm.cursor.line

def stepLine? (trail : Trail) : Option (Trail × List (Nat × Action)) :=
  trail.vm.stepLine?.map fun done =>
    (⟨done.1, trail.current⟩, done.2.map (trail.current, ·))

def runChain : Nat → Trail → Trail × List (Nat × Action)
  | fuel, trail =>
    if trail.vm.suspend = .running then
      match fuel with
      | 0 => (trail, [(trail.last, .log (.chainCut trail.vm.options.maxChainSteps
          trail.vm.cursor.line))])
      | fuel + 1 =>
        match trail.stepLine? with
        | none => (trail, [])
        | some (next, actions) =>
          let (last, more) := runChain fuel next
          (last, actions ++ more)
    else (trail, [])

/-- A pick is carried out for the line of its menu. -/
def step (trail : Trail) : Trail × List (Nat × Action) :=
  match trail.vm.suspend with
  | .waitingForChoice =>
    match trail.vm.offer.poll with
    | (none, offer) => ({ trail with vm := { trail.vm with offer } }, [])
    | (some label, _) =>
      let jump := trail.vm.reopen.jumpToLabel label
      let chain := runChain jump.1.options.maxChainSteps { trail with vm := jump.1 }
      (chain.1, (.closeMenu :: jump.2).map (trail.last, ·) ++ chain.2)
  | .waitingForInput => (trail, [])
  | .running => trail.stepLine?.getD (trail, [])

def operate (trail : Trail) (ready : Bool) : Operation → Trail × List (Nat × Action)
  | .step => trail.step
  | op => ({ trail with vm := (trail.vm.operate ready op).vm }, [])

-- ---------------------------------------------------------------------------
-- Without the lines
-- ---------------------------------------------------------------------------

/-- The lines of a step forgotten. -/
def erase (done : Trail × List (Nat × Action)) : Interpreter × List Action :=
  (done.1.vm, done.2.map Prod.snd)

theorem stepLine?_erase (trail : Trail) : trail.stepLine?.map erase = trail.vm.stepLine? := by
  cases h : trail.vm.stepLine? <;> simp [stepLine?, h, erase, Function.comp_def]

theorem runChain_erase (fuel : Nat) (trail : Trail) :
    erase (trail.runChain fuel) = trail.vm.runChain fuel := by
  induction fuel generalizing trail with
  | zero =>
    unfold runChain Interpreter.runChain
    split <;> rfl
  | succ fuel ih =>
    unfold runChain Interpreter.runChain
    split
    · rw [← stepLine?_erase]
      cases hs : trail.stepLine? with
      | none => rfl
      | some done => simp [← ih, erase]
    · rfl

theorem step_erase (trail : Trail) :
    erase trail.step = (trail.vm.step.next, trail.vm.step.actions) := by
  cases hv : trail.vm.suspend with
  | running =>
    have hline := stepLine?_erase trail
    cases hs : trail.stepLine? with
    | none =>
      rw [hs] at hline
      rw [Interpreter.step_of_end hv hline.symm]
      simp [step, hv, hs, erase]
    | some done =>
      rw [hs] at hline
      rw [Interpreter.step_of_line hv hline.symm]
      simp [step, hv, hs]
  | waitingForInput =>
    rw [Interpreter.step_of_waitingForInput hv]
    simp [step, hv, erase]
  | waitingForChoice =>
    rcases hp : trail.vm.offer.poll with ⟨_ | label, rest⟩
    · rw [Interpreter.step_of_noPick hv hp]
      simp [step, hv, hp, erase]
    · have hchain (vm : Interpreter) :=
        runChain_erase vm.options.maxChainSteps { trail with vm }
      simp only [erase, Prod.ext_iff] at hchain
      rw [Interpreter.step_of_pick hv hp]
      simp [step, hv, hp, erase, hchain, Function.comp_def]

theorem operate_erase (trail : Trail) (ready : Bool) (op : Operation) :
    erase (trail.operate ready op) =
      ((trail.vm.operate ready op).vm, (trail.vm.operate ready op).actions) := by
  cases op with
  | step => exact step_erase trail
  | input given =>
    cases h : trail.vm.input ready given <;> simp [operate, Interpreter.operate, h, erase]
  | load program => rfl

end Trail

-- ---------------------------------------------------------------------------
-- The log
-- ---------------------------------------------------------------------------

namespace DisplaySink

/-- What carrying out the actions logs, with the lines. -/
def account (sink : DisplaySink σ) (display : σ) : List (Nat × Action) → List (Nat × LogEvent)
  | [] => []
  | (index, action) :: actions =>
    let performed := sink.perform display action
    performed.2.map (index, ·) ++ sink.account performed.1 actions

theorem account_events (sink : DisplaySink σ) (display : σ) (actions : List (Nat × Action)) :
    (sink.account display actions).map Prod.snd =
      (sink.performAll display (actions.map Prod.snd)).2 := by
  induction actions generalizing display with
  | nil => rfl
  | cons entry actions ih => simp [account, performAll, ih, Function.comp_def]

theorem mem_account {sink : DisplaySink σ} (h : entry ∈ sink.account display actions) :
    ∃ before action, (entry.1, action) ∈ actions ∧ entry.2 ∈ (sink.perform before action).2 := by
  induction actions generalizing display with
  | nil => cases h
  | cons first actions ih =>
    rcases List.mem_append.mp h with h | h
    · obtain ⟨event, hevent, rfl⟩ := List.mem_map.mp h
      exact ⟨display, first.2, List.mem_cons_self, hevent⟩
    · obtain ⟨before, action, ha, hevent⟩ := ih h
      exact ⟨before, action, List.mem_cons_of_mem _ ha, hevent⟩

/-- The display, keeping its own log to itself. -/
def silent (sink : DisplaySink σ) : DisplaySink σ where
  execute display command := { sink.execute display command with log := [] }
  isTextReady := sink.isTextReady
  completeText := sink.completeText

theorem silent_perform (sink : DisplaySink σ) (display : σ) (action : Action) :
    (sink.silent.perform display action).1 = (sink.perform display action).1 ∧
      (sink.silent.perform display action).2.Sublist (sink.perform display action).2 := by
  cases action with
  | display line command | closeMenu => exact ⟨rfl, List.sublist_append_right ..⟩
  | wrote | log => exact ⟨rfl, .refl _⟩

theorem silent_performAll (sink : DisplaySink σ) (display : σ) (actions : List Action) :
    (sink.silent.performAll display actions).1 = (sink.performAll display actions).1 ∧
      (sink.silent.performAll display actions).2.Sublist (sink.performAll display actions).2 := by
  induction actions generalizing display with
  | nil => exact ⟨rfl, .refl _⟩
  | cons action actions ih =>
    obtain ⟨hdisplay, hlog⟩ := silent_perform sink display action
    simp only [performAll, hdisplay]
    exact ⟨(ih _).1, hlog.append (ih _).2⟩

end DisplaySink

namespace Session

theorem operate_log (sink : DisplaySink σ) (session : Session σ) (op : Operation) :
    (session.operate sink op).log =
      (sink.performAll session.display (session.operate sink op).moment.actions).2 := by
  cases op with
  | step => rw [operate_step]; rfl
  | input given => cases h : session.input sink given <;> simp [operate, h] <;> rfl
  | load program => rfl

/-- A display that keeps its log to itself is answered as before, and what is left
of the log is logged by the interpreter. -/
theorem silent_same (sink : DisplaySink σ) (session : Session σ) (ops : List Operation) :
    session.moments sink.silent ops = session.moments sink ops ∧
      (session.log sink.silent ops).Sublist (session.log sink ops) := by
  induction ops generalizing session with
  | nil => exact ⟨rfl, .refl _⟩
  | cons op ops ih =>
    have hmoment : (session.operate sink.silent op).moment = (session.operate sink op).moment := by
      rw [operate_moment, operate_moment]
      rfl
    have hnext : (session.operate sink.silent op).next = (session.operate sink op).next := by
      have hdisplay : (session.operate sink.silent op).next.display =
          (session.operate sink op).next.display := by
        cases op with
        | step =>
          rw [operate_step, operate_step]
          exact (DisplaySink.silent_performAll ..).1
        | input given => rfl
        | load program => rfl
      exact congrArg₂ Session.mk (congrArg Moment.vm hmoment) hdisplay
    have hlog : (session.operate sink.silent op).log.Sublist (session.operate sink op).log := by
      rw [operate_log, operate_log, hmoment]
      exact (DisplaySink.silent_performAll ..).2
    simp only [moments, log, hmoment, hnext]
    exact ⟨by rw [(ih _).1], hlog.append (ih _).2⟩

end Session

namespace Trail

/-- The log of the operations, each event with the line it is logged for. -/
def account (sink : DisplaySink σ) (trail : Trail) (display : σ) :
    List Operation → List (Nat × LogEvent)
  | [] => []
  | op :: ops =>
    let done := trail.operate (sink.isTextReady display) op
    let session : Session σ := ⟨trail.vm, display⟩
    sink.account display done.2 ++ done.1.account sink (session.operate sink op).next.display ops

theorem account_events (sink : DisplaySink σ) (trail : Trail) (display : σ)
    (ops : List Operation) :
    (trail.account sink display ops).map Prod.snd = Session.log sink ⟨trail.vm, display⟩ ops := by
  induction ops generalizing trail display with
  | nil => rfl
  | cons op ops ih =>
    let session : Session σ := ⟨trail.vm, display⟩
    let done := trail.operate (sink.isTextReady display) op
    have herase : erase done = _ := operate_erase trail (sink.isTextReady display) op
    have hmoment := session.operate_moment sink op
    have hvm : done.1.vm = (session.operate sink op).next.vm :=
      (congrArg Prod.fst herase).trans (congrArg Moment.vm hmoment).symm
    have hactions : done.2.map Prod.snd = (session.operate sink op).moment.actions :=
      (congrArg Prod.snd herase).trans (congrArg Moment.actions hmoment).symm
    simp only [account, List.map_append, DisplaySink.account_events, ih, Session.log,
      Session.operate_log]
    rw [hactions, hvm]

end Trail

end VisualNovel
