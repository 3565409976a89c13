import VisualNovel.Proofs.Story.Tale

/-!
# Turns

A frame in which nothing has to be waited for: the input the story asks for, and
a step. A turn is some beats of the tale (`Tale.turn_tells`), one for a line, up
to the limit of a chain for a pick; it stops where the tale does.
-/

namespace VisualNovel

-- ---------------------------------------------------------------------------
-- Picks
-- ---------------------------------------------------------------------------

namespace Offer

/-- The pointer moved to an option, and the option picked. -/
def pick (offer : Offer) (index : Nat) : Offer :=
  { offer with hovered := some index, selected := some index }

theorem select_of_none (h : offer.choices[index]? = none) :
    select offer index = .error (.invalidChoiceIndex index offer.choices.length) :=
  if_neg (Nat.not_lt.mpr (List.getElem?_eq_none_iff.mp h))

theorem select_of_some (h : offer.choices[index]? = some choice) :
    select offer index = .ok (offer.pick index) :=
  if_pos (List.getElem?_eq_some_iff.mp h).1

theorem hover_of_none (h : offer.choices[index]? = none) :
    hover offer index = .error (.invalidChoiceIndex index offer.choices.length) :=
  if_neg (Nat.not_lt.mpr (List.getElem?_eq_none_iff.mp h))

theorem hover_of_some (h : offer.choices[index]? = some choice) :
    hover offer index = .ok { offer with hovered := some index } :=
  if_pos (List.getElem?_eq_some_iff.mp h).1

theorem poll_pick (ha : active offer = true) (h : offer.choices[index]? = some choice) :
    ∃ rest, (offer.pick index).poll = (some choice.target, rest) := by
  simp [poll, pick, ha, h]

end Offer

namespace Interpreter

/-- A menu on show has not been picked from. -/
def Unpicked (vm : Interpreter) : Prop :=
  vm.suspend = .waitingForChoice → vm.offer.active = true ∧ vm.offer.selected = none

theorem unpicked_of_running (hv : suspend vm = .running) : vm.Unpicked := by
  simp [Unpicked, hv]

theorem LineStep.unpicked (h : LineStep vm done) (hv : vm.suspend = .running) :
    done.1.Unpicked := by
  cases h with
  | jump _ => exact unpicked_of_running ((jumpToLabel_suspend vm.takeJump _).trans hv)
  | label _ _ => exact unpicked_of_running hv
  | dialogue _ _ => exact fun h => (nomatch h)
  | @command line body done _ _ ho =>
    generalize (Command.read body).value = command at ho
    cases ho with
    | choice => exact fun _ => ⟨rfl, rfl⟩
    | _ => exact unpicked_of_running hv

theorem Chain.unpicked (h : Chain vm chain) (hu : vm.Unpicked) : chain.1.Unpicked := by
  induction h with
  | waits | ends | cut => exact hu
  | line hv hs _ ih => exact ih (hs.unpicked hv)

end Interpreter

-- ---------------------------------------------------------------------------
-- Turns
-- ---------------------------------------------------------------------------

structure Turn where
  next : Tale
  told : List Happening := []
  stop : Option Stop := none

/-- The turn is so many beats of the tale, and at least one unless the tale stops. -/
structure Turn.Tells (tale : Tale) (turn : Turn) (beats : Nat) : Prop where
  tell : tale.tell beats = (turn.next, turn.told)
  stops : ∀ stop, turn.stop = some stop → turn.next.beat = .error stop
  goes : turn.stop = none → 0 < beats ∧ ∀ stop, tale.beat ≠ .error stop

namespace Tale

/-- The tale with the text read. -/
def resume (tale : Tale) : Tale :=
  { tale with vm := { tale.vm with suspend := .running } }

/-- The tale with the option listed picked. -/
def pick (tale : Tale) : Tale :=
  ⟨{ tale.vm with offer := tale.vm.offer.pick (tale.picks.headD 0) }, tale.picks.tail⟩

/-- The tale with the input given that it waits for. -/
def answer (tale : Tale) : Except RuntimeError Tale :=
  match tale.vm.suspend with
  | .running => .ok tale
  | .waitingForInput => .ok tale.resume
  | .waitingForChoice =>
    (tale.vm.offer.select (tale.picks.headD 0)).map fun offer =>
      ⟨{ tale.vm with offer }, tale.picks.tail⟩

/-- The option that is taken next. -/
def choosing (tale : Tale) : List Happening :=
  if tale.vm.suspend = .waitingForChoice then
    (tale.vm.offer.choices[tale.picks.headD 0]?.map fun choice => .chose choice.text).toList
  else []

/-- The input that is waited for, and a step. -/
def turn (tale : Tale) : Turn :=
  match tale.answer with
  | .error error => { next := tale, stop := some (.refused error) }
  | .ok answered =>
    let step := answered.vm.step
    { next := { answered with vm := step.next }
      told := tale.choosing ++ Action.happenings step.actions
      stop := if step.running then none else some .over }

section
variable {tale : Tale}

theorem answer_of_noChoice (hv : tale.vm.suspend = .waitingForChoice)
    (h : tale.vm.offer.choices[tale.picks.headD 0]? = none) :
    tale.answer = .error
      (.invalidChoiceIndex (tale.picks.headD 0) tale.vm.offer.choices.length) := by
  rw [answer, hv, Offer.select_of_none h]
  rfl

theorem answer_of_choice (hv : tale.vm.suspend = .waitingForChoice)
    (h : tale.vm.offer.choices[tale.picks.headD 0]? = some choice) :
    tale.answer = .ok tale.pick := by
  rw [answer, hv, Offer.select_of_some h]
  rfl

theorem choosing_of_choice (hv : tale.vm.suspend = .waitingForChoice)
    (h : tale.vm.offer.choices[tale.picks.headD 0]? = some choice) :
    tale.choosing = [.chose choice.text] := by
  rw [choosing, if_pos hv, h]
  rfl

theorem turn_of_line (hv : tale.vm.suspend = .running) (h : tale.vm.stepLine? = some done) :
    tale.turn = { next := { tale with vm := done.1 }, told := Action.happenings done.2 } := by
  simp [turn, answer, choosing, hv, Interpreter.step_of_line hv h]

theorem turn_of_end (hv : tale.vm.suspend = .running) (h : tale.vm.stepLine? = none) :
    tale.turn = { next := tale, stop := some .over } := by
  simp [turn, answer, choosing, hv, Interpreter.step_of_end hv h, Action.happenings]

theorem turn_of_waitingForInput (hv : tale.vm.suspend = .waitingForInput) :
    tale.turn = tale.resume.turn := by
  simp [turn, answer, choosing, hv, resume]

theorem turn_of_noChoice (hv : tale.vm.suspend = .waitingForChoice)
    (h : tale.vm.offer.choices[tale.picks.headD 0]? = none) :
    tale.turn = { next := tale, stop := some (.refused
      (.invalidChoiceIndex (tale.picks.headD 0) tale.vm.offer.choices.length)) } := by
  simp only [turn, answer_of_noChoice hv h]

theorem turn_of_choice (hv : tale.vm.suspend = .waitingForChoice)
    (ha : tale.vm.offer.active = true)
    (h : tale.vm.offer.choices[tale.picks.headD 0]? = some choice) :
    tale.turn =
      let jump := tale.vm.reopen.jumpToLabel choice.target
      let chain := jump.1.runChain jump.1.options.maxChainSteps
      { next := ⟨chain.1, tale.picks.tail⟩
        told := .chose choice.text :: Action.happenings (.closeMenu :: jump.2 ++ chain.2) } := by
  obtain ⟨rest, hpoll⟩ := Offer.poll_pick ha h
  have hstep : tale.pick.vm.step = _ := Interpreter.step_of_pick hv hpoll
  rw [turn, answer_of_choice hv h, choosing_of_choice hv h]
  simp only [hstep]
  rfl

-- ---------------------------------------------------------------------------
-- Beats of a turn
-- ---------------------------------------------------------------------------

/-- A chain of lines is as many beats as it has lines. -/
theorem tell_chain {vm : Interpreter} (h : vm.Chain chain) (picks : List Nat) :
    ∃ beats, tell beats ⟨vm, picks⟩ = (⟨chain.1, picks⟩, Action.happenings chain.2) := by
  induction h with
  | waits | ends | cut => exact ⟨0, rfl⟩
  | line hv hs _ ih =>
    obtain ⟨beats, htell⟩ := ih
    rw [Action.happenings_append]
    exact ⟨1 + beats, tell_trans (tell_one (beat_of_line hv hs.stepLine?)) htell⟩

theorem turn_tells_running (hv : tale.vm.suspend = .running) :
    ∃ beats, Turn.Tells tale tale.turn beats := by
  cases hs : tale.vm.stepLine? with
  | none =>
    rw [turn_of_end hv hs]
    exact ⟨0, rfl, fun _ h => Option.some.inj h ▸ beat_of_end hv hs, nofun⟩
  | some done =>
    have hb := beat_of_line hv hs
    rw [turn_of_line hv hs]
    exact ⟨1, tell_one hb, nofun, fun _ => ⟨Nat.one_pos, by simp [hb]⟩⟩

theorem turn_tells (hu : tale.vm.Unpicked) : ∃ beats, Turn.Tells tale tale.turn beats := by
  cases hv : tale.vm.suspend with
  | running => exact turn_tells_running hv
  | waitingForInput =>
    have hb : tale.beat = .ok (tale.resume, []) := beat_of_waitingForInput hv
    have hv' : tale.resume.vm.suspend = .running := rfl
    obtain ⟨beats, htell, hstops, -⟩ := turn_tells_running hv'
    rw [turn_of_waitingForInput hv]
    exact ⟨1 + beats, tell_trans (tell_one hb) htell, hstops, fun _ => ⟨by omega, by simp [hb]⟩⟩
  | waitingForChoice =>
    cases h : tale.vm.offer.choices[tale.picks.headD 0]? with
    | none =>
      rw [turn_of_noChoice hv h]
      exact ⟨0, rfl, fun _ heq => Option.some.inj heq ▸ beat_of_noChoice hv h, nofun⟩
    | some choice =>
      have hb := beat_of_choice hv h
      obtain ⟨beats, htell⟩ := tell_chain (Interpreter.chain_runChain _ _) tale.picks.tail
      rw [turn_of_choice hv (hu hv).1 h]
      refine ⟨1 + beats, ?_, nofun, fun _ => ⟨by omega, by simp [hb]⟩⟩
      have htrans := tell_trans (tell_one hb) htell
      rwa [List.cons_append, ← Action.happenings_append] at htrans

theorem turn_unpicked_running (hv : tale.vm.suspend = .running) :
    tale.turn.next.vm.Unpicked := by
  cases hs : tale.vm.stepLine? with
  | none => exact turn_of_end hv hs ▸ Interpreter.unpicked_of_running hv
  | some done => exact turn_of_line hv hs ▸ (Interpreter.stepLine?_eq_some.mp hs).unpicked hv

/-- Every menu is left with its pick delivered. -/
theorem turn_unpicked (hu : tale.vm.Unpicked) : tale.turn.next.vm.Unpicked := by
  cases hv : tale.vm.suspend with
  | running => exact turn_unpicked_running hv
  | waitingForInput =>
    rw [turn_of_waitingForInput hv]
    exact turn_unpicked_running rfl
  | waitingForChoice =>
    cases h : tale.vm.offer.choices[tale.picks.headD 0]? with
    | none => exact turn_of_noChoice hv h ▸ hu
    | some choice =>
      rw [turn_of_choice hv (hu hv).1 h]
      exact (Interpreter.chain_runChain ..).unpicked <|
        Interpreter.unpicked_of_running (Interpreter.jumpToLabel_suspend tale.vm.reopen _)

end

end Tale

end VisualNovel
