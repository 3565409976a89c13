import VisualNovel.Proofs.Block.Run
import VisualNovel.Proofs.Interpreter.Moves

/-!
# The tale behind a run

What a story tells one who takes the options listed, beat by beat: a line run, a
text read to its end, an option taken. Nothing here knows of frames, displays or
how many lines may follow a pick (`tell_withLimit`). A tale stops when the story
is over or the option listed is not on offer, and there it stays
(`tell_of_stuck`); so whatever two hosts have heard of it, one has heard a
beginning of what the other has (`tell_comparable`).
-/

namespace VisualNovel

structure Tale where
  vm : Interpreter
  /-- The options still to take; when they run out, the first one. -/
  picks : List Nat := []

/-- What happens, as one sees it who follows the tale. -/
inductive Happening where
  | event (event : Event)
  /-- The option of this text was taken. -/
  | chose (text : String)
  deriving DecidableEq, Repr

inductive Stop where
  | over
  | refused (error : RuntimeError)
  deriving DecidableEq, Repr

def Action.happenings (actions : List Action) : List Happening :=
  (actions.filterMap Action.event?).map .event

theorem Action.happenings_append (actions more : List Action) :
    happenings (actions ++ more) = happenings actions ++ happenings more := by
  simp [happenings]

namespace Tale

/-- One beat, with what happens in it. -/
def beat (tale : Tale) : Except Stop (Tale × List Happening) :=
  match tale.vm.suspend with
  | .running =>
    match tale.vm.stepLine? with
    | none => .error .over
    | some (next, actions) => .ok ({ tale with vm := next }, Action.happenings actions)
  | .waitingForInput => .ok ({ tale with vm := { tale.vm with suspend := .running } }, [])
  | .waitingForChoice =>
    let index := tale.picks.headD 0
    match tale.vm.offer.choices[index]? with
    | none => .error (.refused (.invalidChoiceIndex index tale.vm.offer.choices.length))
    | some choice =>
      let (next, actions) := tale.vm.reopen.jumpToLabel choice.target
      .ok (⟨next, tale.picks.tail⟩,
        .chose choice.text :: Action.happenings (.closeMenu :: actions))

section
variable {tale : Tale}

theorem beat_of_line (hv : tale.vm.suspend = .running) (h : tale.vm.stepLine? = some done) :
    tale.beat = .ok ({ tale with vm := done.1 }, Action.happenings done.2) := by
  simp [beat, hv, h]

theorem beat_of_end (hv : tale.vm.suspend = .running) (h : tale.vm.stepLine? = none) :
    tale.beat = .error .over := by
  simp [beat, hv, h]

theorem beat_of_waitingForInput (hv : tale.vm.suspend = .waitingForInput) :
    tale.beat = .ok ({ tale with vm := { tale.vm with suspend := .running } }, []) := by
  simp [beat, hv]

theorem beat_of_choice (hv : tale.vm.suspend = .waitingForChoice)
    (h : tale.vm.offer.choices[tale.picks.headD 0]? = some choice) :
    tale.beat =
      let jump := tale.vm.reopen.jumpToLabel choice.target
      .ok (⟨jump.1, tale.picks.tail⟩,
        .chose choice.text :: Action.happenings (.closeMenu :: jump.2)) := by
  simp only [beat, hv, h]

theorem beat_of_noChoice (hv : tale.vm.suspend = .waitingForChoice)
    (h : tale.vm.offer.choices[tale.picks.headD 0]? = none) :
    tale.beat = .error (.refused
      (.invalidChoiceIndex (tale.picks.headD 0) tale.vm.offer.choices.length)) := by
  simp only [beat, hv, h]

end

-- ---------------------------------------------------------------------------
-- Telling
-- ---------------------------------------------------------------------------

/-- The tale after so many beats, or where it stops, and what has happened. -/
def tell : Nat → Tale → Tale × List Happening
  | 0, tale => (tale, [])
  | beats + 1, tale =>
    match tale.beat with
    | .error _ => (tale, [])
    | .ok (next, told) =>
      let (last, more) := tell beats next
      (last, told ++ more)

theorem tell_succ (h : beat tale = .ok (next, told)) (beats : Nat) :
    tale.tell (beats + 1) = ((next.tell beats).1, told ++ (next.tell beats).2) := by
  simp only [tell, h]

theorem tell_one (h : beat tale = .ok (next, told)) : tale.tell 1 = (next, told) := by
  rw [tell_succ h 0]
  exact congrArg (next, ·) (List.append_nil told)

theorem tell_of_stuck (h : beat tale = .error stop) (beats : Nat) :
    tale.tell beats = (tale, []) := by
  cases beats <;> simp only [tell, h]

theorem tell_add (tale : Tale) (beats more : Nat) :
    tale.tell (beats + more) =
      let told := tale.tell beats
      ((told.1.tell more).1, told.2 ++ (told.1.tell more).2) := by
  induction beats generalizing tale with
  | zero => simp [tell]
  | succ beats ih =>
    cases h : tale.beat with
    | error stop => simp [tell_of_stuck h]
    | ok done => simp [Nat.succ_add, tell_succ h, ih]

theorem tell_trans (h : tell beats tale = (middle, told)) (hm : tell more middle = (last, rest)) :
    tale.tell (beats + more) = (last, told ++ rest) := by
  simp [tell_add, h, hm]

theorem tell_of_le (tale : Tale) (h : beats ≤ more) :
    (tale.tell beats).2 <+: (tale.tell more).2 := by
  obtain ⟨rest, rfl⟩ := Nat.exists_eq_add_of_le h
  exact tell_add tale beats rest ▸ List.prefix_append ..

/-- Of two who look at the same things in a tale, one has seen a beginning of what
the other has. -/
theorem tell_comparable (tale : Tale) (f : Happening → Option α) (beats more : Nat) :
    (tale.tell beats).2.filterMap f <+: (tale.tell more).2.filterMap f ∨
      (tale.tell more).2.filterMap f <+: (tale.tell beats).2.filterMap f :=
  (Nat.le_total beats more).imp (fun hle => (tell_of_le tale hle).filterMap f)
    (fun hle => (tell_of_le tale hle).filterMap f)

/-- The tale stops at or before this beat. -/
def StopsBy (tale : Tale) (beats : Nat) (stop : Stop) : Prop :=
  (tale.tell beats).1.beat = .error stop

theorem StopsBy.tell_eq (h : StopsBy tale beats stop) (hle : beats ≤ more) :
    tale.tell more = tale.tell beats := by
  obtain ⟨rest, rfl⟩ := Nat.exists_eq_add_of_le hle
  simp [tell_add, tell_of_stuck h]

/-- There is one end to a tale. -/
theorem StopsBy.unique (h : StopsBy tale beats stop) (h' : StopsBy tale beats' stop') :
    tale.tell beats' = tale.tell beats ∧ stop' = stop := by
  have heq : tale.tell beats' = tale.tell beats :=
    (Nat.le_total beats beats').elim h.tell_eq fun hle => (h'.tell_eq hle).symm
  refine ⟨heq, ?_⟩
  rw [StopsBy, heq, h] at h'
  exact (Except.error.inj h').symm

end Tale

-- ---------------------------------------------------------------------------
-- The limit of a chain
-- ---------------------------------------------------------------------------

namespace Interpreter

/-- The interpreter with another limit on the lines behind a pick. -/
def withLimit (vm : Interpreter) (limit : Nat) : Interpreter :=
  { vm with options := { vm.options with maxChainSteps := limit } }

section
variable (vm : Interpreter) (limit : Nat)

theorem jumpToLabel_withLimit (label : String) :
    (vm.withLimit limit).jumpToLabel label =
      ((vm.jumpToLabel label).1.withLimit limit, (vm.jumpToLabel label).2) := by
  simp only [jumpToLabel, withLimit]
  split <;> rfl

theorem follow_withLimit (line : Nat) (effect : Effect) :
    (vm.withLimit limit).follow line effect =
      ((vm.follow line effect).1.withLimit limit, (vm.follow line effect).2) := by
  cases effect with
  | offer choices => cases choices <;> rfl
  | _ => rfl

theorem runLine_withLimit (line : Nat) (form : LineForm) :
    (vm.withLimit limit).runLine line form =
      ((vm.runLine line form).1.withLimit limit, (vm.runLine line form).2) := by
  cases form with
  | command body =>
    let done := (Command.read body).value.execute vm.options.branchScan vm.program vm.cursor
      vm.affection
    have h := follow_withLimit { vm with cursor := done.cursor, affection := done.affection } limit
      line done.effect
    exact congrArg (fun next => (next.1, _ ++ next.2)) h
  | label _ | dialogue _ => rfl

theorem stepLine?_withLimit :
    (vm.withLimit limit).stepLine? =
      vm.stepLine?.map fun done => (done.1.withLimit limit, done.2) := by
  cases hj : vm.cursor.pendingJump with
  | some label =>
    simp only [stepLine?, withLimit, hj, Option.map_some]
    exact congrArg some (jumpToLabel_withLimit vm.takeJump limit label)
  | none =>
    cases hf : vm.program.form? vm.cursor.line with
    | none => simp only [stepLine?, withLimit, hj, hf, Option.map_none]
    | some form =>
      simp only [stepLine?, withLimit, hj, hf, Option.map_some]
      exact congrArg some (runLine_withLimit vm.passLine limit _ form)

end

end Interpreter

namespace Tale

def withLimit (tale : Tale) (limit : Nat) : Tale :=
  { tale with vm := tale.vm.withLimit limit }

theorem beat_withLimit (tale : Tale) (limit : Nat) :
    (tale.withLimit limit).beat = tale.beat.map fun done => (done.1.withLimit limit, done.2) := by
  cases hv : tale.vm.suspend with
  | running =>
    have hv' : (tale.withLimit limit).vm.suspend = .running := hv
    have hs : (tale.withLimit limit).vm.stepLine? = _ := tale.vm.stepLine?_withLimit limit
    cases h : tale.vm.stepLine? with
    | none =>
      rw [h] at hs
      rw [beat_of_end hv h, beat_of_end hv' hs]
      rfl
    | some done =>
      rw [h] at hs
      rw [beat_of_line hv h, beat_of_line hv' hs]
      rfl
  | waitingForInput =>
    have hv' : (tale.withLimit limit).vm.suspend = .waitingForInput := hv
    rw [beat_of_waitingForInput hv, beat_of_waitingForInput hv']
    rfl
  | waitingForChoice =>
    have hv' : (tale.withLimit limit).vm.suspend = .waitingForChoice := hv
    cases h : tale.vm.offer.choices[tale.picks.headD 0]? with
    | none =>
      rw [beat_of_noChoice hv h, beat_of_noChoice hv' h]
      rfl
    | some choice =>
      have hj : (tale.withLimit limit).vm.reopen.jumpToLabel choice.target = _ :=
        tale.vm.reopen.jumpToLabel_withLimit limit choice.target
      rw [beat_of_choice hv h, beat_of_choice hv' h, hj]
      rfl

/-- How many lines may follow a pick does not matter to the tale. -/
theorem tell_withLimit (tale : Tale) (limit beats : Nat) :
    (tale.withLimit limit).tell beats =
      ((tale.tell beats).1.withLimit limit, (tale.tell beats).2) := by
  induction beats generalizing tale with
  | zero => rfl
  | succ beats ih =>
    have hb := tale.beat_withLimit limit
    cases h : tale.beat with
    | error stop =>
      rw [h] at hb
      rw [tell_of_stuck h, tell_of_stuck hb]
    | ok done =>
      rw [h] at hb
      rw [tell_succ h, tell_succ hb, ih]

end Tale

end VisualNovel
