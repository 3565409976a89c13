import VisualNovel.Display.Recording
import VisualNovel.Interpreter.Autoplay
import VisualNovel.Proofs.Story.Telling
import VisualNovel.Proofs.Session.CarryingOut
import VisualNovel.Proofs.Story.Turn

/-!
# Chains cut anywhere

A story played by a host without a player, on any display that can complete its
text, is a telling of its tale with the limit of a chain left out
(`Autoplay.telling`). So the limit only decides in which frame a line is run:
`Session.autoplay_same_for_limits`.
-/

namespace VisualNovel

namespace Happening

def event? : Happening → Option Event
  | .event seen => some seen
  | .chose _ => none

def events (told : List Happening) : List Event :=
  told.filterMap event?

theorem events_append (told more : List Happening) :
    events (told ++ more) = events told ++ events more :=
  List.filterMap_append ..

theorem events_happenings (actions : List Action) :
    events (Action.happenings actions) = actions.filterMap Action.event? := by
  simp [events, Action.happenings, List.filterMap_map, Function.comp_def, event?]

end Happening

theorem Tale.events_choosing (tale : Tale) : Happening.events tale.choosing = [] := by
  unfold choosing
  split
  · cases tale.vm.offer.choices[tale.picks.headD 0]? <;> simp [Happening.events, Happening.event?]
  · rfl

/-- A session being played, with the picks left and what has been shown and
written so far. -/
structure Autoplay (σ : Type) where
  session : Session σ
  picks : List Nat
  events : List Event := []

namespace Autoplay

def tale (play : Autoplay σ) : Tale :=
  ⟨play.session.vm, play.picks⟩

def step (sink : DisplaySink σ) (play : Autoplay σ) : Option Stop × Autoplay σ :=
  let turn := play.session.step sink
  (if turn.running then none else some .over,
    { play with
      session := turn.next
      events := play.events ++ turn.actions.filterMap Action.event? })

def frame (sink : DisplaySink σ) (play : Autoplay σ) : Option Stop × Autoplay σ :=
  match play.session.feed sink play.picks with
  | .error error => (some (.refused error), play)
  | .ok (fed, picks) => step sink { play with session := fed, picks }

/-- Text is on show that is not ready. -/
def Waits (sink : DisplaySink σ) (play : Autoplay σ) : Prop :=
  play.session.vm.suspend = .waitingForInput ∧ sink.isTextReady play.session.display = false

section
variable {sink : DisplaySink σ} {play : Autoplay σ}

theorem feed_of_not_waits (h : ¬play.Waits sink) :
    play.session.feed sink play.picks =
      play.tale.answer.map fun answered =>
        (⟨answered.vm, play.session.display⟩, answered.picks) := by
  cases hv : play.session.vm.suspend with
  | running => simp [Session.feed, Tale.answer, tale, hv, Except.map]
  | waitingForInput =>
    have hr : sink.isTextReady play.session.display = true := by
      simpa [Waits, hv] using h
    simp [Session.feed, Session.input_eq_map, Tale.answer, Tale.resume, tale, hv, hr, Except.map,
      Interpreter.input_click hv]
  | waitingForChoice =>
    simp only [Session.feed, Session.input_eq_map, Tale.answer, tale, hv,
      Interpreter.input_select hv]
    cases play.session.vm.offer.select (play.picks.headD 0) <;> rfl

theorem frame_of_waits (h : play.Waits sink) :
    play.frame sink =
      (none, { play with session :=
        ⟨play.session.vm, sink.completeText play.session.display⟩ }) := by
  obtain ⟨hv, hr⟩ := h
  have hfeed : play.session.feed sink play.picks =
      .ok (⟨play.session.vm, sink.completeText play.session.display⟩, play.picks) := by
    simp [Session.feed, Session.input_eq_map, hv, hr, Except.map, Interpreter.input_click hv]
  simp [frame, hfeed, step, Session.step_eq_carryOut, DisplaySink.carryOut,
    Interpreter.step_of_waitingForInput hv, DisplaySink.performAll]

/-- A frame that does not wait is a turn of the tale. -/
theorem frame_of_not_waits (h : ¬play.Waits sink) :
    (play.frame sink).1 = play.tale.turn.stop ∧
      (play.frame sink).2.tale = play.tale.turn.next ∧
      (play.frame sink).2.events = play.events ++ Happening.events play.tale.turn.told := by
  unfold frame Tale.turn
  rw [feed_of_not_waits h]
  cases play.tale.answer with
  | error error => exact ⟨rfl, rfl, (List.append_nil _).symm⟩
  | ok answered =>
    simp only [Except.map, step, tale, Session.step_running, Session.step_vm,
      Session.step_actions]
    refine ⟨trivial, trivial, ?_⟩
    rw [Happening.events_append, Tale.events_choosing, Happening.events_happenings]
    rfl

end

-- ---------------------------------------------------------------------------
-- Telling
-- ---------------------------------------------------------------------------

/-- So much of the tale has been told, whatever the limit of a chain. -/
structure At (whole : Tale) (play : Autoplay σ) (beats : Nat) : Prop where
  unpicked : play.tale.vm.Unpicked
  tale : (whole.tell beats).1 = play.tale.withLimit 0
  events : Happening.events (whole.tell beats).2 = play.events

section
variable {sink : DisplaySink σ} {play : Autoplay σ}

theorem At.turn (h : At whole play beats) (hw : ¬play.Waits sink) :
    ∃ more, At whole (play.frame sink).2 (beats + more) ∧
      Turn.Tells play.tale play.tale.turn more := by
  obtain ⟨-, htale, hevents⟩ := frame_of_not_waits hw
  obtain ⟨more, htells⟩ := Tale.turn_tells h.unpicked
  have hmore := Tale.tell_withLimit play.tale 0 more
  rw [htells.tell, ← htale] at hmore
  refine ⟨more, ⟨?_, ?_, ?_⟩, htells⟩
  · exact htale ▸ Tale.turn_unpicked h.unpicked
  · simp only [Tale.tell_add, h.tale, hmore]
  · simp only [Tale.tell_add, h.tale, hmore, Happening.events_append, h.events, hevents]

theorem At.stops (h : At whole play beats) (hstops : (play.frame sink).1 = some stop) :
    ∃ more, At whole (play.frame sink).2 more ∧ whole.StopsBy more stop := by
  by_cases hw : play.Waits sink
  · rw [frame_of_waits hw] at hstops
    cases hstops
  · obtain ⟨hstop, htale, -⟩ := frame_of_not_waits hw
    obtain ⟨more, hnext, htells⟩ := h.turn hw
    refine ⟨beats + more, hnext, ?_⟩
    rw [Tale.StopsBy, hnext.tale, htale, Tale.beat_withLimit,
      htells.stops stop (hstop.symm.trans hstops)]
    rfl

/-- How many frames may pass until the text is ready and the story goes on. -/
def patience (sink : DisplaySink σ) (play : Autoplay σ) : Nat :=
  if sink.isTextReady play.session.display then 0 else 1

theorem At.goes (hready : ∀ display, sink.isTextReady (sink.completeText display) = true)
    (h : At whole play beats) (hgoes : (play.frame sink).1 = none) :
    (∃ more, beats < more ∧ At whole (play.frame sink).2 more ∧
        ∀ stop, ¬whole.StopsBy beats stop) ∨
      At whole (play.frame sink).2 beats ∧
        (play.frame sink).2.patience sink < play.patience sink := by
  by_cases hw : play.Waits sink
  · rw [frame_of_waits hw]
    exact .inr ⟨⟨h.unpicked, h.tale, h.events⟩, by simp [patience, hready, hw.2]⟩
  · obtain ⟨hstop, -, -⟩ := frame_of_not_waits hw
    obtain ⟨more, hnext, htells⟩ := h.turn hw
    obtain ⟨hpos, hgo⟩ := htells.goes (hstop.symm.trans hgoes)
    refine .inl ⟨beats + more, by omega, hnext, fun stop hs => ?_⟩
    rw [Tale.StopsBy, h.tale, Tale.beat_withLimit] at hs
    cases hb : play.tale.beat with
    | error stop => exact hgo stop hb
    | ok done => simp [hb, Except.map] at hs

end

def telling (sink : DisplaySink σ)
    (hready : ∀ display, sink.isTextReady (sink.completeText display) = true) (whole : Tale) :
    Telling whole (Autoplay σ) where
  frame := frame sink
  At := At whole
  patience := patience sink
  stops := At.stops
  goes := At.goes hready

end Autoplay

-- ---------------------------------------------------------------------------
-- Runs
-- ---------------------------------------------------------------------------

namespace Session

def Ending.stop? : Ending → Option Stop
  | .ended _ => some .over
  | .frameLimit _ => none
  | .rejected error => some (.refused error)

end Session

/-- How a run ends that stops in the frame. -/
def Stop.ending (frame : Nat) : Stop → Session.Ending
  | .over => .ended frame
  | .refused error => .rejected error

theorem Stop.ending_stop? (stop : Stop) (frame : Nat) :
    (stop.ending frame).stop? = some stop := by
  cases stop <;> rfl

namespace Session

/-- What the display was sent and which affections were written, in order. -/
def Run.events (run : Run σ) : List Event :=
  run.actions.filterMap Action.event?

theorem autoplayFrom_of_stop {sink : DisplaySink σ} {play next : Autoplay σ}
    (h : play.frame sink = (some stop, next)) (frame frames : Nat) :
    let run := autoplayFrom sink frame (frames + 1) play.picks play.session
    run.ending = stop.ending frame ∧ run.last = next.session ∧
      play.events ++ run.events = next.events := by
  unfold Autoplay.frame at h
  unfold autoplayFrom
  cases hfeed : play.session.feed sink play.picks with
  | error error =>
    simp only [hfeed, Prod.mk.injEq, Option.some.injEq] at h
    obtain ⟨rfl, rfl⟩ := h
    exact ⟨rfl, rfl, List.append_nil _⟩
  | ok fed =>
    cases hrunning : (fed.1.step sink).running with
    | true => simp [hfeed, Autoplay.step, hrunning] at h
    | false =>
      simp only [hfeed, Autoplay.step, hrunning, Prod.mk.injEq, Bool.false_eq_true, if_false,
        Option.some.injEq] at h ⊢
      obtain ⟨rfl, rfl⟩ := h
      exact ⟨rfl, rfl, rfl⟩

theorem autoplayFrom_of_go {sink : DisplaySink σ} {play next : Autoplay σ}
    (h : play.frame sink = (none, next)) (frame frames : Nat) :
    let run := autoplayFrom sink frame (frames + 1) play.picks play.session
    let rest := autoplayFrom sink (frame + 1) frames next.picks next.session
    run.ending = rest.ending ∧ run.last = rest.last ∧
      play.events ++ run.events = next.events ++ rest.events := by
  intro run rest
  have hrun : run = autoplayFrom sink frame (frames + 1) play.picks play.session := rfl
  unfold Autoplay.frame at h
  rw [autoplayFrom] at hrun
  cases hfeed : play.session.feed sink play.picks with
  | error error => simp [hfeed] at h
  | ok fed =>
    cases hrunning : (fed.1.step sink).running with
    | false => simp [hfeed, Autoplay.step, hrunning] at h
    | true =>
      simp only [hfeed, Autoplay.step, hrunning, Prod.mk.injEq, if_true, true_and] at h hrun
      subst h
      rw [hrun]
      refine ⟨rfl, rfl, ?_⟩
      rw [Run.events, List.filterMap_append, ← List.append_assoc]
      rfl

theorem autoplayFrom_eq (sink : DisplaySink σ)
    (hready : ∀ display, sink.isTextReady (sink.completeText display) = true) (whole : Tale)
    (play : Autoplay σ) (frame frames : Nat) :
    let run := autoplayFrom sink frame frames play.picks play.session
    let told := (Autoplay.telling sink hready whole).run frames play
    run.ending.stop? = told.1 ∧ run.last = told.2.session ∧
      play.events ++ run.events = told.2.events := by
  induction frames generalizing play frame with
  | zero => exact ⟨rfl, rfl, List.append_nil _⟩
  | succ frames ih =>
    rcases hframe : play.frame sink with ⟨_ | stop, next⟩
    · obtain ⟨hending, hlast, hevents⟩ := autoplayFrom_of_go hframe frame frames
      have hgo : ((Autoplay.telling sink hready whole).frame play).1 = none :=
        congrArg Prod.fst hframe
      have hnext : ((Autoplay.telling sink hready whole).frame play).2 = next :=
        congrArg Prod.snd hframe
      rw [Telling.run_of_go _ hgo, hnext]
      simp only [hending, hlast, hevents]
      exact ih next (frame + 1)
    · obtain ⟨hending, hlast, hevents⟩ := autoplayFrom_of_stop hframe frame frames
      have hstop : ((Autoplay.telling sink hready whole).frame play).1 = some stop :=
        congrArg Prod.fst hframe
      have hnext : ((Autoplay.telling sink hready whole).frame play).2 = next :=
        congrArg Prod.snd hframe
      rw [Telling.run_of_stop _ hstop, hnext]
      simp only [hending, hlast, hevents, Stop.ending_stop?]
      exact ⟨trivial, trivial, trivial⟩

/-- Two runs that have come to the same end. -/
structure Run.SameEnd (run run' : Run σ) : Prop where
  stop : run'.ending.stop? = run.ending.stop?
  events : run'.events = run.events
  affection : run'.last.vm.affection = run.last.vm.affection
  suspend : run'.last.vm.suspend = run.last.vm.suspend
  cursor : run'.last.vm.cursor = run.last.vm.cursor

section
variable {sink : DisplaySink σ}
  (hready : ∀ display, sink.isTextReady (sink.completeText display) = true)
  {whole : Tale} {picks : List Nat} {session session' : Session σ}
include hready

/-- What a run has come to, in terms of the tale. -/
theorem autoplay_at (h : Autoplay.At whole ⟨session, picks, []⟩ 0) (frames : Nat) :
    let run := session.autoplay sink frames picks
    ∃ beats, run.last.vm.withLimit 0 = (whole.tell beats).1.vm ∧
      run.events = Happening.events (whole.tell beats).2 ∧
      ∀ stop, run.ending.stop? = some stop → whole.StopsBy beats stop := by
  intro run
  obtain ⟨hstop, hlast, hevents⟩ := autoplayFrom_eq sink hready whole ⟨session, picks, []⟩ 0 frames
  obtain ⟨beats, hat, hstops⟩ := (Autoplay.telling sink hready whole).run_at h frames
  have hlast : run.last = _ := hlast
  refine ⟨beats, ?_, hevents.trans hat.events.symm, fun stop hs => hstops stop ?_⟩
  · rw [hlast]
    exact congrArg Tale.vm hat.tale.symm
  · exact hstop.symm.trans hs

theorem autoplay_comparable (h : Autoplay.At whole ⟨session, picks, []⟩ 0)
    (h' : Autoplay.At whole ⟨session', picks, []⟩ 0) (frames frames' : Nat) :
    let run := session.autoplay sink frames picks
    let run' := session'.autoplay sink frames' picks
    run.events <+: run'.events ∨ run'.events <+: run.events := by
  intro run run'
  obtain ⟨beats, -, hevents, -⟩ := autoplay_at hready h frames
  obtain ⟨beats', -, hevents', -⟩ := autoplay_at hready h' frames'
  have hcomparable := whole.tell_comparable Happening.event? beats beats'
  rwa [hevents, hevents']

theorem autoplay_sameEnd (h : Autoplay.At whole ⟨session, picks, []⟩ 0)
    (h' : Autoplay.At whole ⟨session', picks, []⟩ 0)
    (hstop : (session.autoplay sink frames picks).ending.stop? = some stop)
    (hstop' : (session'.autoplay sink frames' picks).ending.stop? = some stop') :
    (session.autoplay sink frames picks).SameEnd (session'.autoplay sink frames' picks) := by
  obtain ⟨beats, hvm, hevents, hstops⟩ := autoplay_at hready h frames
  obtain ⟨beats', hvm', hevents', hstops'⟩ := autoplay_at hready h' frames'
  obtain ⟨htell, rfl⟩ := (hstops stop hstop).unique (hstops' stop' hstop')
  rw [htell] at hvm' hevents'
  have heq := hvm'.trans hvm.symm
  exact {
    stop := hstop'.trans hstop.symm
    events := hevents'.trans hevents.symm
    affection := (congrArg Interpreter.affection heq :)
    suspend := (congrArg Interpreter.suspend heq :)
    cursor := (congrArg Interpreter.cursor heq :) }

theorem autoplay_ends (h : Autoplay.At whole ⟨session, picks, []⟩ 0)
    (h' : Autoplay.At whole ⟨session', picks, []⟩ 0)
    (hstop : (session.autoplay sink frames picks).ending.stop? = some stop) :
    ∃ enough, ∀ frames', enough ≤ frames' →
      (session'.autoplay sink frames' picks).ending.stop? = some stop := by
  have heq := autoplayFrom_eq sink hready whole ⟨session, picks, []⟩ 0 frames
  obtain ⟨enough, hstops⟩ := Telling.stops_alike (Autoplay.telling sink hready whole)
    (Autoplay.telling sink hready whole) h h' (heq.1.symm.trans hstop)
  refine ⟨enough, fun frames' hle => ?_⟩
  have heq' := autoplayFrom_eq sink hready whole ⟨session', picks, []⟩ 0 frames'
  exact heq'.1.trans (hstops frames' hle)

end

/-- A program freshly loaded, with the affections kept from before. -/
def fresh (program : Program) (options : Options) (affection : AffectionTable) (display : σ) :
    Session σ :=
  ⟨{ (Interpreter.ofOptions options).load program with affection }, display⟩

/-- The limit of a chain decides in which frame a line is run and nothing else:
one of two runs has shown and written a beginning of what the other has, and
when one has ended the other, given frames enough, ends in the same way. -/
theorem autoplay_same_for_limits (program : Program) (options : Options)
    (affection : AffectionTable) (limit limit' : Nat) (picks : List Nat)
    (display display' : RecordingDisplay) :
    let run := fun frames => autoplay RecordingDisplay.sink frames picks
      (fresh program { options with maxChainSteps := limit } affection display)
    let run' := fun frames => autoplay RecordingDisplay.sink frames picks
      (fresh program { options with maxChainSteps := limit' } affection display')
    (∀ frames frames', (run frames).events <+: (run' frames').events ∨
      (run' frames').events <+: (run frames).events) ∧
    ∀ frames, (run frames).ending.stop? ≠ none →
      ∃ enough, ∀ frames', enough ≤ frames' → (run frames).SameEnd (run' frames') := by
  intro run run'
  -- Both tell this tale, which has no limit of its own.
  let vm := (fresh program options affection display).vm
  let whole : Tale := ⟨vm.withLimit 0, picks⟩
  have h : Autoplay.At whole
      ⟨fresh program { options with maxChainSteps := limit } affection display, picks, []⟩ 0 :=
    ⟨nofun, rfl, rfl⟩
  have h' : Autoplay.At whole
      ⟨fresh program { options with maxChainSteps := limit' } affection display', picks, []⟩ 0 :=
    ⟨nofun, rfl, rfl⟩
  have hready (display : RecordingDisplay) :
      RecordingDisplay.sink.isTextReady (RecordingDisplay.sink.completeText display) = true := rfl
  refine ⟨autoplay_comparable hready h h', fun frames hended => ?_⟩
  obtain ⟨stop, hstop⟩ := Option.ne_none_iff_exists'.mp hended
  obtain ⟨enough, hstops⟩ := autoplay_ends hready h h' hstop
  exact ⟨enough, fun frames' hle => autoplay_sameEnd hready h h' hstop (hstops frames' hle)⟩

end Session

end VisualNovel
