import VisualNovel.Interpreter.Session

/-!
# Playing a story without a player

Every frame gives one input if the story waits for one, a click or the next
pick, and then executes one step. When the picks run out the first option is
taken.
-/

namespace VisualNovel

namespace Session

inductive Ending where
  /-- The story was over in this frame, counted from 0. -/
  | ended (frame : Nat)
  | frameLimit (frames : Nat)
  | rejected (error : RuntimeError)
  deriving DecidableEq, Repr

structure Run (σ : Type) where
  ending : Ending
  last : Session σ
  actions : List Action := []
  log : List LogEvent := []

/-- The input of one frame, and the picks left after it. -/
def feed (sink : DisplaySink σ) (session : Session σ) (picks : List Nat) :
    Except RuntimeError (Session σ × List Nat) :=
  match session.vm.suspend with
  | .running => .ok (session, picks)
  | .waitingForInput => (session.input sink .click).map fun (_, next) => (next, picks)
  | .waitingForChoice =>
    (session.input sink (.select (picks.headD 0))).map fun (_, next) => (next, picks.tail)

/-- Plays `frames` more frames, of which the next is number `frame`. -/
def autoplayFrom (sink : DisplaySink σ) (frame : Nat) :
    Nat → List Nat → Session σ → Run σ
  | 0, _, session => { ending := .frameLimit frame, last := session }
  | frames + 1, picks, session =>
    match session.feed sink picks with
    | .error error => { ending := .rejected error, last := session }
    | .ok (fed, picks) =>
      let turn := fed.step sink
      if turn.running then
        let run := autoplayFrom sink (frame + 1) frames picks turn.next
        { run with actions := turn.actions ++ run.actions, log := turn.log ++ run.log }
      else { ending := .ended frame, last := turn.next, actions := turn.actions, log := turn.log }

def autoplay (sink : DisplaySink σ) (frames : Nat) (picks : List Nat) (session : Session σ) :
    Run σ :=
  autoplayFrom sink 0 frames picks session

end Session

end VisualNovel
