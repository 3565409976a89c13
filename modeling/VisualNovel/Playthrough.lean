import VisualNovel.Interpreter.Session
import VisualNovel.Script.File
import VisualNovel.Stage.Basic

/-!
# Playing a story from start to end

A playthrough gives the inputs of a player who reads every text and takes the
options listed, by pointing at their buttons; when the list runs out, the first
option. It keeps what was said and what was chosen.
-/

namespace VisualNovel

structure Playthrough where
  session : Session Stage
  /-- The options still to take. -/
  picks : List Nat := []
  /-- Whether to click before a text is shown in full. -/
  skipReveal : Bool := false
  transcript : Array String := #[]
  selections : Array String := #[]
  log : Array LogEvent := #[]

namespace Playthrough

def start (config : Config) (files : Files) (picks : List Nat) (skipReveal : Bool) :
    Except LoadError Playthrough :=
  (Program.load files config.startScriptPath).map fun program =>
    { session := ⟨(Interpreter.ofOptions config.story).load program, .ofConfig config files⟩
      picks
      skipReveal }

def vm (play : Playthrough) : Interpreter :=
  play.session.vm

def stage (play : Playthrough) : Stage :=
  play.session.display

-- ---------------------------------------------------------------------------
-- Inputs
-- ---------------------------------------------------------------------------

def give (play : Playthrough) (input : Input) : Except RuntimeError Playthrough :=
  (play.session.input Stage.sink input).map fun (_, session) => { play with session }

/-- The option the pointer ends on when it is moved to the given one; off the
menu the option itself is meant. -/
def pointedAt (play : Playthrough) (index : Nat) : Nat :=
  (play.stage.scene.menu.bind (·.pointAt index)).getD index

/-- Moves the pointer to the next option listed and picks what it ends on. -/
def choose (play : Playthrough) : Except RuntimeError Playthrough := do
  let index := play.pointedAt (play.picks.headD 0)
  let hovering ← { play with picks := play.picks.tail }.give (.hover index)
  let picked ← hovering.give (.select index)
  return { picked with
    selections := picked.selections.append
      ((picked.vm.offer.choices[index]?).map (·.text)).toArray }

/-- The input of one frame, if the story waits for one. -/
def applyInput (play : Playthrough) : Except RuntimeError Playthrough :=
  match play.vm.suspend with
  | .waitingForInput =>
    if play.skipReveal || play.stage.isTextReady then play.give .click else .ok play
  | .waitingForChoice => if play.vm.offer.hasSelection then .ok play else play.choose
  | .running => .ok play

-- ---------------------------------------------------------------------------
-- Frames
-- ---------------------------------------------------------------------------

/-- A step; a text that begins to wait for its reader goes into the transcript. -/
def step (play : Playthrough) : Bool × Playthrough :=
  let turn := play.session.step Stage.sink
  let entered := play.vm.suspend ≠ .waitingForInput ∧ turn.next.vm.suspend = .waitingForInput
  let said := if entered then turn.next.vm.currentText else none
  (turn.running,
    { play with
      session := turn.next
      transcript := play.transcript.append said.toArray
      log := play.log.append turn.log.toArray })

def updateStage (play : Playthrough) : Playthrough :=
  { play with session := { play.session with display := play.stage.update } }

inductive FrameResult where
  | running
  | finished
  | failed (error : RuntimeError)
  deriving DecidableEq, Repr

/-- One frame: the stage moves on, then an input is given, then the story makes
a step. -/
def frame (play : Playthrough) : FrameResult × Playthrough :=
  let updated := play.updateStage
  match updated.applyInput with
  | .error error => (.failed error, updated)
  | .ok fed =>
    match fed.step with
    | (true, next) => (.running, next)
    | (false, next) => (.finished, next)

inductive Ending where
  | finished
  | frameLimit
  | failed (error : RuntimeError)
  deriving DecidableEq, Repr

/-- How a run ended, and after how many frames. -/
structure Run where
  ending : Ending
  frames : Nat
  last : Playthrough

def runFrom (limit frames : Nat) : Nat → Playthrough → Run
  | 0, play =>
    { ending := .frameLimit, frames
      last := { play with log := play.log.push (.frameLimit limit) } }
  | left + 1, play =>
    match play.frame with
    | (.running, next) => runFrom limit (frames + 1) left next
    | (.finished, next) => { ending := .finished, frames := frames + 1, last := next }
    | (.failed error, next) => { ending := .failed error, frames := frames + 1, last := next }

/-- Plays until the story is over, fails, or has taken `limit` frames. -/
def run (play : Playthrough) (limit : Nat) : Run :=
  runFrom limit 0 limit play

end Playthrough

end VisualNovel
