import VisualNovel.Display.Command
import VisualNovel.Proofs.Script.MarkerLaws

/-!
# Blocks

Structured scripts: plain lines, and chains of branches whose bodies are blocks
again. `Block.lines` lays a block out as the lines of a program; `Block.tell` is
what it means, without a cursor, a stack or a scan.
-/

namespace VisualNovel

-- ---------------------------------------------------------------------------
-- Structure
-- ---------------------------------------------------------------------------

/-- A menu is plain only when it is empty, since it is not offered then. -/
def Command.isPlain : Command → Bool
  | .choice options => options.isEmpty
  | .ifHolds _ | .elseIf _ | .otherwise | .endIf | .jump _ => false
  | _ => true

/-- Dialogue, a label, or a command after which the story goes on below. -/
def PlainLine : Type :=
  { line : ScriptLine // line.command?.all Command.isPlain = true }

/-- A line that reads as the given command. -/
def LineOf (command : Command) : Type :=
  { line : ScriptLine // line.command? = some command }

mutual

/-- Lines and chains with what comes after them. -/
inductive Block : Type
  | done
  | plain (line : PlainLine) (rest : Block)
  | chain (condition : Condition) (opening : LineOf (.ifHolds condition)) (body : Block)
      (branches : Branches) (closing : LineOf .endIf) (rest : Block)

/-- The branches of a chain behind the first. -/
inductive Branches : Type
  | none
  | elseIf (condition : Condition) (line : LineOf (.elseIf condition)) (body : Block)
      (more : Branches)
  | otherwise (line : LineOf .otherwise) (body : Block)

end

mutual

def Block.lines : Block → List ScriptLine
  | .done => []
  | .plain line rest => line.val :: rest.lines
  | .chain _ opening body branches closing rest =>
    opening.val :: (body.lines ++ (branches.lines ++ closing.val :: rest.lines))

def Branches.lines : Branches → List ScriptLine
  | .none => []
  | .elseIf _ line body more => line.val :: (body.lines ++ more.lines)
  | .otherwise line body => line.val :: body.lines

end

namespace Branches

theorem lines_elseIf_append (line : LineOf (.elseIf condition)) (below : List ScriptLine) :
    (elseIf condition line body more).lines ++ below =
      line.val :: (body.lines ++ (more.lines ++ below)) := by
  simp [lines]

theorem lines_otherwise_append (line : LineOf .otherwise) (below : List ScriptLine) :
    (otherwise line body).lines ++ below = line.val :: (body.lines ++ (none.lines ++ below)) := by
  simp [lines]

end Branches

-- ---------------------------------------------------------------------------
-- Meaning
-- ---------------------------------------------------------------------------

/-- What is seen of a story while it is told. -/
inductive Event where
  | shown (command : DisplayCommand)
  /-- An affection was written, with the value as stored. -/
  | wrote (character : String) (value : Int32)
  deriving DecidableEq, Repr

/-- From the affections before, those after and the events in order. -/
abbrev Story : Type :=
  AffectionTable → AffectionTable × List Event

namespace Story

def idle : Story :=
  fun affection => (affection, [])

def present (command : DisplayCommand) : Story :=
  fun affection => (affection, [.shown command])

def seq (first second : Story) : Story :=
  fun affection =>
    let (affection, before) := first affection
    let (affection, behind) := second affection
    (affection, before ++ behind)

def choose (condition : Condition) (yes no : Story) : Story :=
  fun affection => if condition.holds affection then yes affection else no affection

theorem choose_of_holds (h : Condition.holds affection condition = true) :
    choose condition yes no affection = yes affection :=
  if_pos h

theorem choose_of_fails (h : Condition.holds affection condition = false) :
    choose condition yes no affection = no affection :=
  if_neg (by simp [h])

end Story

def Command.tell : Command → Story
  | .background layer path transition => .present (.setImage layer path transition)
  | .character layer position path => .present (.setCharacter layer position path)
  | .clear layer => .present (.clearLayer layer)
  | .affection who delta => fun affection =>
    let after := affection.change who delta
    (after, [.wrote who (after.get who)])
  | _ => .idle

def ScriptLine.tell (line : ScriptLine) : Story :=
  match line.form with
  | .dialogue text => .present (.showText text)
  | .label _ => .idle
  | .command body => (Command.read body).value.tell

mutual

def Block.tell : Block → Story
  | .done => .idle
  | .plain line rest => line.val.tell.seq rest.tell
  | .chain condition _ body branches _ rest =>
    (Story.choose condition body.tell branches.tell).seq rest.tell

/-- Only the first branch that holds is told. -/
def Branches.tell : Branches → Story
  | .none => .idle
  | .elseIf condition _ body more => .choose condition body.tell more.tell
  | .otherwise _ body => body.tell

end

end VisualNovel
