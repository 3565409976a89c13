import VisualNovel.Display.Command
import VisualNovel.Interpreter.Cursor
import VisualNovel.Script.Branch

/-!
# Executing a command

A command moves the stack of branches or changes an affection at once. All else
it asks for is its effect, which the caller carries out.
-/

namespace VisualNovel

inductive Effect where
  | nothing
  | display (command : DisplayCommand)
  | offer (choices : List Choice)
  | jump (label : String)
  | skip (line : Nat)
  /-- An affection was written, with the value as stored. -/
  | wrote (character : String) (value : Int32)
  | unknown (name : String)
  deriving DecidableEq, Repr, Inhabited

structure Execution where
  effect : Effect := .nothing
  cursor : Cursor
  affection : AffectionTable
  deriving DecidableEq, Repr

/-- Executes a command whose line the cursor has already passed. A branch that
is not taken, and the rest of a block whose branch was, are skipped. -/
def Command.execute (scan : BranchScan) (program : Program) (cursor : Cursor)
    (affection : AffectionTable) (command : Command) : Execution :=
  match command with
  | .background layer path transition =>
    { effect := .display (.setImage layer path transition), cursor, affection }
  | .character layer position path =>
    { effect := .display (.setCharacter layer position path), cursor, affection }
  | .clear layer => { effect := .display (.clearLayer layer), cursor, affection }
  | .choice options => { effect := .offer options, cursor, affection }
  | .affection who delta =>
    let after := affection.change who delta
    { effect := .wrote who (after.get who), cursor, affection := after }
  | .ifHolds condition =>
    if condition.holds affection then { cursor := cursor.push true, affection }
    else
      { effect := .skip (scan.nextBranch program cursor.line)
        cursor := cursor.push false, affection }
  | .elseIf condition =>
    if cursor.top? = some false then
      if condition.holds affection then { cursor := cursor.setTop true, affection }
      else { effect := .skip (scan.nextBranch program cursor.line), cursor, affection }
    else { effect := .skip (scan.blockEnd program cursor.line), cursor, affection }
  | .otherwise =>
    if cursor.top? = some false then { cursor := cursor.setTop true, affection }
    else { effect := .skip (scan.blockEnd program cursor.line), cursor, affection }
  | .endIf => { cursor := cursor.pop, affection }
  | .jump label => { effect := .jump label, cursor, affection }
  | .unknown name => { effect := .unknown name, cursor, affection }
  | .invalid _ => { cursor, affection }

end VisualNovel
