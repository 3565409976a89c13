/-!
# Where a story stands
-/

namespace VisualNovel

inductive Suspend where
  | running
  | waitingForInput
  | waitingForChoice
  deriving DecidableEq, Repr, Inhabited

def Suspend.name : Suspend → String
  | .running => "Running"
  | .waitingForInput => "WaitingForInput"
  | .waitingForChoice => "WaitingForChoice"

structure Cursor where
  /-- The index of the next line. -/
  line : Nat := 0
  pendingJump : Option String := none
  /-- Whether a branch was taken, for each block entered; the innermost first. -/
  branches : List Bool := []
  deriving DecidableEq, Repr, Inhabited

namespace Cursor

def advance (cursor : Cursor) : Cursor :=
  { cursor with line := cursor.line + 1 }

def jumpTo (cursor : Cursor) (line : Nat) : Cursor :=
  { cursor with line }

def push (cursor : Cursor) (taken : Bool) : Cursor :=
  { cursor with branches := taken :: cursor.branches }

def pop (cursor : Cursor) : Cursor :=
  { cursor with branches := cursor.branches.tail }

def top? (cursor : Cursor) : Option Bool :=
  cursor.branches.head?

/-- Overwrites the innermost entry; without one, nothing happens. -/
def setTop (cursor : Cursor) (taken : Bool) : Cursor :=
  match cursor.branches with
  | [] => cursor
  | _ :: outer => { cursor with branches := taken :: outer }

def depth (cursor : Cursor) : Nat :=
  cursor.branches.length

end Cursor

end VisualNovel
