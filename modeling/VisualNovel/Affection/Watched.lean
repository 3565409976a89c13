import VisualNovel.Affection.Table

/-!
# A watched affection table

Observers are told of every write, with the value that was stored, in the order
in which they registered. They are numbered from 1.
-/

namespace VisualNovel

/-- One observer told of one write. -/
structure Notice where
  observer : Nat
  character : String
  value : Int32
  deriving DecidableEq, Repr

structure WatchedTable where
  table : AffectionTable := {}
  observers : Nat := 0

namespace WatchedTable

def observe (watched : WatchedTable) : WatchedTable :=
  { watched with observers := watched.observers + 1 }

def notices (watched : WatchedTable) (character : String) : List Notice :=
  (List.range watched.observers).map fun i => ⟨i + 1, character, watched.table.get character⟩

def set (watched : WatchedTable) (character : String) (value : Int32) :
    WatchedTable × List Notice :=
  let after := { watched with table := watched.table.set character value }
  (after, after.notices character)

def change (watched : WatchedTable) (character : String) (delta : Int32) :
    WatchedTable × List Notice :=
  let after := { watched with table := watched.table.change character delta }
  (after, after.notices character)

def clear (watched : WatchedTable) : WatchedTable :=
  { watched with table := watched.table.clear }

end WatchedTable

end VisualNovel
