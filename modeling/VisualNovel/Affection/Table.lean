import VisualNovel.Affection.Range

/-!
# The affection table

Written values by character, sorted by name. Every write is clamped to the
range of the table.
-/

namespace VisualNovel

/-- Sum of two amounts, held at the ends of 32 bits. -/
def addSaturated (a b : Int32) : Int32 :=
  let sum := a.toInt + b.toInt
  if sum < Int32.minValue.toInt then Int32.minValue
  else if Int32.maxValue.toInt < sum then Int32.maxValue
  else Int32.ofInt sum

structure AffectionTable where
  range : AffectionRange := {}
  entries : List (String × Int32) := []
  deriving DecidableEq, Repr, Inhabited

namespace AffectionTable

def insertEntry (character : String) (value : Int32) :
    List (String × Int32) → List (String × Int32)
  | [] => [(character, value)]
  | (name, old) :: rest =>
    if character = name then (name, value) :: rest
    else if character < name then (character, value) :: (name, old) :: rest
    else (name, old) :: insertEntry character value rest

theorem lookup_entry (other name : String) (value : Int32) (rest : List (String × Int32)) :
    ((name, value) :: rest).lookup other =
      if other = name then some value else rest.lookup other := by
  by_cases h : other = name
  · simp [h]
  · simp [List.lookup_cons, h, beq_eq_false_iff_ne.2 h]

theorem lookup_insertEntry (character : String) (value : Int32) (other : String)
    (entries : List (String × Int32)) :
    (insertEntry character value entries).lookup other =
      if other = character then some value else entries.lookup other := by
  induction entries with
  | nil => simp [insertEntry, lookup_entry]
  | cons e rest ih =>
    obtain ⟨name, old⟩ := e
    grind [insertEntry, lookup_entry]

/-- The last value written, if any. -/
def recorded (table : AffectionTable) (character : String) : Option Int32 :=
  table.entries.lookup character

def contains (table : AffectionTable) (character : String) : Bool :=
  (table.recorded character).isSome

def get (table : AffectionTable) (character : String) : Int32 :=
  (table.recorded character).getD table.range.initial

def set (table : AffectionTable) (character : String) (value : Int32) : AffectionTable :=
  { table with entries := insertEntry character (table.range.clamp value) table.entries }

/-- What `change` asks to be written: the first change starts from nothing, not
from the initial value of the range. -/
def changed (table : AffectionTable) (character : String) (delta : Int32) : Int32 :=
  addSaturated ((table.recorded character).getD 0) delta

def change (table : AffectionTable) (character : String) (delta : Int32) : AffectionTable :=
  table.set character (table.changed character delta)

def clear (table : AffectionTable) : AffectionTable :=
  { table with entries := [] }

@[simp] theorem recorded_set (table : AffectionTable) (character other : String)
    (value : Int32) :
    (table.set character value).recorded other =
      if other = character then some (table.range.clamp value) else table.recorded other :=
  lookup_insertEntry ..

@[simp] theorem recorded_clear (table : AffectionTable) (character : String) :
    table.clear.recorded character = none := rfl

@[simp] theorem range_set (table : AffectionTable) (character : String) (value : Int32) :
    (table.set character value).range = table.range := rfl

end AffectionTable

end VisualNovel
