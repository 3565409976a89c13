/-!
# JSON values

Members keep their order and may repeat a name, and a number keeps whether it
was written as an integer: readers of records look at all three.
-/

namespace VisualNovel

inductive Number where
  | integer (value : Int)
  /-- The mantissa times ten to the exponent. -/
  | decimal (negative : Bool) (mantissa : Nat) (exponent : Int)
  deriving DecidableEq, Repr, Inhabited

inductive Json where
  | null
  | bool (value : Bool)
  | number (value : Number)
  | string (value : String)
  | array (items : List Json)
  | object (members : List (String × Json))
  /-- A string in which half of a surrogate pair stands alone, or an object with
  such a name. It is in the grammar, but no reader takes it for anything. -/
  | illFormed
  deriving BEq, Repr, Inhabited

namespace Json

def nat (n : Nat) : Json := .number (.integer n)

def int (n : Int) : Json := .number (.integer n)

def member? (json : Json) (name : String) : Option Json :=
  match json with
  | .object members => members.lookup name
  | _ => none

def bool? : Json → Option Bool
  | .bool b => some b
  | _ => none

def string? : Json → Option String
  | .string s => some s
  | _ => none

def array? : Json → Option (List Json)
  | .array items => some items
  | _ => none

/-- An integer as written; `1.0` is none. -/
def integer? : Json → Option Int
  | .number (.integer n) => some n
  | _ => none

/-- A natural number up to `bound`. -/
def natUpTo? (bound : Nat) (json : Json) : Option Nat :=
  json.integer?.bind fun n =>
    match n with
    | .ofNat n => if n ≤ bound then some n else none
    | .negSucc _ => none

def int32? (json : Json) : Option Int32 :=
  json.integer?.bind fun n =>
    if Int32.minValue.toInt ≤ n ∧ n ≤ Int32.maxValue.toInt then some (Int32.ofInt n) else none

def listOf? (item? : Json → Option α) (json : Json) : Option (List α) :=
  json.array?.bind (·.mapM item?)

end Json

end VisualNovel
