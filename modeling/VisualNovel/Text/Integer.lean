/-!
# Integer literals

A literal is a run of ASCII digits after an optional sign. Unsigned literals
take `+` only. A literal outside the range of its type is none at all.
-/

namespace VisualNovel.Text

/-- The largest index a script or a request can name. -/
def maxIndex : Nat := UInt64.size - 1

def digit? (c : Char) : Option Nat :=
  if '0' ≤ c ∧ c ≤ '9' then some (c.toNat - '0'.toNat) else none

def digitsFrom (value : Nat) : List Char → Option Nat
  | [] => some value
  | c :: cs => (digit? c).bind fun d => digitsFrom (10 * value + d) cs

def digits? : List Char → Option Nat
  | [] => none
  | cs => digitsFrom 0 cs

def unsigned? : List Char → Option Nat
  | '+' :: cs => digits? cs
  | cs => digits? cs

def signed? : List Char → Option Int
  | '-' :: cs => (digits? cs).map fun n => -(n : Int)
  | cs => (unsigned? cs).map fun n => (n : Int)

/-- An index: an unsigned literal of 64 bits. -/
def index? (s : String) : Option Nat :=
  (unsigned? s.toList).filter (· ≤ maxIndex)

def inInt32 (n : Int) : Bool :=
  Int32.minValue.toInt ≤ n && n ≤ Int32.maxValue.toInt

/-- An amount: a signed literal of 32 bits. -/
def amount? (s : String) : Option Int32 :=
  ((signed? s.toList).filter inInt32).map Int32.ofInt

end VisualNovel.Text
