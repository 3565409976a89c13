import VisualNovel.Json.Value
import VisualNovel.Text.Integer

/-!
# Reading JSON

The grammar is strict: no comments, no byte-order mark, no text after the
value. Half of a surrogate pair may stand alone, but makes what it stands in
ill-formed.
-/

namespace VisualNovel.Json.Reader

def skipSpace (cs : List Char) : List Char :=
  cs.dropWhile fun c => c = ' ' || c = '\n' || c = '\t' || c = '\r'

/-- What follows `text` in `cs`, if `cs` begins with it. -/
def expect : List Char → List Char → Option (List Char)
  | [], cs => some cs
  | t :: ts, c :: cs => if t = c then expect ts cs else none
  | _ :: _, [] => none

-- ---------------------------------------------------------------------------
-- Strings
-- ---------------------------------------------------------------------------

def hexDigit? (c : Char) : Option Nat :=
  if '0' ≤ c ∧ c ≤ '9' then some (c.toNat - 48)
  else if 'a' ≤ c ∧ c ≤ 'f' then some (c.toNat - 87)
  else if 'A' ≤ c ∧ c ≤ 'F' then some (c.toNat - 55)
  else none

def unit? (a b c d : Char) : Option Nat := do
  let a ← hexDigit? a
  let b ← hexDigit? b
  let c ← hexDigit? c
  let d ← hexDigit? d
  return ((a * 16 + b) * 16 + c) * 16 + d

/-- What one character or escape of a string stands for. -/
inductive Piece where
  | char (c : Char)
  /-- Half of a surrogate pair. -/
  | half (unit : Nat)

def Piece.ofUnit (n : Nat) : Piece :=
  if 0xD800 ≤ n ∧ n < 0xE000 then .half n else .char (Char.ofNat n)

def joinHalves? (high low : Nat) : Option Char :=
  if high < 0xDC00 ∧ 0xDC00 ≤ low then
    some (Char.ofNat (0x10000 + (high - 0xD800) * 0x400 + (low - 0xDC00)))
  else none

/-- The characters of a string, unless half of a pair stands alone in it. -/
def characters? : List Piece → Option (List Char)
  | [] => some []
  | .char c :: rest => (characters? rest).map (c :: ·)
  | .half high :: .half low :: rest =>
    (joinHalves? high low).bind fun c => (characters? rest).map (c :: ·)
  | .half _ :: _ => none

def escape? : Char → Option Char
  | '"' => some '"'
  | '\\' => some '\\'
  | '/' => some '/'
  | 'b' => some '\x08'
  | 'f' => some '\x0c'
  | 'n' => some '\n'
  | 'r' => some '\r'
  | 't' => some '\t'
  | _ => none

/-- The pieces up to the closing quote, and what follows it; `acc` holds those
already read, last first. -/
def piecesFrom (acc : List Piece) : List Char → Option (List Piece × List Char)
  | [] => none
  | '"' :: rest => some (acc.reverse, rest)
  | '\\' :: 'u' :: a :: b :: c :: d :: rest =>
    (unit? a b c d).bind fun n => piecesFrom (.ofUnit n :: acc) rest
  | '\\' :: c :: rest => (escape? c).bind fun c => piecesFrom (.char c :: acc) rest
  | c :: rest => if c.toNat < 0x20 then none else piecesFrom (.char c :: acc) rest

/-- The text up to the closing quote, if it is one, and what follows the quote. -/
def string? (cs : List Char) : Option (Option String × List Char) :=
  (piecesFrom [] cs).map fun (pieces, rest) => ((characters? pieces).map String.ofList, rest)

-- ---------------------------------------------------------------------------
-- Numbers
-- ---------------------------------------------------------------------------

def isDigit (c : Char) : Bool := '0' ≤ c && c ≤ '9'

/-- The digits at the head, at least one. -/
def digits? (cs : List Char) : Option (List Char × List Char) :=
  let (digits, rest) := (cs.takeWhile isDigit, cs.dropWhile isDigit)
  if digits.isEmpty then none else some (digits, rest)

def value (digits : List Char) : Nat :=
  (Text.digitsFrom 0 digits).getD 0

def whole? (cs : List Char) : Option (List Char × List Char) :=
  (digits? cs).filter fun (digits, _) => digits.length = 1 || digits.head? != some '0'

def fraction? : List Char → Option (List Char × List Char)
  | '.' :: cs => digits? cs
  | cs => some ([], cs)

def exponent? : List Char → Option (Int × List Char)
  | '-' :: cs => (digits? cs).map fun (digits, rest) => (-(value digits : Int), rest)
  | '+' :: cs => (digits? cs).map fun (digits, rest) => ((value digits : Int), rest)
  | cs => (digits? cs).map fun (digits, rest) => ((value digits : Int), rest)

/-- A number after its sign. One with neither fraction nor exponent is an
integer, except for minus zero. -/
def magnitude? (negative : Bool) (cs : List Char) : Option (Number × List Char) := do
  let (whole, cs) ← whole? cs
  let (fraction, cs) ← fraction? cs
  let (marked, exponent, cs) ←
    match cs with
    | 'e' :: cs | 'E' :: cs => (exponent? cs).map fun (e, cs) => (true, e, cs)
    | cs => some (false, 0, cs)
  let mantissa := value (whole ++ fraction)
  if fraction.isEmpty && !marked && !(negative && mantissa == 0) then
    return (.integer (if negative then -mantissa else mantissa), cs)
  else return (.decimal negative mantissa (exponent - fraction.length), cs)

def number? : List Char → Option (Number × List Char)
  | '-' :: cs => magnitude? true cs
  | cs => magnitude? false cs

-- ---------------------------------------------------------------------------
-- Values
-- ---------------------------------------------------------------------------

/-- One more member in front; none if its name is no text. -/
def addMember (name : Option String) (item : Json) (members : Option (List (String × Json))) :
    Option (List (String × Json)) :=
  name.bind fun name => members.map ((name, item) :: ·)

mutual

def value? : Nat → List Char → Option (Json × List Char)
  | 0, _ => none
  | fuel + 1, cs =>
    match skipSpace cs with
    | '"' :: cs => (string? cs).map fun (s, cs) => (s.elim .illFormed .string, cs)
    | '[' :: cs =>
      match skipSpace cs with
      | ']' :: cs => some (.array [], cs)
      | cs => (items? fuel cs).map fun (items, cs) => (.array items, cs)
    | '{' :: cs =>
      match skipSpace cs with
      | '}' :: cs => some (.object [], cs)
      | cs => (members? fuel cs).map fun (members, cs) => (members.elim .illFormed .object, cs)
    | 'n' :: cs => (expect ['u', 'l', 'l'] cs).map (.null, ·)
    | 't' :: cs => (expect ['r', 'u', 'e'] cs).map (.bool true, ·)
    | 'f' :: cs => (expect ['a', 'l', 's', 'e'] cs).map (.bool false, ·)
    | cs => (number? cs).map fun (n, cs) => (.number n, cs)

/-- Items up to the closing bracket; there is at least one. -/
def items? : Nat → List Char → Option (List Json × List Char)
  | 0, _ => none
  | fuel + 1, cs =>
    match value? fuel cs with
    | none => none
    | some (item, cs) =>
      match skipSpace cs with
      | ']' :: cs => some ([item], cs)
      | ',' :: cs => (items? fuel cs).map fun (items, cs) => (item :: items, cs)
      | _ => none

/-- Members up to the closing brace, unless a name is no text; there is at least
one. -/
def members? : Nat → List Char → Option (Option (List (String × Json)) × List Char)
  | 0, _ => none
  | fuel + 1, cs =>
    match skipSpace cs with
    | '"' :: cs =>
      match string? cs with
      | none => none
      | some (name, cs) =>
        match skipSpace cs with
        | ':' :: cs =>
          match value? fuel cs with
          | none => none
          | some (item, cs) =>
            match skipSpace cs with
            | '}' :: cs => some (addMember name item (some []), cs)
            | ',' :: cs =>
              (members? fuel cs).map fun (members, cs) => (addMember name item members, cs)
            | _ => none
        | _ => none
    | _ => none

end

end VisualNovel.Json.Reader

namespace VisualNovel.Json

/-- The value a text holds. Every two levels of the reader consume a character,
which bounds its depth. -/
def ofText? (text : String) : Option Json :=
  match Reader.value? (2 * text.length + 2) text.toList with
  | some (json, rest) => if (Reader.skipSpace rest).isEmpty then some json else none
  | none => none

end VisualNovel.Json
