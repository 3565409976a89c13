import VisualNovel.Json.Value

/-!
# Writing JSON

Compact, or with two spaces of indentation and a member or item a line. Strings
are escaped only where they have to be, and what is ill-formed becomes null.
-/

namespace VisualNovel

namespace Json.Printer

def hexDigit (n : Nat) : Char :=
  if n < 10 then Char.ofNat (48 + n) else Char.ofNat (87 + n)

def escape (c : Char) : List Char :=
  match c with
  | '"' => ['\\', '"']
  | '\\' => ['\\', '\\']
  | '\n' => ['\\', 'n']
  | '\r' => ['\\', 'r']
  | '\t' => ['\\', 't']
  | '\x08' => ['\\', 'b']
  | '\x0c' => ['\\', 'f']
  | c =>
    if c.toNat < 0x20 then
      ['\\', 'u', '0', '0', hexDigit (c.toNat / 16), hexDigit (c.toNat % 16)]
    else [c]

def quote (s : String) : String :=
  String.ofList ('"' :: s.toList.flatMap escape ++ ['"'])

end Json.Printer

-- ---------------------------------------------------------------------------
-- Numbers
-- ---------------------------------------------------------------------------

/-- Decimals are positional from a millionth up to thirteen places before the
point, and always show one; beyond that the first digit stands before it. -/
def Number.decimalText (mantissa : Nat) (exponent : Int) : String :=
  let digits := toString mantissa
  let length : Int := digits.length
  let places := length + exponent
  let zeros (n : Int) : String := String.ofList (List.replicate n.toNat '0')
  let cut (n : Int) : String × String :=
    (String.ofList (digits.toList.take n.toNat), String.ofList (digits.toList.drop n.toNat))
  if 0 ≤ exponent ∧ places ≤ 13 then digits ++ zeros exponent ++ ".0"
  else if 0 < places ∧ places ≤ 13 then (cut places).1 ++ "." ++ (cut places).2
  else if -6 < places ∧ places ≤ 0 then "0." ++ zeros (-places) ++ digits
  else if length = 1 then digits ++ "e" ++ toString (places - 1)
  else (cut 1).1 ++ "." ++ (cut 1).2 ++ "e" ++ toString (places - 1)

def Number.text : Number → String
  | .integer n => toString n
  | .decimal negative mantissa exponent =>
    (if negative then "-" else "") ++ Number.decimalText mantissa exponent

-- ---------------------------------------------------------------------------
-- Values
-- ---------------------------------------------------------------------------

namespace Json

mutual

def compact : Json → String
  | .null | .illFormed => "null"
  | .bool true => "true"
  | .bool false => "false"
  | .number n => n.text
  | .string s => Printer.quote s
  | .array items => "[" ++ ",".intercalate (compactItems items) ++ "]"
  | .object members => "\x7b" ++ ",".intercalate (compactMembers members) ++ "\x7d"

def compactItems : List Json → List String
  | [] => []
  | item :: items => item.compact :: compactItems items

def compactMembers : List (String × Json) → List String
  | [] => []
  | (name, item) :: members =>
    (Printer.quote name ++ ":" ++ item.compact) :: compactMembers members

end

def newline (depth : Nat) : String :=
  "\n" ++ String.ofList (List.replicate (2 * depth) ' ')

/-- The parts between brackets, each on a line of its own. -/
def block (depth : Nat) (left right : String) (parts : List String) : String :=
  if parts.isEmpty then left ++ right
  else
    left ++ newline (depth + 1) ++ ("," ++ newline (depth + 1)).intercalate parts ++
      newline depth ++ right

mutual

def prettyAt (depth : Nat) : Json → String
  | .null | .illFormed => "null"
  | .bool true => "true"
  | .bool false => "false"
  | .number n => n.text
  | .string s => Printer.quote s
  | .array items => block depth "[" "]" (prettyItems (depth + 1) items)
  | .object members => block depth "\x7b" "\x7d" (prettyMembers (depth + 1) members)

def prettyItems (depth : Nat) : List Json → List String
  | [] => []
  | item :: items => item.prettyAt depth :: prettyItems depth items

def prettyMembers (depth : Nat) : List (String × Json) → List String
  | [] => []
  | (name, item) :: members =>
    (Printer.quote name ++ ": " ++ item.prettyAt depth) :: prettyMembers depth members

end

def pretty (json : Json) : String :=
  json.prettyAt 0

end Json

end VisualNovel
