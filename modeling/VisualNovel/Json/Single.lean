import VisualNovel.Json.Value

/-!
# Single-precision numbers in JSON

A single is written as the shortest decimal that reads back as it, and of
those the nearest to it. A decimal is read as a double first.
-/

namespace VisualNovel.Single

-- ---------------------------------------------------------------------------
-- Shortest decimals
-- ---------------------------------------------------------------------------

/-- A positive single as `4 * m` quarter units of two to the `exponent`, with
the quarter units down to the end of the interval that rounds to it. -/
structure Magnitude where
  quarters : Nat
  below : Nat
  exponent : Int

/-- Splits the bits of a finite single without its sign. -/
def Magnitude.ofBits (bits : Nat) : Magnitude :=
  let field : Nat := bits / Nat.pow 2 23
  let fraction : Nat := bits % Nat.pow 2 23
  if field = 0 then ⟨4 * fraction, 2, -151⟩
  else
    ⟨4 * (Nat.pow 2 23 + fraction), if fraction = 0 ∧ 1 < field then 1 else 2, (field : Int) - 152⟩

/-- `n` units of two to the `e`, as a fraction. -/
def dyadic (n : Nat) (e : Int) : Nat × Nat :=
  match e with
  | .ofNat e => (n * Nat.pow 2 e, 1)
  | .negSucc e => (n, Nat.pow 2 (e + 1))

/-- `n` units of ten to the `e`, as a fraction. -/
def decimal (n : Nat) (e : Int) : Nat × Nat :=
  match e with
  | .ofNat e => (n * Nat.pow 10 e, 1)
  | .negSucc e => (n, Nat.pow 10 (e + 1))

def fractionLt (a b : Nat × Nat) : Bool := a.1 * b.2 < b.1 * a.2

def fractionLe (a b : Nat × Nat) : Bool := a.1 * b.2 ≤ b.1 * a.2

/-- Whether a decimal rounds to the single; the ends of the interval do when
the single's last bit is even. -/
def Magnitude.contains (m : Magnitude) (digits : Nat) (place : Int) : Bool :=
  let low := dyadic (m.quarters - m.below) m.exponent
  let high := dyadic (m.quarters + 2) m.exponent
  let point := decimal digits place
  if m.quarters % 8 = 0 then fractionLe low point && fractionLe point high
  else fractionLt low point && fractionLt point high

/-- The two neighbours of the single on the grid of ten to the `place`. -/
def Magnitude.floor (m : Magnitude) (place : Int) : Nat :=
  let (n, d) := dyadic m.quarters m.exponent
  match place with
  | .ofNat p => n / (d * Nat.pow 10 p)
  | .negSucc p => n * Nat.pow 10 (p + 1) / d

/-- Whether the lower neighbour `digits` is the nearer; a tie goes to the even one. -/
def Magnitude.lowerIsNearer (m : Magnitude) (digits : Nat) (place : Int) : Bool :=
  let twice := dyadic (2 * m.quarters) m.exponent
  let middle := decimal (2 * digits + 1) place
  if fractionLt twice middle then true
  else if fractionLt middle twice then false
  else digits % 2 = 0

def Magnitude.onGrid? (m : Magnitude) (place : Int) : Option Nat :=
  let low := m.floor place
  match m.contains low place, m.contains (low + 1) place with
  | true, true => some (if m.lowerIsNearer low place then low else low + 1)
  | true, false => some low
  | false, true => some (low + 1)
  | false, false => none

/-- Tries ever finer grids. Singles lie between the grids of the forty-sixth
place behind the point and the thirty-ninth before it. -/
def Magnitude.search (m : Magnitude) : Nat → Int → Nat × Int
  | 0, place => (m.floor place, place)
  | fuel + 1, place =>
    match m.onGrid? place with
    | some digits => if digits = 0 then m.search fuel (place - 1) else (digits, place)
    | none => m.search fuel (place - 1)

def stripZeros : Nat → Nat × Int → Nat × Int
  | 0, number => number
  | fuel + 1, (digits, place) =>
    if digits ≠ 0 ∧ digits % 10 = 0 then stripZeros fuel (digits / 10, place + 1)
    else (digits, place)

def toNumber? (x : Float32) : Option Number :=
  let bits := x.toBits.toNat
  let negative := Nat.pow 2 31 ≤ bits
  let magnitude := bits % Nat.pow 2 31
  if 255 * Nat.pow 2 23 ≤ magnitude then none
  else if magnitude = 0 then some (.decimal negative 0 0)
  else
    let (digits, place) := stripZeros 10 ((Magnitude.ofBits magnitude).search 100 39)
    some (.decimal negative digits place)

/-- The bits as eight hexadecimal digits. -/
def hex (x : Float32) : String :=
  let digits := Nat.toDigits 16 x.toBits.toNat
  String.ofList (List.replicate (8 - digits.length) '0' ++ digits)

-- ---------------------------------------------------------------------------
-- Reading
-- ---------------------------------------------------------------------------

/-- A decimal beyond the range of doubles is none. The exponent is looked at
first, so that no power larger than needed is ever formed. -/
def ofDecimal? (negative : Bool) (mantissa : Nat) (exponent : Int) : Option Float32 :=
  let places := (toString mantissa).length + exponent
  let size : Float :=
    if mantissa = 0 ∨ places < -400 then 0
    else if 400 < places then 1 / 0
    else
      match exponent with
      | .ofNat e => Float.ofScientific mantissa false e
      | .negSucc e => Float.ofScientific mantissa true (e + 1)
  if size.isInf then none else some (if negative then -size else size).toFloat32

/-- Integers that fit 64 bits are rounded to a single at once, all other
numbers by way of a double. -/
def ofNumber? : Number → Option Float32
  | .integer (.ofNat n) =>
    if n < UInt64.size then some n.toUInt64.toFloat32 else ofDecimal? false n 0
  | .integer (.negSucc n) =>
    if n < Nat.pow 2 63 then some (-(n + 1).toUInt64.toFloat32) else ofDecimal? true (n + 1) 0
  | .decimal negative mantissa exponent => ofDecimal? negative mantissa exponent

end VisualNovel.Single

namespace VisualNovel.Json

def single? : Json → Option Float32
  | .number n => Single.ofNumber? n
  | _ => none

/-- A single as a number; infinities and NaN have no number and become null. -/
def ofSingle (x : Float32) : Json :=
  match Single.toNumber? x with
  | some n => .number n
  | none => .null

end VisualNovel.Json
