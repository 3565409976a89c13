import VisualNovel.Json.Value

/-!
# Records and variants in JSON

A record is an object, or an array of its fields in order. Members that name no
field are ignored, and a field given twice is refused. A variant without fields
is its name; one with fields is an object with its name as the only member.
-/

namespace VisualNovel

/-- The fields a record gives, by name. -/
structure Record where
  /-- Whether it was an object. -/
  named : Bool
  fields : List (String × Json)

namespace Record

def count (name : String) (members : List (String × Json)) : Nat :=
  members.countP (·.1 = name)

def ofObject? (names : List String) (members : List (String × Json)) : Option Record :=
  if names.all fun name => count name members ≤ 1 then some ⟨true, members⟩ else none

def ofJson? (names : List String) : Json → Option Record
  | .object members => ofObject? names members
  | .array items => if items.length ≤ names.length then some ⟨false, names.zip items⟩ else none
  | _ => none

/-- A field that has to be given. -/
def required (record : Record) (name : String) (read? : Json → Option α) : Option α :=
  (record.fields.lookup name).bind read?

/-- A field that reads as `fallback` when it is left out. -/
def withDefault (record : Record) (name : String) (fallback : α) (read? : Json → Option α) :
    Option α :=
  match record.fields.lookup name with
  | none => some fallback
  | some json => read? json

/-- A field that may be null. Only an object may leave it out. -/
def optional (record : Record) (name : String) (read? : Json → Option α) :
    Option (Option α) :=
  match record.fields.lookup name with
  | none => if record.named then some none else none
  | some .null => some none
  | some json => (read? json).map some

end Record

/-- The name of a variant and what stands behind it. -/
structure Variant where
  name : String
  payload : Option Json

namespace Variant

def ofJson? : Json → Option Variant
  | .string name => some ⟨name, none⟩
  | .object [(name, payload)] => some ⟨name, some payload⟩
  | _ => none

/-- A variant without fields; null may stand behind its name. -/
def unit? (variant : Variant) (value : α) : Option α :=
  match variant.payload with
  | none | some .null => some value
  | _ => none

def newtype? (variant : Variant) (read? : Json → Option α) : Option α :=
  variant.payload.bind read?

/-- A variant with fields takes them as an object only. -/
def fields? (variant : Variant) (names : List String) : Option Record :=
  match variant.payload with
  | some (.object members) => Record.ofObject? names members
  | _ => none

end Variant

namespace Json

def variant (name : String) (fields : List (String × Json)) : Json :=
  .object [(name, .object fields)]

def ofOption (write : α → Json) : Option α → Json
  | none => .null
  | some a => write a

def ofList (write : α → Json) (items : List α) : Json :=
  .array (items.map write)

end Json

end VisualNovel
