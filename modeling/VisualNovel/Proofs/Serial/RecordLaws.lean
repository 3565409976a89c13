import VisualNovel.Serial.Script

/-!
# Reading what was written

The fields of a record are found by their names, wherever they stand (`Record.required_cons`,
`Record.optional_cons_ofOption`), and each value is read back from what it is written as. An index
is read back if it is one of 64 bits (`Json.index?_nat`).
-/

namespace VisualNovel

-- ---------------------------------------------------------------------------
-- Values
-- ---------------------------------------------------------------------------

namespace Json

@[simp] theorem string?_string (s : String) : (string s).string? = some s := rfl

@[simp] theorem bool?_bool (b : Bool) : (bool b).bool? = some b := rfl

@[simp] theorem index?_nat (h : n ≤ Text.maxIndex) : (nat n).index? = some n :=
  if_pos h

@[simp] theorem int32?_ofInt32 (n : Int32) : (ofInt32 n).int32? = some n := by
  have hrange : Int32.minValue.toInt ≤ n.toInt ∧ n.toInt ≤ Int32.maxValue.toInt :=
    ⟨n.minValue_le_toInt, n.toInt_le⟩
  exact (if_pos hrange).trans (congrArg some n.ofInt_toInt)

theorem listOf?_ofList {write : α → Json} {read? : Json → Option α}
    (h : ∀ a, read? (write a) = some a) (items : List α) :
    (ofList write items).listOf? read? = some items := by
  change (items.map write).mapM read? = some items
  induction items with
  | nil => rfl
  | cons item items ih => simp [h item, ih]

end Json

-- ---------------------------------------------------------------------------
-- Fields
-- ---------------------------------------------------------------------------

namespace Record

theorem count_eq (name : String) (members : List (String × Json)) :
    count name members = (members.map Prod.fst).count name := by
  rw [count, List.count, List.countP_map]
  rfl

theorem ofObject?_of_nodup (h : (members.map Prod.fst).Nodup) :
    ofObject? names members = some ⟨true, members⟩ := by
  refine if_pos (List.all_eq_true.mpr fun name _ => decide_eq_true ?_)
  rw [count_eq]
  exact List.nodup_iff_count.mp h name

@[simp] theorem ofJson?_object (h : (members.map Prod.fst).Nodup) :
    ofJson? names (.object members) = some ⟨true, members⟩ :=
  ofObject?_of_nodup h

@[simp] theorem required_cons (named : Bool) (key : String) (json : Json)
    (fields : List (String × Json)) (name : String) (read? : Json → Option α) :
    required ⟨named, (key, json) :: fields⟩ name read? =
      if name = key then read? json else required ⟨named, fields⟩ name read? := by
  by_cases h : name = key
  · subst h
    simp [required]
  · simp [required, List.lookup_cons, h, beq_false_of_ne h]

@[simp] theorem optional_cons_of_ne (named : Bool) {key : String} (json : Json)
    (fields : List (String × Json)) {name : String} (h : name ≠ key) (read? : Json → Option α) :
    optional ⟨named, (key, json) :: fields⟩ name read? =
      optional ⟨named, fields⟩ name read? := by
  simp only [optional, List.lookup_cons, beq_false_of_ne h]

theorem optional_cons_of_ne_null (named : Bool) {json : Json} (h : json ≠ .null)
    (fields : List (String × Json)) (name : String) (read? : Json → Option α) :
    optional ⟨named, (name, json) :: fields⟩ name read? = (read? json).map some := by
  rw [optional, List.lookup_cons_self]
  cases json with
  | null => exact absurd rfl h
  | _ => rfl

/-- A value that is there is not written as null, so it is not taken for one that is not. -/
theorem optional_cons_ofOption {write : α → Json} {read? : Json → Option α}
    (hread : ∀ a, read? (write a) = some a) (hne : ∀ a, write a ≠ .null) (named : Bool)
    (value : Option α) (fields : List (String × Json)) (name : String) :
    optional ⟨named, (name, .ofOption write value) :: fields⟩ name read? = some value := by
  cases value with
  | none =>
    rw [optional, List.lookup_cons_self]
    rfl
  | some a => rw [Json.ofOption, optional_cons_of_ne_null named (hne a), hread, Option.map_some]

end Record

-- ---------------------------------------------------------------------------
-- Variants
-- ---------------------------------------------------------------------------

namespace Variant

@[simp] theorem ofJson?_variant (name : String) (fields : List (String × Json)) :
    ofJson? (.variant name fields) = some ⟨name, some (.object fields)⟩ := rfl

@[simp] theorem fields?_object {name : String} (h : (fields.map Prod.fst).Nodup) :
    fields? ⟨name, some (.object fields)⟩ names = some ⟨true, fields⟩ :=
  Record.ofObject?_of_nodup h

end Variant

end VisualNovel
