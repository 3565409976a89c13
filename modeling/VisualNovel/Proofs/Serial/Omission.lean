import VisualNovel.Proofs.Serial.RecordLaws

/-!
# Leaving members out

`Json.without` takes members out of an object and of the objects in it, each named by the path of
names that leads to it. A record that is read with defaults has the default for a field left out,
and for the others what it would have (`Record.withDefault_without`).
-/

namespace VisualNovel

namespace Json

mutual

/-- The value without the members at the paths removed. Items of arrays are left as they are. -/
def without (removed : List String → Bool) : Json → Json
  | .object members => .object (membersWithout removed members)
  | json => json

def membersWithout (removed : List String → Bool) : List (String × Json) → List (String × Json)
  | [] => []
  | (name, item) :: members =>
    if removed [name] then membersWithout removed members
    else (name, item.without fun path => removed (name :: path)) :: membersWithout removed members

end

mutual

theorem without_nothing : ∀ json : Json, json.without (fun _ => false) = json
  | .object members => congrArg object (membersWithout_nothing members)
  | .null | .bool _ | .number _ | .string _ | .array _ | .illFormed => rfl

theorem membersWithout_nothing :
    ∀ members : List (String × Json), membersWithout (fun _ => false) members = members
  | [] => rfl
  | (name, item) :: members => by
    rw [membersWithout, if_neg Bool.false_ne_true, without_nothing item,
      membersWithout_nothing members]

end

theorem lookup_membersWithout (removed : List String → Bool) (name : String)
    (members : List (String × Json)) :
    (membersWithout removed members).lookup name =
      if removed [name] then none
      else (members.lookup name).map (·.without fun path => removed (name :: path)) := by
  induction members with
  | nil => simp [membersWithout]
  | cons member members ih =>
    obtain ⟨key, item⟩ := member
    by_cases hkey : name = key
    · subst hkey
      by_cases hremoved : removed [name] <;> simp [membersWithout, hremoved, ih]
    · by_cases hremoved : removed [key] <;>
        simp [membersWithout, hremoved, ih, List.lookup_cons, beq_false_of_ne hkey]

theorem names_membersWithout_sublist (removed : List String → Bool)
    (members : List (String × Json)) :
    ((membersWithout removed members).map Prod.fst).Sublist (members.map Prod.fst) := by
  induction members with
  | nil => exact .slnil
  | cons member members ih =>
    unfold membersWithout
    split
    · exact ih.cons _
    · exact ih.cons_cons _

end Json

namespace Record

theorem ofJson?_without (h : (members.map Prod.fst).Nodup) (removed : List String → Bool) :
    ofJson? names ((Json.object members).without removed) =
      some ⟨true, Json.membersWithout removed members⟩ :=
  ofJson?_object (h.sublist (Json.names_membersWithout_sublist removed members))

theorem withDefault_without {read? : Json → Option α} {removed : List String → Bool}
    (hlookup : members.lookup name = some json)
    (hread : read? (json.without fun path => removed (name :: path)) = some a) (fallback : α) :
    withDefault ⟨true, Json.membersWithout removed members⟩ name fallback read? =
      some (if removed [name] then fallback else a) := by
  rw [withDefault, Json.lookup_membersWithout, hlookup]
  by_cases hremoved : removed [name]
  · simp only [if_pos hremoved]
  · simp only [if_neg hremoved]
    exact hread

end Record

end VisualNovel
