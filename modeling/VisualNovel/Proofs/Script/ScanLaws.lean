import VisualNovel.Proofs.Script.MarkerLaws

/-!
# Where a scan stops

Either way of scanning ends inside the program, and there on a marker it was
looking for, or at the end of the program (`BranchScan.find_stops`).
-/

namespace VisualNovel

namespace BranchScan

-- ---------------------------------------------------------------------------
-- One line at a time
-- ---------------------------------------------------------------------------

theorem nestedDistance_cons_plain (h : Marker.ofLine? line = none) :
    nestedDistance sought depth (line :: rest) = nestedDistance sought depth rest + 1 := by
  simp [nestedDistance, h]

/-- An opening marker is never sought: a block opened is passed over whole. -/
theorem nestedDistance_cons_if (h : Marker.ofLine? line = some .ifHolds) :
    nestedDistance sought depth (line :: rest) = nestedDistance sought (depth + 1) rest + 1 := by
  simp [nestedDistance, h]

theorem nestedDistance_cons_inner (h : Marker.ofLine? line = some marker)
    (hif : marker ≠ .ifHolds) (hend : marker ≠ .endIf) :
    nestedDistance sought (depth + 1) (line :: rest) =
      nestedDistance sought (depth + 1) rest + 1 := by
  cases marker <;> simp_all [nestedDistance]

theorem nestedDistance_cons_endIf (h : Marker.ofLine? line = some .endIf) :
    nestedDistance sought (depth + 1) (line :: rest) = nestedDistance sought depth rest + 1 := by
  simp [nestedDistance, h]

theorem nestedDistance_cons_sought (h : Marker.ofLine? line = some marker)
    (hif : marker ≠ .ifHolds) (hs : sought marker = true) :
    nestedDistance sought 0 (line :: rest) = 0 := by
  simp [nestedDistance, h, hif, hs]

theorem nestedDistance_cons_passed (h : Marker.ofLine? line = some marker)
    (hif : marker ≠ .ifHolds) (hs : sought marker = false) :
    nestedDistance sought 0 (line :: rest) = nestedDistance sought 0 rest + 1 := by
  cases marker <;> simp_all [nestedDistance]

theorem linearDistance_cons_sought (h : Marker.ofLine? line = some marker)
    (hs : sought marker = true) : linearDistance sought (line :: rest) = 0 := by
  simp [linearDistance, h, hs]

theorem linearDistance_cons_passed
    (h : ∀ marker, Marker.ofLine? line = some marker → sought marker = false) :
    linearDistance sought (line :: rest) = linearDistance sought rest + 1 := by
  cases hm : Marker.ofLine? line with
  | none => simp [linearDistance, hm]
  | some marker => simp [linearDistance, hm, h marker hm]

-- ---------------------------------------------------------------------------
-- Where it stops
-- ---------------------------------------------------------------------------

/-- After passing over `count` of the lines a scan is on a marker it seeks, or
behind the last line. -/
def Stops (sought : Marker → Bool) (lines : List ScriptLine) (count : Nat) : Prop :=
  count = lines.length ∨
    ∃ line marker, lines[count]? = some line ∧ Marker.ofLine? line = some marker ∧
      sought marker = true

theorem Stops.cons (h : Stops sought lines count) : Stops sought (line :: lines) (count + 1) := by
  rcases h with h | h
  · exact .inl (by simp [h])
  · exact .inr (by simpa using h)

theorem Stops.le (h : Stops sought lines count) : count ≤ lines.length := by
  rcases h with rfl | ⟨line, _, h, -⟩
  · exact Nat.le_refl _
  · exact Nat.le_of_lt (List.getElem?_eq_some_iff.mp h).1

theorem nestedDistance_stops (sought : Marker → Bool) (depth : Nat) (lines : List ScriptLine) :
    Stops sought lines (nestedDistance sought depth lines) := by
  induction lines generalizing depth with
  | nil => exact .inl rfl
  | cons line rest ih =>
    unfold nestedDistance
    split
    · exact (ih depth).cons
    · rename_i marker hm
      split
      · rename_i h
        exact .inr ⟨line, marker, rfl, hm, h.2.2⟩
      · exact (ih _).cons

theorem linearDistance_stops (sought : Marker → Bool) (lines : List ScriptLine) :
    Stops sought lines (linearDistance sought lines) := by
  induction lines with
  | nil => exact .inl rfl
  | cons line rest ih =>
    unfold linearDistance
    split
    · rename_i h
      cases hm : Marker.ofLine? line with
      | none => simp [hm] at h
      | some marker => exact .inr ⟨line, marker, rfl, hm, by simpa [hm] using h⟩
    · exact ih.cons

theorem distance_stops (scan : BranchScan) (sought : Marker → Bool) (lines : List ScriptLine) :
    Stops sought lines (scan.distance sought lines) := by
  cases scan with
  | nested => exact nestedDistance_stops sought 0 lines
  | linear => exact linearDistance_stops sought lines

theorem find_stops (scan : BranchScan) (sought : Marker → Bool) (program : Program)
    (start : Nat) : Stops sought program.lines (scan.find sought program start) := by
  unfold find
  split
  · rename_i hle
    rcases scan.distance_stops sought (program.lines.drop start) with h | ⟨line, marker, h, hm⟩
    · left
      rw [h, List.length_drop]
      exact Nat.add_sub_cancel' hle
    · exact .inr ⟨line, marker, by rwa [List.getElem?_drop] at h, hm⟩
  · exact .inl rfl

theorem find_le (scan : BranchScan) (sought : Marker → Bool) (program : Program)
    (start : Nat) : scan.find sought program start ≤ program.size :=
  (scan.find_stops sought program start).le

theorem le_find (scan : BranchScan) (sought : Marker → Bool) (h : start ≤ Program.size program) :
    start ≤ scan.find sought program start := by
  rw [find, if_pos h]
  exact Nat.le_add_right ..

end BranchScan

end VisualNovel
