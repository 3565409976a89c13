import Mathlib.Data.List.Basic
import VisualNovel.Text.Lines

/-!
# What the lines of a text are

The rules for lines, apart from how they are read off the characters (`lined_iff`).
Lines that hold no line feed and do not end in a carriage return, written below one
another, are the lines of what is written (`lines_intercalate`).
-/

namespace VisualNovel.Text

/-- The characters are the lines, each but the last with a line feed behind it, or with a
carriage return and a line feed. -/
inductive Lined : List Char → List (List Char) → Prop
  | none : Lined [] []
  | last : line ≠ [] → '\n' ∉ line → Lined line [line]
  | feed : '\n' ∉ line → line.getLast? ≠ some '\r' → Lined rest below →
      Lined (line ++ '\n' :: rest) (line :: below)
  | returnFeed : '\n' ∉ line → Lined rest below →
      Lined (line ++ '\r' :: '\n' :: rest) (line :: below)

-- ---------------------------------------------------------------------------
-- Reading lines
-- ---------------------------------------------------------------------------

theorem linesFrom_of_notMem (h : '\n' ∉ cs) (hne : line.reverse ++ cs ≠ []) :
    linesFrom line cs = [line.reverse ++ cs] := by
  induction cs generalizing line with
  | nil => simpa [linesFrom] using hne
  | cons c cs ih =>
    obtain ⟨hc, hcs⟩ := List.ne_and_not_mem_of_not_mem_cons h
    rw [linesFrom, if_neg hc.symm, ih hcs (by simp), List.reverse_cons, List.append_assoc]
    rfl

theorem linesFrom_feed (h : '\n' ∉ cs) :
    linesFrom line (cs ++ '\n' :: rest) =
      (dropReturn (cs.reverse ++ line)).reverse :: linesFrom [] rest := by
  induction cs generalizing line with
  | nil => rfl
  | cons c cs ih =>
    obtain ⟨hc, hcs⟩ := List.ne_and_not_mem_of_not_mem_cons h
    rw [List.cons_append, linesFrom, if_neg hc.symm, ih hcs, List.reverse_cons,
      List.append_assoc]
    rfl

theorem dropReturn_of_head (h : line.head? ≠ some '\r') : dropReturn line = line := by
  unfold dropReturn
  split
  · simp at h
  · rfl

theorem Lined.linesFrom_eq (h : Lined cs found) : linesFrom [] cs = found := by
  induction h with
  | none => rfl
  | last hne hline => exact linesFrom_of_notMem hline hne
  | feed hline hlast _ ih =>
    rw [linesFrom_feed hline, List.append_nil,
      dropReturn_of_head (by rwa [List.head?_reverse]), List.reverse_reverse, ih]
  | @returnFeed line rest below hline _ ih =>
    have hreturn : '\n' ∉ line ++ ['\r'] := by simpa using hline
    have hread : linesFrom [] (line ++ ['\r'] ++ '\n' :: rest) = _ := linesFrom_feed hreturn
    rw [List.append_assoc, List.append_nil, ih] at hread
    simpa [dropReturn] using hread

theorem exists_lined (cs : List Char) : ∃ found, Lined cs found := by
  by_cases hfeed : '\n' ∈ cs
  · obtain ⟨line, rest, rfl, hline⟩ := List.eq_append_cons_of_mem hfeed
    obtain ⟨below, hbelow⟩ := exists_lined rest
    by_cases hlast : line.getLast? = some '\r'
    · obtain ⟨line, rfl⟩ := List.getLast?_eq_some_iff.mp hlast
      rw [List.append_assoc]
      exact ⟨_, .returnFeed (fun h => hline (List.mem_append_left _ h)) hbelow⟩
    · exact ⟨_, .feed hline hlast hbelow⟩
  · by_cases hne : cs = []
    · exact ⟨[], hne ▸ .none⟩
    · exact ⟨[cs], .last hne hfeed⟩
termination_by cs.length

theorem lined_iff : Lined cs found ↔ linesFrom [] cs = found := by
  refine ⟨Lined.linesFrom_eq, ?_⟩
  rintro rfl
  obtain ⟨found, hfound⟩ := exists_lined cs
  exact hfound.linesFrom_eq ▸ hfound

theorem lined_lines (s : String) : Lined s.toList ((lines s).map String.toList) := by
  rw [lined_iff, lines, List.map_map]
  simp [Function.comp_def]

theorem Lined.not_feed (h : Lined cs found) : ∀ line ∈ found, '\n' ∉ line := by
  induction h with
  | none => simp
  | last _ hline => simpa using hline
  | feed hline _ _ ih | returnFeed hline _ ih => exact List.forall_mem_cons.mpr ⟨hline, ih⟩

-- ---------------------------------------------------------------------------
-- Writing lines
-- ---------------------------------------------------------------------------

theorem lined_intercalate {written : List (List Char)}
    (h : ∀ line ∈ written, line ≠ [] ∧ '\n' ∉ line ∧ line.getLast? ≠ some '\r') :
    Lined (['\n'].intercalate written) written := by
  induction written with
  | nil => exact .none
  | cons line below ih =>
    obtain ⟨⟨hne, hfeed, hreturn⟩, hbelow⟩ := List.forall_mem_cons.mp h
    cases below with
    | nil =>
      rw [List.intercalate_singleton]
      exact .last hne hfeed
    | cons next below =>
      rw [List.intercalate_cons_cons, List.append_assoc]
      exact .feed hfeed hreturn (ih hbelow)

theorem lines_intercalate {written : List String}
    (h : ∀ line ∈ written,
      line.toList ≠ [] ∧ '\n' ∉ line.toList ∧ line.toList.getLast? ≠ some '\r') :
    lines ("\n".intercalate written) = written := by
  have hlined : Lined ("\n".intercalate written).toList (written.map String.toList) := by
    rw [String.toList_intercalate]
    exact lined_intercalate (by simpa using h)
  rw [lines, hlined.linesFrom_eq, List.map_map]
  simp [Function.comp_def]

end VisualNovel.Text
