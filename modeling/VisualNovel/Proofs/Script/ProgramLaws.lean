import Mathlib.Data.List.Basic
import VisualNovel.Script.Program

/-!
# Lines of a program

The lines of a program that was read keep the order of the text, so a line's
number tells which line it is (`Program.parse_lineNumber_injective`), and where it
stands in the text (`Program.parse_line`). What goes over the lines one by one is
followed by `Program.lines_induction`.
-/

namespace VisualNovel

namespace Program

-- ---------------------------------------------------------------------------
-- Line by line
-- ---------------------------------------------------------------------------

section
variable {program : Program}

theorem lineNumber_of_line (h : program.lines[index]? = some line) :
    program.lineNumber index = line.number := by
  rw [lineNumber, sourceLine?, h, Option.map_some, Option.getD_some]

theorem form?_of_line (h : program.lines[index]? = some line) :
    program.form? index = some line.form := by
  rw [form?, h, Option.map_some]

theorem line_of_drop (h : program.lines.drop index = line :: rest) :
    program.lines[index]? = some line ∧ program.lines.drop (index + 1) = rest := by
  constructor
  · rw [← List.head?_drop, h, List.head?_cons]
  · rw [← List.tail_drop, h, List.tail_cons]

/-- On the lines from one index on: at the end there are none, and before it there is the
line at the index and those behind. -/
theorem lines_induction {motive : Nat → List ScriptLine → Prop}
    (ends : motive program.size [])
    (line : ∀ index line rest, program.lines[index]? = some line → index < program.size →
      motive (index + 1) rest → motive index (line :: rest))
    (index : Nat) (hle : index ≤ program.size) : motive index (program.lines.drop index) := by
  generalize hrest : program.lines.drop index = rest
  induction rest generalizing index with
  | nil =>
    have hend : index = program.size := Nat.le_antisymm hle (List.drop_eq_nil_iff.mp hrest)
    exact hend ▸ ends
  | cons first rest ih =>
    obtain ⟨hfirst, htail⟩ := line_of_drop hrest
    have hlt : index < program.size := (List.getElem?_eq_some_iff.mp hfirst).1
    exact line index first rest hfirst hlt (ih (index + 1) hlt htail)

end

-- ---------------------------------------------------------------------------
-- Lines read
-- ---------------------------------------------------------------------------

theorem keep?_eq_some (h : keep? number raw = some line) :
    line.number = number ∧ line.text = Text.trim raw := by
  simp only [keep?] at h
  split at h <;> cases h
  exact ⟨rfl, rfl⟩

/-- The lines of a text that was read are numbered upwards. -/
theorem parse_numbers_sorted (text : String) :
    (parse text).lines.Pairwise fun line later => line.number < later.number := by
  have hzip : ((Text.lines text).zipIdx 1).Pairwise fun a b => a.2 < b.2 := by
    refine List.pairwise_map.mp ?_
    rw [List.zipIdx_map_snd]
    exact List.pairwise_lt_range'
  refine List.pairwise_filterMap.mpr (hzip.imp fun {a b} hlt line hline later hlater => ?_)
  rwa [(keep?_eq_some hline).1, (keep?_eq_some hlater).1]

/-- The lines of the program are what is kept of the lines of the text. -/
theorem mem_lines_iff {text : String} : line ∈ (parse text).lines ↔
    ∃ above raw, (Text.lines text)[above]? = some raw ∧ keep? (above + 1) raw = some line := by
  simp only [parse, List.mem_filterMap, Prod.exists, List.mk_mem_zipIdx_iff_le_and_getElem?_sub]
  constructor
  · rintro ⟨raw, number, ⟨hle, hraw⟩, hkeep⟩
    exact ⟨number - 1, raw, hraw, by rwa [Nat.sub_add_cancel hle]⟩
  · rintro ⟨above, raw, hraw, hkeep⟩
    exact ⟨raw, above + 1, ⟨Nat.le_add_left .., hraw⟩, hkeep⟩

/-- A line of the program is, trimmed, the line of the text that its number names. -/
theorem parse_line {text : String} {index : Nat} {line : ScriptLine}
    (h : (parse text).lines[index]? = some line) :
    ∃ above raw, line.number = above + 1 ∧ (Text.lines text)[above]? = some raw ∧
      line.text = Text.trim raw := by
  obtain ⟨above, raw, hraw, hkeep⟩ := mem_lines_iff.mp (List.mem_of_getElem? h)
  obtain ⟨hnumber, htext⟩ := keep?_eq_some hkeep
  exact ⟨above, raw, hnumber, hraw, htext⟩

theorem parse_lineNumber_injective {text : String} (hi : i < (parse text).size)
    (hj : j < (parse text).size) (h : (parse text).lineNumber i = (parse text).lineNumber j) :
    i = j := by
  have hs := List.pairwise_iff_getElem.mp (parse_numbers_sorted text)
  simp only [lineNumber, sourceLine?, List.getElem?_eq_getElem hi, List.getElem?_eq_getElem hj,
    Option.map_some, Option.getD_some] at h
  rcases Nat.lt_trichotomy i j with hlt | heq | hlt
  · exact absurd h (Nat.ne_of_lt (hs i j hi hj hlt))
  · exact heq
  · exact absurd h.symm (Nat.ne_of_lt (hs j i hj hi hlt))

end Program

end VisualNovel
