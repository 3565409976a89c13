import VisualNovel.Proofs.Script.ProgramLaws
import VisualNovel.Proofs.Text.Splitting
import VisualNovel.Proofs.Text.Trimming

/-!
# What is kept of a text

A line of the text is kept unless it is blank or a comment, and what is kept of it can be
read again: the kept lines, written below one another, are the text of the same program,
numbered anew (`Program.parse_keeps`).
-/

namespace VisualNovel

-- ---------------------------------------------------------------------------
-- One line
-- ---------------------------------------------------------------------------

/-- Neither blank nor a comment. -/
structure Kept (cs : List Char) : Prop where
  ne_nil : cs ≠ []
  noComment : ¬ ['-', '-'] <+: cs

namespace Program

theorem isComment_iff : isComment cs = true ↔ ['-', '-'] <+: cs :=
  List.isPrefixOf_iff_prefix

theorem keep?_of_kept (h : Kept (Text.trimList raw.toList)) (number : Nat) :
    keep? number raw = some ⟨number, Text.trim raw⟩ := by
  have hcomment : isComment (Text.trimList raw.toList) = false :=
    Bool.eq_false_iff.mpr fun hdashes => h.noComment (isComment_iff.mp hdashes)
  simp [keep?, hcomment, h.ne_nil, Text.trim]

theorem kept_of_keep? (h : keep? number raw = some line) : Kept (Text.trimList raw.toList) := by
  simp only [keep?, Option.ite_none_left_eq_some, Bool.or_eq_true, not_or,
    List.isEmpty_iff] at h
  exact ⟨h.1.1, fun hdashes => h.1.2 (isComment_iff.mpr hdashes)⟩

-- ---------------------------------------------------------------------------
-- All lines
-- ---------------------------------------------------------------------------

section
variable {text : String}

/-- Where a line comes from. -/
theorem exists_raw (h : line ∈ (parse text).lines) :
    ∃ above raw, (Text.lines text)[above]? = some raw ∧ line = ⟨above + 1, Text.trim raw⟩ ∧
      Kept (Text.trimList raw.toList) := by
  obtain ⟨above, raw, hraw, hkeep⟩ := mem_lines_iff.mp h
  have hkept := kept_of_keep? hkeep
  cases (keep?_of_kept hkept _).symm.trans hkeep
  exact ⟨above, raw, hraw, rfl, hkept⟩

/-- A line that is to be kept is. -/
theorem mem_lines_of_kept (hraw : (Text.lines text)[above]? = some raw)
    (h : Kept (Text.trimList raw.toList)) :
    ⟨above + 1, Text.trim raw⟩ ∈ (parse text).lines :=
  mem_lines_iff.mpr ⟨above, raw, hraw, keep?_of_kept h _⟩

theorem kept_of_mem (h : line ∈ (parse text).lines) :
    Kept line.text.toList ∧ Text.Bare line.text.toList ∧ '\n' ∉ line.text.toList := by
  obtain ⟨above, raw, hraw, rfl, hkept⟩ := exists_raw h
  simp only [Text.trim, String.toList_ofList]
  refine ⟨hkept, Text.bare_trimList _, fun hfeed => ?_⟩
  refine (Text.lined_lines text).not_feed raw.toList ?_ (Text.mem_of_mem_trimList hfeed)
  exact List.mem_map_of_mem (List.mem_of_getElem? hraw)

end

/-- Where a label is found depends on the texts of the lines alone. -/
theorem findLabel_eq_of_texts {program other : Program}
    (h : program.lines.map (·.text) = other.lines.map (·.text)) (name : String) :
    program.findLabel name = other.findLabel name := by
  have htexts (program : Program) : program.findLabel name =
      (program.lines.map (·.text)).findIdx? fun text =>
        (LineForm.classify text).labelName? = some (Text.trim name) := by
    rw [List.findIdx?_map]
    rfl
  rw [htexts, htexts, h]

theorem parse_intercalate {texts : List String}
    (h : ∀ text ∈ texts, Kept text.toList ∧ Text.Bare text.toList ∧ '\n' ∉ text.toList) :
    (parse ("\n".intercalate texts)).lines =
      (texts.zipIdx 1).map fun kept => ⟨kept.2, kept.1⟩ := by
  have hlines : Text.lines ("\n".intercalate texts) = texts := by
    refine Text.lines_intercalate fun text htext => ?_
    obtain ⟨hkept, hbare, hfeed⟩ := h text htext
    refine ⟨hkept.ne_nil, hfeed, fun hreturn => ?_⟩
    exact absurd (hbare.last _ hreturn) (by decide)
  rw [parse, hlines, ← List.filterMap_eq_map]
  refine List.filterMap_congr fun kept hmem => ?_
  obtain ⟨hkept, hbare, -⟩ := h kept.1 (List.fst_mem_of_mem_zipIdx hmem)
  rw [← hbare.trimList_eq] at hkept
  simp [keep?_of_kept hkept, Text.trim, hbare.trimList_eq]

/-- The lines of a program that was read are, trimmed, lines of the text, in its order and
under their numbers there; the lines left out are blank or comments. What is kept, read
again, is kept again, line by line, and each label is where it was. -/
theorem parse_keeps (text : String) :
    let raws := Text.lines text
    let program := parse text
    let again := parse ("\n".intercalate (program.lines.map (·.text)))
    Text.Lined text.toList (raws.map String.toList) ∧
      program.lines.Pairwise (fun line later => line.number < later.number) ∧
      (∀ line ∈ program.lines, Kept line.text.toList ∧
        ∃ above raw, line.number = above + 1 ∧ raws[above]? = some raw ∧
          Text.Trimmed raw.toList line.text.toList) ∧
      (∀ above raw, raws[above]? = some raw →
        (∀ line ∈ program.lines, line.number ≠ above + 1) →
          ∃ cs, Text.Trimmed raw.toList cs ∧ (cs = [] ∨ ['-', '-'] <+: cs)) ∧
      again.lines.map (·.text) = program.lines.map (·.text) ∧
      again.lines.map (·.number) = List.range' 1 program.size ∧
      ∀ name, again.findLabel name = program.findLabel name := by
  intro raws program again
  have hagain : again.lines =
      ((program.lines.map (·.text)).zipIdx 1).map fun kept => ⟨kept.2, kept.1⟩ :=
    parse_intercalate (List.forall_mem_map.mpr fun line hline => kept_of_mem hline)
  have htexts : again.lines.map (·.text) = program.lines.map (·.text) := by
    rw [hagain, List.map_map]
    exact List.zipIdx_map_fst 1 _
  refine ⟨Text.lined_lines text, parse_numbers_sorted text, fun line hline => ?_,
    fun above raw hraw hleft => ?_, htexts, ?_, findLabel_eq_of_texts htexts⟩
  · obtain ⟨above, raw, hraw, rfl, hkept⟩ := exists_raw hline
    have htrimmed := Text.trimmed_trimList raw.toList
    exact ⟨(kept_of_mem hline).1, above, raw, rfl, hraw, by simpa [Text.trim] using htrimmed⟩
  · refine ⟨_, Text.trimmed_trimList raw.toList, or_iff_not_imp_left.mpr fun hne => ?_⟩
    by_contra hdashes
    exact hleft _ (mem_lines_of_kept hraw ⟨hne, hdashes⟩) rfl
  · rw [hagain, List.map_map]
    exact (List.zipIdx_map_snd 1 _).trans (by rw [List.length_map, size])

end Program

end VisualNovel
