import VisualNovel.Proofs.Script.ProgramLaws
import VisualNovel.Proofs.Text.Trimming

/-!
# The first definition of a label

A label is looked up where it is first defined (`findLabel_eq_some_iff`). Whoever goes
over the lines once, and notes every label that was not met before, comes to know the same
(`Knows.note`): the index of all labels does (`findLabel_eq_lookup`), and the analysis.
-/

namespace VisualNovel

theorem LineForm.labelName?_eq_some {form : LineForm} :
    form.labelName? = some name ↔ form = .label name := by
  cases form <;> simp [labelName?]

namespace Program

-- ---------------------------------------------------------------------------
-- Definitions of a label
-- ---------------------------------------------------------------------------

/-- The line at the index is a label of that name. -/
def Defines (program : Program) (index : Nat) (name : String) : Prop :=
  program.form? index = some (.label name)

/-- No line before it is. -/
structure FirstDefines (program : Program) (index : Nat) (name : String) : Prop where
  defines : program.Defines index name
  isFirst : ∀ earlier < index, ¬ program.Defines earlier name

section
variable {program : Program}

theorem defines_iff : program.Defines index name ↔
    ∃ line, program.lines[index]? = some line ∧ line.form.labelName? = some name := by
  simp only [Defines, form?, Option.map_eq_some_iff, LineForm.labelName?_eq_some]

theorem Defines.lt_size (h : program.Defines index name) : index < program.size := by
  obtain ⟨line, hline, -⟩ := defines_iff.mp h
  exact (List.getElem?_eq_some_iff.mp hline).1

theorem Defines.name_eq (h : program.Defines index name) (h' : program.Defines index other) :
    name = other := by
  cases h.symm.trans h'
  rfl

/-- A label's name is trimmed when its line is read. -/
theorem Defines.trim_eq (h : program.Defines index name) : Text.trim name = name := by
  obtain ⟨line, -, hname⟩ := defines_iff.mp h
  rw [LineForm.labelName?_eq_some, ScriptLine.form, LineForm.classify] at hname
  split at hname <;> cases hname
  rw [Text.trim, String.toList_ofList, Text.trimList_trimList]

theorem FirstDefines.unique (h : program.FirstDefines index name)
    (h' : program.FirstDefines other name) : index = other := by
  rcases Nat.lt_trichotomy index other with hlt | heq | hgt
  · exact absurd h.defines (h'.isFirst index hlt)
  · exact heq
  · exact absurd h'.defines (h.isFirst other hgt)

theorem mem_definedLabels :
    name ∈ program.definedLabels ↔ ∃ index, program.Defines index name := by
  rw [definedLabels, List.mem_filterMap]
  constructor
  · rintro ⟨line, hline, hname⟩
    obtain ⟨index, hindex⟩ := List.mem_iff_getElem?.mp hline
    exact ⟨index, defines_iff.mpr ⟨line, hindex, hname⟩⟩
  · rintro ⟨index, hdef⟩
    obtain ⟨line, hline, hname⟩ := defines_iff.mp hdef
    exact ⟨line, List.mem_of_getElem? hline, hname⟩

-- ---------------------------------------------------------------------------
-- Looking a label up
-- ---------------------------------------------------------------------------

theorem findLabel_eq_some_iff :
    program.findLabel name = some index ↔ program.FirstDefines index (Text.trim name) := by
  have hdefines (i : Nat) (hi : i < program.lines.length) :
      decide (program.lines[i].form.labelName? = some (Text.trim name)) = true ↔
        program.Defines i (Text.trim name) := by
    simp [defines_iff, List.getElem?_eq_getElem hi]
  rw [findLabel, List.findIdx?_eq_some_iff_getElem]
  constructor
  · rintro ⟨hlt, hlabel, hbefore⟩
    refine ⟨(hdefines index hlt).mp hlabel, fun earlier hearlier hdef => ?_⟩
    exact hbefore earlier hearlier ((hdefines earlier hdef.lt_size).mpr hdef)
  · intro h
    refine ⟨h.defines.lt_size, (hdefines _ _).mpr h.defines, fun earlier hearlier hlabel => ?_⟩
    exact h.isFirst earlier hearlier ((hdefines _ _).mp hlabel)

theorem findLabel_eq_none_iff :
    program.findLabel name = none ↔ ∀ index, ¬ program.Defines index (Text.trim name) := by
  simp only [findLabel, List.findIdx?_eq_none_iff, decide_eq_false_iff_not, defines_iff,
    List.mem_iff_getElem?]
  exact ⟨fun h index ⟨line, hline, hname⟩ => h line ⟨index, hline⟩ hname,
    fun h line ⟨index, hline⟩ hname => h index ⟨line, hline, hname⟩⟩

theorem Defines.exists_first (h : program.Defines index name) :
    ∃ first, program.FirstDefines first name := by
  cases hfound : program.findLabel name with
  | none =>
    have hundefined := findLabel_eq_none_iff.mp hfound index
    exact absurd h (h.trim_eq ▸ hundefined)
  | some first =>
    have hfirst := findLabel_eq_some_iff.mp hfound
    exact ⟨first, h.trim_eq ▸ hfirst⟩

theorem FirstDefines.findLabel_eq (h : program.FirstDefines index name) :
    program.findLabel name = some index :=
  findLabel_eq_some_iff.mpr (h.defines.trim_eq.symm ▸ h)

end

-- ---------------------------------------------------------------------------
-- Labels met line by line
-- ---------------------------------------------------------------------------

/-- Notes a value under a label's name, unless there is one already; of a line that is no
label nothing is noted. -/
def note (labels : List (String × Nat)) (line : ScriptLine) (value : Nat) : List (String × Nat) :=
  match line.form.labelName? with
  | some name => if (labels.lookup name).isSome then labels else (name, value) :: labels
  | none => labels

/-- The labels with the indices of their first definitions. -/
def labelIndex (program : Program) : List (String × Nat) :=
  program.lines.zipIdx.foldl (fun labels (line, index) => note labels line index) []

/-- What is noted are the labels defined before the line at the index, each with the value
of its first definition. -/
def Knows (program : Program) (value : Nat → Nat) (index : Nat)
    (labels : List (String × Nat)) : Prop :=
  ∀ name found, labels.lookup name = some found ↔
    ∃ first < index, program.FirstDefines first name ∧ found = value first

namespace Knows

variable {program : Program} {value : Nat → Nat}

theorem nothing (program : Program) (value : Nat → Nat) : Knows program value 0 [] :=
  fun name found => by simp

/-- Only a definition that is the first one is news. -/
theorem next (h : Knows program value index labels)
    (hnews : ∀ name found, after.lookup name = some found ↔ labels.lookup name = some found ∨
      program.FirstDefines index name ∧ found = value index) :
    Knows program value (index + 1) after := by
  intro name found
  rw [hnews, h name found]
  constructor
  · rintro (⟨first, hlt, hfirst⟩ | hfirst)
    · exact ⟨first, Nat.lt_succ_of_lt hlt, hfirst⟩
    · exact ⟨index, Nat.lt_succ_self index, hfirst⟩
  · rintro ⟨first, hlt, hfirst⟩
    rcases Nat.lt_succ_iff_lt_or_eq.mp hlt with hlt | rfl
    · exact .inl ⟨first, hlt, hfirst⟩
    · exact .inr hfirst

theorem firstDefines_of_new (h : Knows program value index labels)
    (hdef : program.Defines index name) (hnew : labels.lookup name = none) :
    program.FirstDefines index name := by
  obtain ⟨first, hfirst⟩ := hdef.exists_first
  rcases Nat.lt_trichotomy first index with hlt | rfl | hgt
  · cases hnew.symm.trans ((h name _).mpr ⟨first, hlt, hfirst, rfl⟩)
  · exact hfirst
  · exact absurd hdef (hfirst.isFirst index hgt)

theorem note (h : Knows program value index labels)
    (hline : program.lines[index]? = some line) :
    Knows program value (index + 1) (note labels line (value index)) := by
  cases hname : line.form.labelName? with
  | none =>
    simp only [Program.note, hname]
    refine h.next fun name found => ⟨.inl, ?_⟩
    rintro (hfound | ⟨hfirst, -⟩)
    · exact hfound
    · obtain ⟨other, hother, hlabel⟩ := defines_iff.mp hfirst.defines
      cases hother.symm.trans hline
      cases hname.symm.trans hlabel
  | some label =>
    have hdef : program.Defines index label := defines_iff.mpr ⟨line, hline, hname⟩
    cases hmet : labels.lookup label with
    | some known =>
      obtain ⟨first, hlt, hfirst, -⟩ := (h label known).mp hmet
      simp only [Program.note, hname, hmet, Option.isSome_some, if_true]
      refine h.next fun name found => ⟨.inl, ?_⟩
      rintro (hfound | ⟨hagain, -⟩)
      · exact hfound
      · rw [hdef.name_eq hagain.defines] at hfirst
        exact absurd hfirst.defines (hagain.isFirst first hlt)
    | none =>
      have hfirst := h.firstDefines_of_new hdef hmet
      simp only [Program.note, hname, hmet, Option.isSome_none, Bool.false_eq_true, if_false]
      refine h.next fun name found => ?_
      by_cases hsame : name = label
      · subst hsame
        simp [hmet, hfirst, eq_comm]
      · have hother : ¬ program.FirstDefines index name :=
          fun hname => hsame (hname.defines.name_eq hdef)
        simp [List.lookup_cons, beq_false_of_ne hsame, hother]

/-- Having gone over all lines, one knows where every label is. -/
theorem lookup_eq (h : Knows program value program.size labels) (name : String) :
    labels.lookup (Text.trim name) = (program.findLabel name).map value := by
  refine Option.ext fun found => ?_
  rw [h, Option.map_eq_some_iff]
  constructor
  · rintro ⟨first, -, hfirst, rfl⟩
    exact ⟨first, findLabel_eq_some_iff.mpr hfirst, rfl⟩
  · rintro ⟨first, hfirst, rfl⟩
    have hfirst := findLabel_eq_some_iff.mp hfirst
    exact ⟨first, hfirst.defines.lt_size, hfirst, rfl⟩

end Knows

theorem knows_labelIndex (program : Program) :
    Knows program id program.size program.labelIndex := by
  refine @lines_induction program
    (fun index rest => ∀ labels, Knows program id index labels →
      Knows program id program.size ((rest.zipIdx index).foldl
        (fun labels (line, index) => Program.note labels line index) labels))
    (fun _ h => h) ?line 0 (Nat.zero_le _) [] (.nothing program id)
  case line =>
    intro index line rest hline _ ih labels h
    have hnext : Knows program id (index + 1) (Program.note labels line index) := h.note hline
    exact ih _ hnext

theorem findLabel_eq_lookup (program : Program) (name : String) :
    program.findLabel name = program.labelIndex.lookup (Text.trim name) := by
  rw [(knows_labelIndex program).lookup_eq, Option.map_id_fun, id]

end Program

end VisualNovel
