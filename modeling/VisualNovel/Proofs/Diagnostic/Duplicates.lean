import Mathlib.Data.List.Basic
import VisualNovel.Diagnostic.Analysis
import VisualNovel.Proofs.Script.Labels

/-!
# Labels reported as defined twice

The analysis warns of exactly the lines that define a label an earlier line defines, each
once and in order, and says where the label is looked up (`duplicates_analyze`).
-/

namespace VisualNovel

/-- A warning of a label that is defined again. -/
def Diagnostic.saysDuplicate (d : Diagnostic) : Bool :=
  d.severity = .warn && "重复的标签: ".toList.isPrefixOf d.message.toList

def Report.duplicates (report : Report) : Report :=
  report.filter Diagnostic.saysDuplicate

/-- What is to be said of a line that defines a label again. -/
def Program.duplicate? (program : Program) (script : String) (index : Nat) : Option Diagnostic :=
  match program.form? index with
  | some (.label name) =>
    match program.findLabel name with
    | some first =>
      if first = index then none
      else some {
        severity := .warn
        script
        line := some (program.lineNumber index)
        message := s!"重复的标签: {name}（首次定义于第 {program.lineNumber first} 行）" }
    | none => none
  | _ => none

open Report

-- ---------------------------------------------------------------------------
-- What else is reported
-- ---------------------------------------------------------------------------

theorem duplicates_append (report more : Report) :
    duplicates (report ++ more) = duplicates report ++ duplicates more :=
  List.filter_append ..

theorem duplicates_of_errors {report : Report} (h : ∀ d ∈ report, d.severity = .error) :
    duplicates report = [] := by
  refine List.filter_eq_nil_iff.mpr fun d hd => ?_
  simp [Diagnostic.saysDuplicate, h d hd]

/-- No other message begins like one about a label. -/
theorem not_saysDuplicate {d : Diagnostic} (h : d.message.toList.head? = some c) (hc : c ≠ '重') :
    d.saysDuplicate = false := by
  simp only [Diagnostic.saysDuplicate, Bool.and_eq_false_iff]
  refine .inr (Bool.eq_false_iff.mpr fun hsays => hc ?_)
  obtain ⟨rest, hrest⟩ := List.isPrefixOf_iff_prefix.mp hsays
  rw [← hrest] at h
  exact (Option.some.inj h).symm

theorem head_append {text more : String} (h : text.toList.head? = some c) :
    (text ++ more).toList.head? = some c := by
  rw [String.toList_append, List.head?_append, h, Option.some_or]

theorem ScriptError.exists_head (error : ScriptError) :
    ∃ c, error.message.toList.head? = some c ∧ c ≠ '重' := by
  cases error with
  | emptyCommand => exact ⟨'空', by decide, by decide⟩
  | missingArgument command param =>
    exact ⟨'指', head_append (head_append (head_append (head_append rfl))), by decide⟩
  | invalidLayer command value =>
    exact ⟨'指', head_append (head_append (head_append (head_append rfl))), by decide⟩
  | malformedChoice group message =>
    exact ⟨'选', head_append (head_append (head_append rfl)), by decide⟩
  | invalidInteger param value =>
    exact ⟨'参', head_append (head_append (head_append (head_append rfl))), by decide⟩
  | incompleteCondition condition => exact ⟨'条', head_append (head_append rfl), by decide⟩
  | unknownConditionSubject subject => exact ⟨'不', head_append (head_append rfl), by decide⟩
  | unknownOperator operator => exact ⟨'未', head_append (head_append rfl), by decide⟩

namespace Analysis

theorem duplicates_undefinedTargets (subject : Subject) (line : Nat) (command : Command) :
    duplicates (undefinedTargets subject line command) = [] := by
  refine duplicates_of_errors fun d hd => ?_
  obtain ⟨label, -, rfl⟩ := List.mem_map.mp hd
  rfl

theorem duplicates_checkMarker (subject : Subject) (line : Nat) (openBlocks : List Nat)
    (command : Command) : duplicates (checkMarker subject line openBlocks command).2 = [] := by
  cases command with
  | unknown name =>
    let found := subject.at line .warn s!"未知指令: {name}"
    have hfound : found.saysDuplicate = false :=
      not_saysDuplicate (head_append rfl) (by decide : '未' ≠ '重')
    exact List.filter_cons_of_neg (Bool.eq_false_iff.mp hfound)
  | _ => cases openBlocks <;> rfl

theorem duplicates_faults (subject : Subject) (line : ScriptLine) (errors : List ScriptError) :
    duplicates (errors.map fun e => subject.at line.number .warn e.message (some line.text)) =
      [] := by
  refine List.filter_eq_nil_iff.mpr fun d hd => ?_
  obtain ⟨error, -, rfl⟩ := List.mem_map.mp hd
  obtain ⟨c, hhead, hc⟩ := error.exists_head
  exact Bool.eq_false_iff.mp (not_saysDuplicate hhead hc)

-- ---------------------------------------------------------------------------
-- The pass over the lines
-- ---------------------------------------------------------------------------

theorem labels_checkLine (subject : Subject) (state : State) (line : ScriptLine) :
    (checkLine subject state line).1.labels = Program.note state.labels line line.number := by
  cases hf : line.form with
  | label name =>
    simp only [checkLine, hf, Program.note, LineForm.labelName?]
    cases state.labels.lookup name <;> rfl
  | command body | dialogue text => simp only [checkLine, hf, Program.note, LineForm.labelName?]

section
variable {program : Program}

theorem duplicates_checkLine (script : String)
    (hknows : program.Knows program.lineNumber index state.labels)
    (hline : program.lines[index]? = some line) :
    duplicates (checkLine { script, program } state line).2 =
      (program.duplicate? script index).toList := by
  have hform := Program.form?_of_line hline
  have hnumber := Program.lineNumber_of_line hline
  cases hf : line.form with
  | dialogue text => simp only [checkLine, hf, Program.duplicate?, hform]; rfl
  | command body =>
    simp only [checkLine, hf, Program.duplicate?, hform, duplicates_append,
      duplicates_undefinedTargets, duplicates_checkMarker, duplicates_faults]
    rfl
  | label name =>
    have hdef : program.Defines index name := hform.trans (congrArg some hf)
    simp only [checkLine, hf, Program.duplicate?, hform]
    cases hmet : state.labels.lookup name with
    | none =>
      have hfirst := hknows.firstDefines_of_new hdef hmet
      simp [hfirst.findLabel_eq, duplicates]
    | some number =>
      obtain ⟨first, hlt, hfirst, rfl⟩ := (hknows name number).mp hmet
      simp only [hfirst.findLabel_eq, Nat.ne_of_lt hlt, if_false, Option.toList_some, hnumber]
      refine List.filter_eq_self.mpr fun d hd => ?_
      rw [List.mem_singleton.mp hd]
      simp [Diagnostic.saysDuplicate, Subject.at, toString]

theorem duplicates_checkLines (program : Program) (script : String) :
    duplicates (checkLines { script, program } {} program.lines).2 =
      (List.range program.size).filterMap (program.duplicate? script) := by
  rw [List.range_eq_range']
  -- From any line on, if the labels defined before it are noted with their numbers.
  refine @Program.lines_induction program
    (fun index rest => ∀ state : State, program.Knows program.lineNumber index state.labels →
      duplicates (checkLines { script, program } state rest).2 =
        (List.range' index (program.size - index)).filterMap (program.duplicate? script))
    ?ends ?line 0 (Nat.zero_le _) {} (.nothing program _)
  case ends =>
    intro state _
    rw [Nat.sub_self]
    rfl
  case line =>
    intro index line rest hline hlt ih state hknows
    have hnext : program.Knows program.lineNumber (index + 1)
        (checkLine { script, program } state line).1.labels := by
      rw [labels_checkLine, ← Program.lineNumber_of_line hline]
      exact hknows.note hline
    have hsize : program.size - index = program.size - (index + 1) + 1 := by omega
    rw [checkLines, duplicates_append, duplicates_checkLine script hknows hline, ih _ hnext, hsize,
      List.range'_succ, List.filterMap_cons]
    cases program.duplicate? script index <;> rfl

end

end Analysis

open Analysis in
/-- The warnings of labels defined twice are those there should be, in the order of the
lines. -/
theorem duplicates_analyze (program : Program) (script : String) :
    duplicates (program.analyze script) =
      (List.range program.size).filterMap (program.duplicate? script) := by
  let subject : Subject := { script, program }
  have hunclosed (numbers : List Nat) :
      duplicates (numbers.map fun line => subject.at line .error "@if 缺少对应的 @endif") = [] :=
    duplicates_of_errors (by simp [Subject.at])
  rw [← duplicates_checkLines, ← List.append_nil (duplicates (checkLines ..).2), ← hunclosed,
    ← duplicates_append]
  rfl

end VisualNovel
