import VisualNovel.Diagnostic.Analysis
import VisualNovel.Proofs.Script.Pairing
import VisualNovel.Proofs.Script.ProgramLaws

/-!
# Markers reported without a partner

The analysis complains of exactly the ends that end nothing, the blocks that are
not ended and the branches outside all blocks, each at its line and in order
(`errorsSaying_analyze`). It pairs openings and ends as the nested scan does
(`Program.analyze_pairs_as_blockEnd`).
-/

namespace VisualNovel

-- ---------------------------------------------------------------------------
-- What a report says
-- ---------------------------------------------------------------------------

namespace Report

/-- Where a report has an error with the given words, in the order of the report. -/
def errorsSaying (report : Report) (message : String) : List (Option Nat) :=
  (report.filter fun d => d.severity = .error ∧ d.message = message).map (·.line)

theorem errorsSaying_append (report more : Report) (message : String) :
    errorsSaying (report ++ more) message =
      errorsSaying report message ++ errorsSaying more message := by
  simp [errorsSaying]

theorem errorsSaying_eq_nil (h : ∀ d ∈ report, d.severity = .error → d.message ≠ message) :
    errorsSaying report message = [] := by
  simpa [errorsSaying] using h

end Report

open Report

/-- What is said of a marker that has no partner. -/
def Marker.complaint : Marker → String
  | .ifHolds => "@if 缺少对应的 @endif"
  | .elseIf => "@elseif 不在任何 @if 块中"
  | .otherwise => "@else 不在任何 @if 块中"
  | .endIf => "多余的 @endif：没有对应的 @if"

theorem Marker.complaint_injective {marker other : Marker}
    (h : marker.complaint = other.complaint) : marker = other := by
  cases marker <;> cases other <;> first | rfl | exact absurd h (by decide)

namespace Analysis

/-- No complaint reads like a jump to nowhere. -/
theorem errorsSaying_undefinedTargets (subject : Subject) (line : Nat) (command : Command)
    (marker : Marker) :
    errorsSaying (undefinedTargets subject line command) marker.complaint = [] := by
  refine errorsSaying_eq_nil fun d hd _ h => ?_
  obtain ⟨label, -, rfl⟩ := List.mem_map.mp hd
  have hhead := congrArg (·.toList.head?) h
  cases marker <;> simp [Subject.at, Marker.complaint, toString] at hhead

theorem errorsSaying_checkMarker (subject : Subject) (line : Nat) (openBlocks : List Nat)
    (command : Command) (marker : Marker) :
    errorsSaying (checkMarker subject line openBlocks command).2 marker.complaint =
      if command.marker? = some marker ∧ marker ≠ .ifHolds ∧ openBlocks = [] then [some line]
      else [] := by
  cases openBlocks <;> cases command <;> cases marker <;> rfl

theorem errorsSaying_checkLine (subject : Subject) (state : State) (line : ScriptLine)
    (marker : Marker) :
    errorsSaying (checkLine subject state line).2 marker.complaint =
      if Marker.ofLine? line = some marker ∧ marker ≠ .ifHolds ∧ state.openBlocks = [] then
        [some line.number]
      else [] := by
  cases hf : line.form with
  | label name =>
    simp only [checkLine, hf, Marker.ofLine?_of_label hf]
    split
    · exact errorsSaying_eq_nil (by simp [Subject.at])
    · rfl
  | dialogue text =>
    simp [checkLine, hf, Marker.ofLine?_of_dialogue hf, errorsSaying]
  | command body =>
    have hfaults : errorsSaying ((Command.read body).errors.map fun e =>
        subject.at line.number .warn e.message (some line.text)) marker.complaint = [] :=
      errorsSaying_eq_nil (by simp [Subject.at])
    simp only [checkLine, hf, errorsSaying_append, errorsSaying_undefinedTargets,
      errorsSaying_checkMarker, hfaults, Marker.ofLine?_of_body hf, List.nil_append,
      List.append_nil]

theorem openBlocks_checkLine (subject : Subject) (state : State) (line : ScriptLine) :
    (checkLine subject state line).1.openBlocks =
      match Marker.ofLine? line with
      | some .ifHolds => line.number :: state.openBlocks
      | some .endIf => state.openBlocks.tail
      | _ => state.openBlocks := by
  cases hf : line.form with
  | label name =>
    simp only [checkLine, hf, Marker.ofLine?_of_label hf]
    split <;> rfl
  | dialogue text =>
    simp only [checkLine, hf, Marker.ofLine?_of_dialogue hf]
  | command body =>
    simp only [checkLine, hf, Marker.ofLine?_of_body hf]
    cases (Command.read body).value <;> cases state.openBlocks <;> rfl

/-- The pass holds the numbers of the blocks open at the line it has come to, and
complains of the markers without a partner, one by one. -/
theorem checkLines_partners (subject : Subject) (program : Program) :
    let done := checkLines subject {} program.lines
    done.1.openBlocks = (program.openBlocks program.size).map program.lineNumber ∧
      ∀ marker, errorsSaying done.2 marker.complaint =
        ((List.range program.size).filter fun index =>
          program.marker? index = some marker ∧ marker ≠ .ifHolds ∧
            program.openBlocks index = []).map (some ∘ program.lineNumber) := by
  rw [List.range_eq_range']
  -- From any line on, if the numbers held there are those of the blocks open before it.
  refine @Program.lines_induction program
    (fun index rest => ∀ state : State,
      state.openBlocks = (program.openBlocks index).map program.lineNumber →
      (checkLines subject state rest).1.openBlocks =
          (program.openBlocks program.size).map program.lineNumber ∧
        ∀ marker, errorsSaying (checkLines subject state rest).2 marker.complaint =
          ((List.range' index (program.size - index)).filter fun later =>
            program.marker? later = some marker ∧ marker ≠ .ifHolds ∧
              program.openBlocks later = []).map (some ∘ program.lineNumber))
    ?ends ?line 0 (Nat.zero_le _) {} rfl
  case ends => exact fun state hopen => ⟨hopen, fun _ => by simp [checkLines, errorsSaying]⟩
  case line =>
    intro index line rest hline hlt ih state hopen
    have hm := Program.marker?_of_line hline
    have hnumber := Program.lineNumber_of_line hline
    have hnext : (checkLine subject state line).1.openBlocks =
        (program.openBlocks (index + 1)).map program.lineNumber := by
      rw [openBlocks_checkLine, ← hm, hopen, Program.openBlocks]
      rcases program.marker? index with _ | (_ | _ | _ | _) <;> simp [hnumber]
    obtain ⟨hlast, hmore⟩ := ih _ hnext
    refine ⟨hlast, fun marker => ?_⟩
    have hsize : program.size - index = program.size - (index + 1) + 1 := by omega
    simp only [checkLines, errorsSaying_append, errorsSaying_checkLine, hmore, hsize,
      List.range'_succ, List.filter_cons, ← hm, hopen, List.map_eq_nil_iff]
    by_cases hc : program.marker? index = some marker ∧ marker ≠ .ifHolds ∧
        program.openBlocks index = []
    · rw [if_pos hc, if_pos (decide_eq_true hc), List.map_cons, Function.comp_apply, hnumber]
      rfl
    · rw [if_neg hc, if_neg (by simpa using hc), List.nil_append]

end Analysis

-- ---------------------------------------------------------------------------
-- The whole report
-- ---------------------------------------------------------------------------

theorem errorsSaying_complaints (subject : Analysis.Subject) (lines : List Nat)
    (marker other : Marker) :
    errorsSaying (lines.map fun line => subject.at line .error other.complaint) marker.complaint =
      if marker = other then lines.map some else [] := by
  split
  · rename_i h
    simp [errorsSaying, h, Analysis.Subject.at, List.filter_map, Function.comp_def]
  · rename_i h
    refine errorsSaying_eq_nil fun d hd _ hsaid => ?_
    obtain ⟨line, -, rfl⟩ := List.mem_map.mp hd
    exact h (Marker.complaint_injective hsaid.symm)

open Analysis in
theorem errorsSaying_analyze (program : Program) (script : String) (marker : Marker) :
    errorsSaying (program.analyze script) marker.complaint =
      (if marker = .ifHolds then program.unclosed else program.strayBranches marker).map
        (some ∘ program.lineNumber) := by
  let subject : Subject := { script, program }
  obtain ⟨hopen, hlines⟩ := checkLines_partners subject program
  have hanalyze : program.analyze script =
      (checkLines subject {} program.lines).2 ++
        (checkLines subject {} program.lines).1.openBlocks.reverse.map
          (subject.at · .error Marker.ifHolds.complaint) := rfl
  rw [hanalyze, errorsSaying_append, hlines, hopen, errorsSaying_complaints]
  by_cases hm : marker = .ifHolds
  · simp [hm, Program.unclosed_eq]
  · simp [hm, Program.strayBranches, Program.openBlocks_eq_nil, List.range_eq_range']

-- ---------------------------------------------------------------------------
-- Reports and scans
-- ---------------------------------------------------------------------------

namespace Program

/-- A line is reported as a block not ended only if it is one. -/
theorem lineNumber_mem_unclosed {text : String}
    (hopening : (parse text).marker? opening = some .ifHolds) :
    some ((parse text).lineNumber opening) ∈
        (parse text).unclosed.map (some ∘ (parse text).lineNumber) ↔
      opening ∈ (parse text).unclosed := by
  constructor
  · intro hmem
    obtain ⟨other, hother, heq⟩ := List.mem_map.mp hmem
    have hlt := lt_size_of_marker? (mem_unclosed.mp hother).1
    have : other = opening := parse_lineNumber_injective hlt
      (lt_size_of_marker? hopening) (Option.some.inj heq)
    exact this ▸ hother
  · exact fun hmem => List.mem_map.mpr ⟨opening, hmem, rfl⟩

/-- The report on a text and the scan for block ends see the same pairs. -/
theorem analyze_pairs_as_blockEnd (text script : String) :
    let program := parse text
    let report := program.analyze script
    let numbered := List.map (some ∘ program.lineNumber)
    report.errorsSaying "多余的 @endif：没有对应的 @if" = numbered program.strayEnds ∧
      report.errorsSaying "@if 缺少对应的 @endif" = numbered program.unclosed ∧
      report.errorsSaying "@elseif 不在任何 @if 块中" = numbered (program.strayBranches .elseIf) ∧
      report.errorsSaying "@else 不在任何 @if 块中" = numbered (program.strayBranches .otherwise) ∧
      ∀ opening index, program.BeginsBranch opening index →
        let found := BranchScan.nested.blockEnd program (index + 1)
        (∀ ending, program.Pairs opening ending ↔ ending = found ∧ found < program.size) ∧
          (found = program.size ↔
            some (program.lineNumber opening) ∈ report.errorsSaying "@if 缺少对应的 @endif") := by
  intro program report numbered
  have said := errorsSaying_analyze program script
  have hunclosed : report.errorsSaying "@if 缺少对应的 @endif" = numbered program.unclosed :=
    said .ifHolds
  refine ⟨program.strayEnds_eq ▸ said .endIf, hunclosed, said .elseIf, said .otherwise, ?_⟩
  intro opening index h found
  refine ⟨fun ending => ?_, ?_⟩
  · rw [pairs_iff_blockEnd h]
    exact and_congr_right fun he => by rw [he]
  · have hopening := (innermost_iff.mp h.innermost).1.1
    rw [hunclosed, lineNumber_mem_unclosed hopening, mem_unclosed_iff_blockEnd h]

end Program

end VisualNovel
