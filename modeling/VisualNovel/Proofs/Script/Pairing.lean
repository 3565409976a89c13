import Mathlib.Data.List.Sort
import VisualNovel.Proofs.Script.ProgramLaws
import VisualNovel.Proofs.Script.ScanLaws

/-!
# Which end closes which block

An end closes the block opened last among those still open, which fixes all pairs
(`Program.innermost_iff`). Behind any line of a block, its first branch or a later
one, a nested scan for the end finds the line paired with the opening, and the end
of the program if there is none (`Program.pairs_iff_blockEnd`).
-/

namespace VisualNovel

namespace Program

def marker? (program : Program) (index : Nat) : Option Marker :=
  (program.lines[index]?).bind Marker.ofLine?

/-- The lines that opened the blocks open before a line, the last opened first. -/
def openBlocks (program : Program) : Nat → List Nat
  | 0 => []
  | index + 1 =>
    match program.marker? index with
    | some .ifHolds => index :: program.openBlocks index
    | some .endIf => (program.openBlocks index).tail
    | _ => program.openBlocks index

/-- Of the blocks open before the second line, the first line opened the last. -/
def Innermost (program : Program) (opening index : Nat) : Prop :=
  (program.openBlocks index).head? = some opening

/-- The second line ends the block that the first one opened. -/
def Pairs (program : Program) (opening ending : Nat) : Prop :=
  program.marker? ending = some .endIf ∧ program.Innermost opening ending

/-- The first line opened a block that is not ended before the second. -/
def IsOpen (program : Program) (opening index : Nat) : Prop :=
  program.marker? opening = some .ifHolds ∧ opening < index ∧
    ∀ ending < index, ¬ program.Pairs opening ending

/-- The second line begins a branch of the block that the first one opened. -/
def BeginsBranch (program : Program) (opening index : Nat) : Prop :=
  program.marker? index = some .ifHolds ∧ opening = index ∨
    (program.marker? index = some .elseIf ∨ program.marker? index = some .otherwise) ∧
      program.Innermost opening index

instance : Decidable (Innermost program opening index) :=
  inferInstanceAs (Decidable (_ = _))

instance : Decidable (Pairs program opening ending) :=
  inferInstanceAs (Decidable (_ ∧ _))

instance : Decidable (IsOpen program opening index) :=
  inferInstanceAs (Decidable (_ ∧ _))

-- ---------------------------------------------------------------------------
-- Markers without a partner
-- ---------------------------------------------------------------------------

/-- The lines that open a block never ended. -/
def unclosed (program : Program) : List Nat :=
  (List.range program.size).filter fun opening =>
    program.marker? opening = some .ifHolds ∧
      ∀ ending < program.size, ¬ program.Pairs opening ending

/-- The ends of no block. -/
def strayEnds (program : Program) : List Nat :=
  (List.range program.size).filter fun ending =>
    program.marker? ending = some .endIf ∧ ∀ opening < ending, ¬ program.Pairs opening ending

/-- The lines with the marker at which no block is open. -/
def strayBranches (program : Program) (marker : Marker) : List Nat :=
  (List.range program.size).filter fun index =>
    program.marker? index = some marker ∧ ∀ opening < index, ¬ program.IsOpen opening index

section
variable {program : Program}

-- ---------------------------------------------------------------------------
-- Open blocks
-- ---------------------------------------------------------------------------

theorem marker?_of_line (h : program.lines[index]? = some line) :
    program.marker? index = Marker.ofLine? line := by
  simp [marker?, h]

theorem lt_size_of_marker? (h : program.marker? index = some marker) : index < program.size := by
  obtain ⟨line, hline, -⟩ := Option.bind_eq_some_iff.mp h
  exact (List.getElem?_eq_some_iff.mp hline).1

theorem openBlocks_if (h : program.marker? index = some .ifHolds) :
    program.openBlocks (index + 1) = index :: program.openBlocks index := by
  simp [openBlocks, h]

theorem openBlocks_endIf (h : program.marker? index = some .endIf) :
    program.openBlocks (index + 1) = (program.openBlocks index).tail := by
  simp [openBlocks, h]

theorem openBlocks_other (hif : program.marker? index ≠ some .ifHolds)
    (hend : program.marker? index ≠ some .endIf) :
    program.openBlocks (index + 1) = program.openBlocks index := by
  rw [openBlocks]
  split <;> first | contradiction | rfl

theorem lt_of_mem_openBlocks (h : opening ∈ program.openBlocks index) : opening < index := by
  induction index with
  | zero => simp [openBlocks] at h
  | succ index ih =>
    unfold openBlocks at h
    split at h
    · rcases List.mem_cons.mp h with rfl | h
      · exact Nat.lt_succ_self _
      · exact Nat.lt_succ_of_lt (ih h)
    · exact Nat.lt_succ_of_lt (ih (List.mem_of_mem_tail h))
    · exact Nat.lt_succ_of_lt (ih h)

theorem openBlocks_sorted (program : Program) (index : Nat) :
    (program.openBlocks index).Pairwise (· > ·) := by
  induction index with
  | zero => exact .nil
  | succ index ih =>
    unfold openBlocks
    split
    · exact .cons (fun _ h => lt_of_mem_openBlocks h) ih
    · exact ih.tail
    · exact ih

theorem Pairs.lt (h : program.Pairs opening ending) : opening < ending :=
  lt_of_mem_openBlocks (List.mem_of_mem_head? h.2)

/-- An end takes the last opened block away and leaves the others. -/
theorem mem_tail_openBlocks :
    opening ∈ (program.openBlocks index).tail ↔
      opening ∈ program.openBlocks index ∧ (program.openBlocks index).head? ≠ some opening := by
  have hs := program.openBlocks_sorted index
  cases hb : program.openBlocks index with
  | nil => simp
  | cons last rest =>
    rw [hb] at hs
    have hlt : opening ∈ rest → opening ≠ last := fun h =>
      Nat.ne_of_lt (List.rel_of_pairwise_cons hs h)
    simp only [List.tail_cons, List.mem_cons, List.head?_cons, ne_eq, Option.some.injEq]
    constructor
    · exact fun h => ⟨.inr h, fun e => hlt h e.symm⟩
    · rintro ⟨rfl | h, hne⟩
      · exact absurd rfl hne
      · exact h

theorem mem_openBlocks : opening ∈ program.openBlocks index ↔ program.IsOpen opening index := by
  induction index with
  | zero => simp [openBlocks, IsOpen]
  | succ index ih =>
    -- Open behind a line is what was open before it and is not ended there, or is opened there.
    have hsucc : program.IsOpen opening (index + 1) ↔
        (program.IsOpen opening index ∧ ¬ program.Pairs opening index) ∨
          (opening = index ∧ program.marker? index = some .ifHolds) := by
      constructor
      · rintro ⟨hm, hlt, hn⟩
        rcases Nat.lt_succ_iff_lt_or_eq.mp hlt with hlt | rfl
        · exact .inl ⟨⟨hm, hlt, fun e he => hn e (Nat.lt_succ_of_lt he)⟩, hn _ (Nat.lt_succ_self _)⟩
        · exact .inr ⟨rfl, hm⟩
      · rintro (⟨⟨hm, hlt, hn⟩, hp⟩ | ⟨rfl, hm⟩)
        · refine ⟨hm, Nat.lt_succ_of_lt hlt, fun e he => ?_⟩
          rcases Nat.lt_succ_iff_lt_or_eq.mp he with he | rfl
          · exact hn e he
          · exact hp
        · exact ⟨hm, Nat.lt_succ_self _, fun e he hp =>
            absurd hp.lt (Nat.not_lt.mpr (Nat.le_of_lt_succ he))⟩
    rw [hsucc, ← ih]
    by_cases hif : program.marker? index = some .ifHolds
    · simp [openBlocks_if hif, Pairs, hif, or_comm]
    · by_cases hend : program.marker? index = some .endIf
      · simp [openBlocks_endIf hend, Pairs, Innermost, hend, mem_tail_openBlocks]
      · simp [openBlocks_other hif hend, Pairs, hif, hend]

theorem openBlocks_eq_nil :
    program.openBlocks index = [] ↔ ∀ opening < index, ¬ program.IsOpen opening index := by
  rw [List.eq_nil_iff_forall_not_mem]
  exact ⟨fun h opening _ ho => h opening (mem_openBlocks.mpr ho),
    fun h opening ho => h opening (lt_of_mem_openBlocks ho) (mem_openBlocks.mp ho)⟩

/-- With `IsOpen`, the rule that fixes all pairs. -/
theorem innermost_iff :
    program.Innermost opening index ↔
      program.IsOpen opening index ∧ ∀ other, program.IsOpen other index → other ≤ opening := by
  simp only [← mem_openBlocks, Innermost]
  have hs := program.openBlocks_sorted index
  cases hb : program.openBlocks index with
  | nil => simp
  | cons last rest =>
    rw [hb] at hs
    have hlt (other) (h : other ∈ rest) : other < last := List.rel_of_pairwise_cons hs h
    simp only [List.head?_cons, Option.some.injEq, List.mem_cons]
    constructor
    · rintro rfl
      refine ⟨.inl rfl, ?_⟩
      rintro other (rfl | h)
      · exact Nat.le_refl _
      · exact Nat.le_of_lt (hlt other h)
    · rintro ⟨rfl | h, hmax⟩
      · rfl
      · exact absurd (hmax last (.inl rfl)) (Nat.not_le.mpr (hlt opening h))

theorem Pairs.lt_size (h : program.Pairs opening ending) : ending < program.size :=
  lt_size_of_marker? h.1

theorem Pairs.unique (h : program.Pairs opening ending) (h' : program.Pairs opening other) :
    ending = other := by
  have ho := (innermost_iff.mp h.2).1.2.2
  have ho' := (innermost_iff.mp h'.2).1.2.2
  rcases Nat.lt_trichotomy ending other with hlt | heq | hlt
  · exact absurd h (ho' ending hlt)
  · exact heq
  · exact absurd h' (ho other hlt)

theorem BeginsBranch.innermost (h : program.BeginsBranch opening index) :
    program.Innermost opening (index + 1) := by
  rcases h with ⟨hm, rfl⟩ | ⟨hm, hi⟩
  · simp [Innermost, openBlocks_if hm]
  · have hif : program.marker? index ≠ some .ifHolds := by rcases hm with h | h <;> simp [h]
    have hend : program.marker? index ≠ some .endIf := by rcases hm with h | h <;> simp [h]
    rwa [Innermost, openBlocks_other hif hend]

theorem BeginsBranch.lt_size (h : program.BeginsBranch opening index) : index < program.size := by
  rcases h with ⟨hm, -⟩ | ⟨hm | hm, -⟩ <;> exact lt_size_of_marker? hm

/-- An end that closes nothing stands where no block is open. -/
theorem openBlocks_eq_nil_of_endIf (hend : program.marker? index = some .endIf) :
    program.openBlocks index = [] ↔ ∀ opening < index, ¬ program.Pairs opening index := by
  rw [← List.head?_eq_none_iff, Option.eq_none_iff_forall_ne_some]
  exact ⟨fun h opening _ hp => h opening hp.2,
    fun h opening hh => h opening (lt_of_mem_openBlocks (List.mem_of_mem_head? hh)) ⟨hend, hh⟩⟩

theorem strayEnds_eq (program : Program) : program.strayEnds = program.strayBranches .endIf := by
  refine List.filter_congr fun index _ => decide_eq_decide.mpr (and_congr_right fun hend => ?_)
  rw [← openBlocks_eq_nil_of_endIf hend, openBlocks_eq_nil]

/-- The blocks still open at the end of the program are listed last opened first. -/
theorem unclosed_eq (program : Program) :
    program.unclosed = (program.openBlocks program.size).reverse := by
  have hsorted : (program.openBlocks program.size).reverse.Pairwise (· < ·) :=
    List.pairwise_reverse.mpr (program.openBlocks_sorted program.size)
  have hfilter : program.unclosed.Pairwise (· < ·) :=
    List.pairwise_lt_range.filter _
  refine List.Perm.eq_of_pairwise' hfilter hsorted ?_
  refine (List.perm_ext_iff_of_nodup (hfilter.imp Nat.ne_of_lt) (hsorted.imp Nat.ne_of_lt)).mpr ?_
  intro opening
  simp only [unclosed, List.mem_filter, List.mem_range, decide_eq_true_eq, List.mem_reverse,
    mem_openBlocks, IsOpen]
  tauto

theorem mem_unclosed :
    opening ∈ program.unclosed ↔
      program.marker? opening = some .ifHolds ∧ ∀ ending, ¬ program.Pairs opening ending := by
  simp only [unclosed, List.mem_filter, List.mem_range, decide_eq_true_eq]
  constructor
  · rintro ⟨-, hm, hn⟩
    exact ⟨hm, fun ending hp => hn ending hp.lt_size hp⟩
  · rintro ⟨hm, hn⟩
    exact ⟨lt_size_of_marker? hm, hm, fun ending _ => hn ending⟩

-- ---------------------------------------------------------------------------
-- The scan for the end of a block
-- ---------------------------------------------------------------------------

theorem marker?_of_drop (h : program.lines.drop index = line :: rest) :
    program.marker? index = Marker.ofLine? line ∧ program.lines.drop (index + 1) = rest := by
  obtain ⟨hline, htail⟩ := line_of_drop h
  exact ⟨marker?_of_line hline, htail⟩

/-- From any line, the scan that passes over `depth` blocks more comes to where
the block at that depth is ended. -/
theorem nestedDistance_pairs (hopen : (program.openBlocks index)[depth]? = some opening)
    (hle : index ≤ program.size) :
    let found := index + BranchScan.nestedDistance Marker.isEndIf depth (program.lines.drop index)
    program.Pairs opening found ∨
      found = program.size ∧ opening ∈ program.openBlocks program.size := by
  generalize hrest : program.lines.drop index = rest
  induction rest generalizing index depth with
  | nil =>
    have hend : index = program.size :=
      Nat.le_antisymm hle (List.drop_eq_nil_iff.mp hrest)
    exact .inr ⟨hend, hend ▸ List.mem_of_getElem? hopen⟩
  | cons line rest ih =>
    obtain ⟨hm, htail⟩ := marker?_of_drop hrest
    have hlt : index < program.size := by
      have := congrArg List.length hrest
      simp only [List.length_drop, List.length_cons] at this
      exact Nat.lt_of_sub_pos (this ▸ Nat.succ_pos _)
    have next (inner : Nat) (hb : (program.openBlocks (index + 1))[inner]? = some opening)
        (hd : BranchScan.nestedDistance Marker.isEndIf depth (line :: rest) =
          BranchScan.nestedDistance Marker.isEndIf inner rest + 1) :
        let found := index + BranchScan.nestedDistance Marker.isEndIf depth (line :: rest)
        program.Pairs opening found ∨
          found = program.size ∧ opening ∈ program.openBlocks program.size := by
      have := ih hb hlt htail
      rwa [Nat.add_right_comm, Nat.add_assoc, ← hd] at this
    cases hk : Marker.ofLine? line with
    | none =>
      rw [hk] at hm
      exact next depth (by rwa [openBlocks_other (by simp [hm]) (by simp [hm])])
        (BranchScan.nestedDistance_cons_plain hk)
    | some marker =>
      rw [hk] at hm
      cases marker with
      | ifHolds =>
        exact next (depth + 1) (by rwa [openBlocks_if hm]) (BranchScan.nestedDistance_cons_if hk)
      | endIf =>
        cases depth with
        | zero =>
          left
          rw [BranchScan.nestedDistance_cons_sought hk (by decide) rfl]
          exact ⟨hm, by rwa [Innermost, Nat.add_zero, List.head?_eq_getElem?]⟩
        | succ depth =>
          exact next depth (by rw [openBlocks_endIf hm, List.getElem?_tail]; exact hopen)
            (BranchScan.nestedDistance_cons_endIf hk)
      | elseIf | otherwise =>
        refine next depth (by rwa [openBlocks_other (by simp [hm]) (by simp [hm])]) ?_
        cases depth with
        | zero => exact BranchScan.nestedDistance_cons_passed hk (by decide) rfl
        | succ depth => exact BranchScan.nestedDistance_cons_inner hk (by decide) (by decide)

/-- The scan finds the partner of the opening, or else the end of the program. -/
theorem pairs_iff_blockEnd (h : program.BeginsBranch opening index) :
    program.Pairs opening ending ↔
      ending = BranchScan.nested.blockEnd program (index + 1) ∧ ending < program.size := by
  have hfind : BranchScan.nested.blockEnd program (index + 1) =
      index + 1 + BranchScan.nestedDistance Marker.isEndIf 0 (program.lines.drop (index + 1)) :=
    if_pos h.lt_size
  have hopen := h.innermost
  rw [Innermost, List.head?_eq_getElem?] at hopen
  rw [hfind]
  rcases nestedDistance_pairs hopen h.lt_size with hp | ⟨hend, hstill⟩
  · exact ⟨fun h' => ⟨h'.unique hp, h'.lt_size⟩, fun ⟨he, _⟩ => he ▸ hp⟩
  · have hnone := (mem_openBlocks.mp hstill).2.2
    exact ⟨fun h' => absurd h' (hnone _ h'.lt_size), fun ⟨he, hlt⟩ => absurd hlt (by omega)⟩

/-- The scan comes to the end of the program just when the block is never ended. -/
theorem mem_unclosed_iff_blockEnd (h : program.BeginsBranch opening index) :
    opening ∈ program.unclosed ↔
      BranchScan.nested.blockEnd program (index + 1) = program.size := by
  rw [mem_unclosed]
  constructor
  · intro ⟨_, hnone⟩
    have hle : BranchScan.nested.blockEnd program (index + 1) ≤ program.size :=
      BranchScan.find_le ..
    by_contra hne
    exact hnone _ ((pairs_iff_blockEnd h).mpr ⟨rfl, Nat.lt_of_le_of_ne hle hne⟩)
  · intro hend
    refine ⟨(innermost_iff.mp h.innermost).1.1, fun ending hp => ?_⟩
    obtain ⟨he, hlt⟩ := (pairs_iff_blockEnd h).mp hp
    exact Nat.ne_of_lt hlt (he.trans hend)

end

end Program

end VisualNovel
