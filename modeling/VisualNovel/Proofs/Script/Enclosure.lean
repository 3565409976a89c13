import Mathlib.Data.Finset.Lattice.Fold
import Mathlib.Order.Lattice.Nat
import VisualNovel.Proofs.Script.FlatBlocks
import VisualNovel.Proofs.Script.ScanTargets

/-!
# The blocks around a line

If every marker has its partner, the blocks open before a line are those that
enclose it (`Program.Balanced.enclosing_eq`), and a nested scan goes on inside the
blocks in which it has started (`Program.Balanced.openBlocks_find`).
-/

namespace VisualNovel

namespace Program

/-- How many blocks enclose the line, each from the line that opens it to the one
that ends it. -/
def enclosing (program : Program) (index : Nat) : Nat :=
  (List.range (index + 1)).countP fun opening =>
    ∃ ending < program.size, program.Pairs opening ending ∧ index ≤ ending

/-- How many blocks enclose one line at most. -/
def nesting (program : Program) : Nat :=
  (Finset.range program.size).sup program.enclosing

/-- How many blocks are open before the line. -/
def depth (program : Program) (index : Nat) : Nat :=
  (program.openBlocks index).length

section
variable {program : Program}

-- ---------------------------------------------------------------------------
-- Lines that end as many blocks as they open
-- ---------------------------------------------------------------------------

theorem openBlocks_of_level (hlevel : Level inside passed)
    (hpassed : program.lines.drop start = passed ++ rest) :
    program.openBlocks (start + passed.length) = (program.openBlocks start).drop inside := by
  induction passed generalizing start inside with
  | nil =>
    cases Level.nil_iff.mp hlevel
    rfl
  | cons line passed ih =>
    obtain ⟨hm, hrest⟩ := marker?_of_drop hpassed
    rw [List.length_cons, Nat.add_comm passed.length, ← Nat.add_assoc]
    cases hk : Marker.ofLine? line with
    | none =>
      rw [hk] at hm
      have hnext : Level inside passed := (Level.cons_iff (by simp [hk])).mp hlevel
      rw [ih hnext hrest, openBlocks_other (by simp [hm]) (by simp [hm])]
    | some marker =>
      rw [hk] at hm
      cases marker with
      | ifHolds =>
        have hnext : Level (inside + 1) passed := (Level.cons_iff (by simp [hk])).mp hlevel
        rw [ih hnext hrest, openBlocks_if hm, List.drop_succ_cons]
      | endIf =>
        have habove := hlevel.above [line] ⟨passed, rfl⟩
        cases inside with
        | zero => simp [hk] at habove
        | succ inside =>
          have hnext : Level inside passed := (Level.cons_iff (by simp [hk])).mp hlevel
          rw [ih hnext hrest, openBlocks_endIf hm, List.drop_tail]
      | elseIf | otherwise =>
        have hnext : Level inside passed := (Level.cons_iff (by simp [hk])).mp hlevel
        rw [ih hnext hrest, openBlocks_other (by simp [hm]) (by simp [hm])]

theorem openBlocks_between (hle : start ≤ index) (hsize : index ≤ program.size)
    (hlevel : Level 0 (program.between start index)) :
    program.openBlocks index = program.openBlocks start := by
  have hlength : (program.between start index).length = index - start := by
    simp only [between, List.length_take, List.length_drop]
    exact Nat.min_eq_left (Nat.sub_le_sub_right hsize start)
  have hdrop : program.lines.drop start = program.between start index ++ _ :=
    (List.take_append_drop (index - start) _).symm
  have hopen := openBlocks_of_level hlevel hdrop
  rwa [hlength, Nat.add_sub_cancel' hle] at hopen

-- ---------------------------------------------------------------------------
-- Balanced programs
-- ---------------------------------------------------------------------------

theorem Balanced.beginsBranch (hb : program.Balanced) (hm : program.marker? index = some marker)
    (hend : marker ≠ .endIf) : ∃ opening, program.BeginsBranch opening index := by
  cases marker with
  | ifHolds => exact ⟨index, .inl ⟨hm, rfl⟩⟩
  | elseIf =>
    obtain ⟨opening, hi⟩ := hb.exists_innermost hm (by decide)
    exact ⟨opening, .inr ⟨.inl hm, hi⟩⟩
  | otherwise =>
    obtain ⟨opening, hi⟩ := hb.exists_innermost hm (by decide)
    exact ⟨opening, .inr ⟨.inr hm, hi⟩⟩
  | endIf => exact absurd rfl hend

/-- Behind a line that begins a branch, what a nested scan finds stands in the same
blocks as the branch. -/
theorem Balanced.openBlocks_find (hb : program.Balanced)
    (hm : program.marker? index = some marker) (hmend : marker ≠ .endIf)
    (hif : sought .ifHolds = false) (hend : sought .endIf = true) :
    program.openBlocks (BranchScan.nested.find sought program (index + 1)) =
      program.openBlocks (index + 1) := by
  obtain ⟨opening, hbegins⟩ := hb.beginsBranch hm hmend
  obtain ⟨ending, hp⟩ := hb.exists_pairs (innermost_iff.mp hbegins.innermost).1.1
  obtain ⟨rfl, hlt⟩ := (pairs_iff_blockEnd hbegins).mp hp
  -- The end of the block is sought too, so the scan does not go on behind it.
  have hblockEnd : BranchScan.nested.FindsFirst Marker.isEndIf program (index + 1) _ :=
    BranchScan.nested.find_first rfl rfl program (index + 1)
  have hcandidate := hblockEnd.candidate hlt
  have hfirst := BranchScan.nested.find_first hif hend program (index + 1)
  obtain ⟨hle, ⟨found, hf, hs⟩, hlevel⟩ := hcandidate
  have hfoundEnd : found = .endIf := by
    cases found <;> first | rfl | exact absurd hs (by decide)
  obtain ⟨-, hsize⟩ := hfirst.first _ ⟨hle, ⟨found, hf, hfoundEnd ▸ hend⟩, hlevel⟩
  obtain ⟨hle, -, hlevel⟩ := hfirst.candidate hsize
  exact openBlocks_between hle (Nat.le_of_lt hsize) (hlevel rfl)

theorem Balanced.isOpen_iff (hb : program.Balanced) :
    program.IsOpen opening index ↔
      opening < index ∧ ∃ ending, program.Pairs opening ending ∧ index ≤ ending := by
  constructor
  · rintro ⟨hm, hlt, hbefore⟩
    obtain ⟨ending, hp⟩ := hb.exists_pairs hm
    exact ⟨hlt, ending, hp, Nat.le_of_not_lt fun h => hbefore ending h hp⟩
  · rintro ⟨hlt, ending, hp, hle⟩
    refine ⟨(innermost_iff.mp hp.2).1.1, hlt, fun other ho hp' => ?_⟩
    obtain rfl := hp.unique hp'
    exact Nat.not_le.mpr ho hle

/-- Before a line those blocks are open that enclose it, and behind it the one it
opens as well. -/
theorem Balanced.enclosing_eq (hb : program.Balanced) (index : Nat) :
    program.enclosing index =
      program.depth (if program.marker? index = some .ifHolds then index + 1 else index) := by
  have hsorted := program.openBlocks_sorted
    (if program.marker? index = some .ifHolds then index + 1 else index)
  rw [enclosing, List.countP_eq_length_filter, depth]
  refine List.Perm.length_eq ((List.perm_ext_iff_of_nodup (List.nodup_range.filter _)
    (hsorted.imp Nat.ne_of_gt)).mpr fun opening => ?_)
  have hsize : (∃ ending < program.size, program.Pairs opening ending ∧ index ≤ ending) ↔
      ∃ ending, program.Pairs opening ending ∧ index ≤ ending :=
    exists_congr fun ending => and_iff_right_of_imp fun ⟨hp, _⟩ => hp.lt_size
  simp only [List.mem_filter, List.mem_range, decide_eq_true_eq, hsize, mem_openBlocks,
    hb.isOpen_iff]
  split
  case isTrue hopens =>
    -- The line opens a block, so it ends none.
    refine and_congr_right fun _ => exists_congr fun ending => and_congr_right fun hp => ?_
    have hne : index ≠ ending := by
      rintro rfl
      exact absurd (hopens.symm.trans hp.1) (by decide)
    omega
  case isFalse hopens =>
    -- The line opens no block, so those it stands in are opened above it.
    refine and_congr_left fun ⟨ending, hp, _⟩ => ?_
    have hne : opening ≠ index := by
      rintro rfl
      exact hopens (innermost_iff.mp hp.2).1.1
    omega

/-- A line that opens a block stands in it. -/
theorem Balanced.depth_if (hb : program.Balanced) (hm : program.marker? index = some .ifHolds) :
    program.depth (index + 1) = program.depth index + 1 ∧
      program.enclosing index = program.depth index + 1 := by
  have hsucc : program.depth (index + 1) = program.depth index + 1 := by
    simp [depth, openBlocks_if hm]
  rw [hb.enclosing_eq, if_pos hm]
  exact ⟨hsucc, hsucc⟩

/-- A line that ends a block stands in it. -/
theorem Balanced.depth_endIf (hb : program.Balanced) (hm : program.marker? index = some .endIf) :
    program.depth (index + 1) + 1 = program.depth index ∧
      program.enclosing index = program.depth index := by
  obtain ⟨opening, hi⟩ := hb.exists_innermost hm (by decide)
  obtain ⟨outer, hopen⟩ := List.head?_eq_some_iff.mp hi
  rw [hb.enclosing_eq, if_neg (by simp [hm])]
  simp [depth, openBlocks_endIf hm, hopen]

theorem Balanced.depth_other (hb : program.Balanced) (hm : program.marker? index = found)
    (hif : found ≠ some .ifHolds) (hend : found ≠ some .endIf) :
    program.depth (index + 1) = program.depth index ∧
      program.enclosing index = program.depth index := by
  subst hm
  rw [hb.enclosing_eq, if_neg hif]
  simp [depth, openBlocks_other hif hend]

theorem enclosing_le_nesting (program : Program) (index : Nat) :
    program.enclosing index ≤ program.nesting := by
  by_cases hlt : index < program.size
  · exact Finset.le_sup (Finset.mem_range.mpr hlt)
  · have hnone : program.enclosing index = 0 := by
      simp only [enclosing, List.countP_eq_zero, decide_eq_true_eq]
      rintro opening - ⟨ending, hsize, -, hle⟩
      omega
    exact hnone ▸ Nat.zero_le _

end

end Program

end VisualNovel
