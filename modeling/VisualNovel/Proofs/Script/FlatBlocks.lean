import VisualNovel.Proofs.Diagnostic.Partners

/-!
# Blocks without blocks inside

In a program whose markers all have partners and whose blocks open none inside,
the end of a block comes before any other opening. So from every line that begins
a branch both ways of scanning come to the same line (`Program.Flat.find_eq`).
-/

namespace VisualNovel

open BranchScan

namespace Program

-- ---------------------------------------------------------------------------
-- Programs
-- ---------------------------------------------------------------------------

/-- Every block is ended, and every end and every further branch stands in one. -/
structure Balanced (program : Program) : Prop where
  unclosed : program.unclosed = []
  strayBranches : ∀ marker, marker ≠ .ifHolds → program.strayBranches marker = []

/-- No block is opened below the first line and above the second. -/
def OpensNone (program : Program) (above below : Nat) : Prop :=
  ∀ index, above < index → index < below → program.marker? index ≠ some .ifHolds

instance : Decidable (OpensNone program above below) :=
  decidable_of_iff (∀ index < below, above < index → program.marker? index ≠ some .ifHolds)
    ⟨fun h index ha hb => h index hb ha, fun h index hb ha => h index ha hb⟩

/-- No block is opened inside another. -/
def Flat (program : Program) : Prop :=
  ∀ opening ending, program.Pairs opening ending → program.OpensNone opening ending

instance (program : Program) : Decidable program.Flat :=
  decidable_of_iff (∀ ending < program.size, ∀ opening < ending,
      program.Pairs opening ending → program.OpensNone opening ending)
    ⟨fun h opening ending hp => h ending hp.lt_size opening hp.lt hp,
      fun h ending _ opening _ hp => h opening ending hp⟩

section
variable {program : Program}

/-- The analysis has no complaint just when every marker has its partner. -/
theorem balanced_iff (script : String) :
    program.Balanced ↔
      ∀ marker : Marker, (program.analyze script).errorsSaying marker.complaint = [] := by
  constructor
  · intro hb marker
    rw [errorsSaying_analyze, List.map_eq_nil_iff]
    split
    · exact hb.unclosed
    · exact hb.strayBranches marker ‹_›
  · intro h
    have said (marker : Marker) := h marker
    simp only [errorsSaying_analyze, List.map_eq_nil_iff] at said
    refine ⟨said .ifHolds, fun marker hm => ?_⟩
    have := said marker
    rwa [if_neg hm] at this

-- ---------------------------------------------------------------------------
-- The end of a branch
-- ---------------------------------------------------------------------------

theorem Balanced.exists_pairs (hb : program.Balanced)
    (hopening : program.marker? opening = some .ifHolds) :
    ∃ ending, program.Pairs opening ending := by
  by_contra hnone
  have hmem : opening ∈ program.unclosed :=
    mem_unclosed.mpr ⟨hopening, fun ending hp => hnone ⟨ending, hp⟩⟩
  rw [hb.unclosed] at hmem
  exact List.not_mem_nil hmem

theorem Balanced.exists_innermost (hb : program.Balanced)
    (hm : program.marker? index = some marker) (hif : marker ≠ .ifHolds) :
    ∃ opening, program.Innermost opening index := by
  have hopen : program.openBlocks index ≠ [] := by
    intro hnil
    have hmem : index ∈ program.strayBranches marker := by
      refine List.mem_filter.mpr ⟨List.mem_range.mpr (lt_size_of_marker? hm), ?_⟩
      exact decide_eq_true ⟨hm, openBlocks_eq_nil.mp hnil⟩
    rw [hb.strayBranches marker hif] at hmem
    exact List.not_mem_nil hmem
  exact ⟨_, List.head?_eq_some_head hopen⟩

/-- Every branch begins in a block that is ended further down. -/
theorem Balanced.exists_block (hb : program.Balanced)
    (hm : program.marker? index = some marker) (hend : marker ≠ .endIf) :
    ∃ opening ending, program.Pairs opening ending ∧ opening ≤ index ∧ index < ending := by
  by_cases hif : marker = .ifHolds
  · subst hif
    obtain ⟨ending, hp⟩ := hb.exists_pairs hm
    exact ⟨index, ending, hp, Nat.le_refl _, hp.lt⟩
  · obtain ⟨opening, hi⟩ := hb.exists_innermost hm hif
    obtain ⟨hopening, hlt, hbefore⟩ := (innermost_iff.mp hi).1
    obtain ⟨ending, hp⟩ := hb.exists_pairs hopening
    refine ⟨opening, ending, hp, Nat.le_of_lt hlt, ?_⟩
    -- The block is not ended before this line, and this line is no end.
    rcases Nat.lt_trichotomy index ending with h | rfl | h
    · exact h
    · exact absurd (Option.some.inj (hm.symm.trans hp.1)) hend
    · exact absurd hp (hbefore ending h)

-- ---------------------------------------------------------------------------
-- The two scans
-- ---------------------------------------------------------------------------

/-- As long as no block is opened on the way, depth does not matter. -/
theorem nestedDistance_eq_linearDistance (hif : sought .ifHolds = false)
    (hstop : program.marker? stop = some marker) (hsought : sought marker = true)
    (hlt : passed < stop) (hway : program.OpensNone passed stop) :
    nestedDistance sought 0 (program.lines.drop (passed + 1)) =
      linearDistance sought (program.lines.drop (passed + 1)) := by
  generalize hrest : program.lines.drop (passed + 1) = rest
  induction rest generalizing passed with
  | nil => rfl
  | cons line rest ih =>
    obtain ⟨hm, htail⟩ := marker?_of_drop hrest
    by_cases hhere : ∃ found, Marker.ofLine? line = some found ∧ sought found = true
    · obtain ⟨found, hfound, hs⟩ := hhere
      have hne : found ≠ .ifHolds := by
        rintro rfl
        exact absurd hs (by simp [hif])
      rw [nestedDistance_cons_sought hfound hne hs, linearDistance_cons_sought hfound hs]
    · have hpassed : ∀ found, Marker.ofLine? line = some found → sought found = false := by
        intro found hfound
        exact Bool.eq_false_iff.mpr fun hs => hhere ⟨found, hfound, hs⟩
      have hnext : passed + 1 < stop := by
        refine Nat.lt_of_le_of_ne hlt ?_
        rintro rfl
        exact hhere ⟨marker, hm.symm.trans hstop, hsought⟩
      have hmore : nestedDistance sought 0 rest = linearDistance sought rest :=
        ih hnext (fun index hi => hway index (Nat.lt_of_succ_lt hi)) htail
      rw [linearDistance_cons_passed hpassed, ← hmore]
      cases hfound : Marker.ofLine? line with
      | none => exact nestedDistance_cons_plain hfound
      | some found =>
        have hne : found ≠ .ifHolds := by
          rintro rfl
          exact hway (passed + 1) (Nat.lt_succ_self _) hnext (hm.trans hfound)
        exact nestedDistance_cons_passed hfound hne (hpassed found hfound)

theorem Flat.nested_find_eq_linear (hf : program.Flat) (hb : program.Balanced)
    (hm : program.marker? index = some marker) (hend : marker ≠ .endIf)
    (hif : sought .ifHolds = false) (hsought : sought .endIf = true) :
    BranchScan.nested.find sought program (index + 1) =
      BranchScan.linear.find sought program (index + 1) := by
  obtain ⟨opening, ending, hp, hle, hlt⟩ := hb.exists_block hm hend
  have hway : program.OpensNone index ending := by
    intro inner hi hlt'
    exact hf opening ending hp inner (Nat.lt_of_le_of_lt hle hi) hlt'
  have hdistance := nestedDistance_eq_linearDistance hif hp.1 hsought hlt hway
  simp only [BranchScan.find, BranchScan.distance, hdistance]

/-- Behind a line that begins a branch, all ways of scanning come to one line. -/
theorem Flat.find_eq (hf : program.Flat) (hb : program.Balanced)
    (hm : program.marker? index = some marker) (hend : marker ≠ .endIf)
    (hif : sought .ifHolds = false) (hsought : sought .endIf = true) (scan other : BranchScan) :
    scan.find sought program (index + 1) = other.find sought program (index + 1) := by
  have heq := hf.nested_find_eq_linear hb hm hend hif hsought
  cases scan with
  | nested =>
    cases other with
    | nested => rfl
    | linear => exact heq
  | linear =>
    cases other with
    | nested => exact heq.symm
    | linear => rfl

end

end Program

end VisualNovel
