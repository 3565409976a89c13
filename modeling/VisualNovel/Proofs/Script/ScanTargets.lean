import VisualNovel.Proofs.Script.Pairing

/-!
# What a scan finds

A nested scan comes to the first marker it seeks before which every block opened
on the way is ended and no other block is; a linear scan comes to the first marker
it seeks (`BranchScan.scans_find_first`). Depth is counted, so the statement about
lists is for a scan that starts inside any number of blocks.
-/

namespace VisualNovel

namespace Marker

/-- How many of the lines are the marker. -/
def count (marker : Marker) (lines : List ScriptLine) : Nat :=
  lines.countP (ofLine? · = some marker)

@[simp] theorem count_nil (marker : Marker) : marker.count [] = 0 := rfl

@[simp] theorem count_cons (marker : Marker) (line : ScriptLine) (rest : List ScriptLine) :
    marker.count (line :: rest) =
      marker.count rest + if ofLine? line = some marker then 1 else 0 := by
  simp [count, List.countP_cons]

end Marker

/-- From inside `depth` blocks, the lines end no block but those and the ones they
open, and have ended them all when they are passed. -/
structure Level (depth : Nat) (passed : List ScriptLine) : Prop where
  above : ∀ part, part <+: passed → Marker.endIf.count part ≤ depth + Marker.ifHolds.count part
  settled : Marker.endIf.count passed = depth + Marker.ifHolds.count passed

/-- The index is the first of those with the property, if there is any below `size`. -/
structure IsFirst (P : Nat → Prop) (size index : Nat) : Prop where
  holds : index < size → P index
  first : ∀ other, P other → index ≤ other

theorem IsFirst.succ (h : IsFirst P size index) (hzero : ¬ Q 0) (hsucc : ∀ k, Q (k + 1) ↔ P k) :
    IsFirst Q (size + 1) (index + 1) := by
  refine ⟨fun hlt => (hsucc index).mpr (h.holds (Nat.lt_of_succ_lt_succ hlt)), ?_⟩
  intro other hother
  cases other with
  | zero => exact absurd hother hzero
  | succ k => exact Nat.succ_le_succ (h.first k ((hsucc k).mp hother))

theorem IsFirst.zero (h : P 0) : IsFirst P size 0 :=
  ⟨fun _ => h, fun _ _ => Nat.zero_le _⟩

-- ---------------------------------------------------------------------------
-- Lines passed
-- ---------------------------------------------------------------------------

namespace Level

theorem forall_prefix_cons {P : List α → Prop} {x : α} {xs : List α} :
    (∀ part, part <+: x :: xs → P part) ↔ P [] ∧ ∀ part, part <+: xs → P (x :: part) := by
  simp only [List.prefix_cons_iff]
  constructor
  · intro h
    exact ⟨h [] (.inl rfl), fun part hp => h _ (.inr ⟨part, rfl, hp⟩)⟩
  · rintro ⟨hnil, hcons⟩ part (rfl | ⟨part, rfl, hp⟩)
    · exact hnil
    · exact hcons part hp

theorem nil_iff : Level depth [] ↔ depth = 0 := by
  constructor
  · intro h
    simpa using h.settled.symm
  · rintro rfl
    exact ⟨by simp, rfl⟩

/-- Behind the line one is inside `inner` blocks. -/
theorem cons_iff {inner : Nat}
    (h : inner + Marker.endIf.count [line] = depth + Marker.ifHolds.count [line]) :
    Level depth (line :: rest) ↔ Level inner rest := by
  simp only [Marker.count_cons, Marker.count_nil, Nat.zero_add] at h
  constructor
  · rintro ⟨above, settled⟩
    obtain ⟨-, above⟩ := forall_prefix_cons.mp above
    simp only [Marker.count_cons] at above settled
    refine ⟨fun part hp => ?_, by omega⟩
    have := above part hp
    omega
  · rintro ⟨above, settled⟩
    refine ⟨forall_prefix_cons.mpr ⟨by simp, fun part hp => ?_⟩, ?_⟩
    · have := above part hp
      simp only [Marker.count_cons]
      omega
    · simp only [Marker.count_cons]
      omega

end Level

/-- The lines from the first index up to the second. -/
def Program.between (program : Program) (start index : Nat) : List ScriptLine :=
  (program.lines.drop start).take (index - start)

-- ---------------------------------------------------------------------------
-- Scans of lists
-- ---------------------------------------------------------------------------

namespace BranchScan

/-- The line at the index is a marker that is sought. -/
def SoughtAt (sought : Marker → Bool) (lines : List ScriptLine) (index : Nat) : Prop :=
  ∃ marker, (lines[index]?).bind Marker.ofLine? = some marker ∧ sought marker = true

theorem soughtAt_cons_zero :
    SoughtAt sought (line :: rest) 0 ↔
      ∃ marker, Marker.ofLine? line = some marker ∧ sought marker = true := by
  simp [SoughtAt]

theorem soughtAt_cons_succ :
    SoughtAt sought (line :: rest) (index + 1) ↔ SoughtAt sought rest index := by
  simp [SoughtAt]

theorem linearDistance_first (sought : Marker → Bool) (lines : List ScriptLine) :
    IsFirst (SoughtAt sought lines) lines.length (linearDistance sought lines) := by
  induction lines with
  | nil => exact ⟨fun h => absurd h (Nat.lt_irrefl _), fun _ _ => Nat.zero_le _⟩
  | cons line rest ih =>
    by_cases h : ∃ marker, Marker.ofLine? line = some marker ∧ sought marker = true
    · obtain ⟨marker, hm, hs⟩ := h
      rw [linearDistance_cons_sought hm hs]
      exact .zero (soughtAt_cons_zero.mpr ⟨marker, hm, hs⟩)
    · rw [linearDistance_cons_passed fun marker hm =>
        Bool.eq_false_iff.mpr fun hs => h ⟨marker, hm, hs⟩]
      exact ih.succ (fun h0 => h (soughtAt_cons_zero.mp h0)) fun _ => soughtAt_cons_succ

/-- A scan from inside `depth` blocks seeks the ends of blocks at least, and passes
over whole blocks. -/
theorem nestedDistance_first (hif : sought .ifHolds = false) (hend : sought .endIf = true)
    (depth : Nat) (lines : List ScriptLine) :
    IsFirst (fun index => SoughtAt sought lines index ∧ Level depth (lines.take index))
      lines.length (nestedDistance sought depth lines) := by
  induction lines generalizing depth with
  | nil => exact ⟨fun h => absurd h (Nat.lt_irrefl _), fun _ _ => Nat.zero_le _⟩
  | cons line rest ih =>
    -- A line passed over leaves the scan inside so many blocks.
    have passed (inner : Nat)
        (hdistance : nestedDistance sought depth (line :: rest) =
          nestedDistance sought inner rest + 1)
        (hhere : ¬ (SoughtAt sought (line :: rest) 0 ∧ depth = 0))
        (hlevel : ∀ more, Level depth (line :: more) ↔ Level inner more) :
        IsFirst (fun index => SoughtAt sought (line :: rest) index ∧
            Level depth ((line :: rest).take index))
          (line :: rest).length (nestedDistance sought depth (line :: rest)) := by
      rw [hdistance]
      refine (ih inner).succ ?_ fun k => ?_
      · rwa [List.take_zero, Level.nil_iff]
      · rw [soughtAt_cons_succ, List.take_succ_cons, hlevel]
    cases hm : Marker.ofLine? line with
    | none =>
      exact passed depth (nestedDistance_cons_plain hm) (by simp [soughtAt_cons_zero, hm])
        fun _ => Level.cons_iff (by simp [hm])
    | some marker =>
      by_cases hmif : marker = .ifHolds
      · subst hmif
        exact passed (depth + 1) (nestedDistance_cons_if hm) (by simp [soughtAt_cons_zero, hm, hif])
          fun _ => Level.cons_iff (by simp [hm])
      cases depth with
      | zero =>
        by_cases hs : sought marker = true
        · rw [nestedDistance_cons_sought hm hmif hs]
          exact .zero ⟨soughtAt_cons_zero.mpr ⟨_, hm, hs⟩, Level.nil_iff.mpr rfl⟩
        · have hmend : marker ≠ .endIf := by
            rintro rfl
            exact hs hend
          exact passed 0 (nestedDistance_cons_passed hm hmif (Bool.eq_false_iff.mpr hs))
            (by simp [soughtAt_cons_zero, hm, hs]) fun _ => Level.cons_iff (by simp [hm, hmif, hmend])
      | succ depth =>
        by_cases hmend : marker = .endIf
        · subst hmend
          exact passed depth (nestedDistance_cons_endIf hm) (by simp)
            fun _ => Level.cons_iff (by simp [hm])
        · exact passed (depth + 1) (nestedDistance_cons_inner hm hmif hmend) (by simp)
            fun _ => Level.cons_iff (by simp [hm, hmif, hmend])

-- ---------------------------------------------------------------------------
-- Scans of programs
-- ---------------------------------------------------------------------------

/-- A line at which the scan may go on: a marker that is sought and, for a nested scan,
one before which all blocks opened behind `start` are ended, and no others. -/
def Candidate (scan : BranchScan) (sought : Marker → Bool) (program : Program)
    (start index : Nat) : Prop :=
  start ≤ index ∧ SoughtAt sought program.lines index ∧
    (scan = .nested → Level 0 (program.between start index))

/-- The first candidate is found, and the end of the program if there is none or the
scan starts behind it. -/
structure FindsFirst (scan : BranchScan) (sought : Marker → Bool) (program : Program)
    (start found : Nat) : Prop where
  le_size : found ≤ program.size
  start_le : start ≤ program.size → start ≤ found
  candidate : found < program.size → scan.Candidate sought program start found
  first : ∀ index, scan.Candidate sought program start index → found ≤ index ∧ found < program.size
  beyond : program.size < start → found = program.size

section
variable {program : Program}

theorem candidate_add :
    Candidate scan sought program start (start + passed) ↔
      SoughtAt sought (program.lines.drop start) passed ∧
        (scan = .nested → Level 0 ((program.lines.drop start).take passed)) := by
  simp [Candidate, SoughtAt, Program.between]

theorem Candidate.lt_size (h : Candidate scan sought program start index) :
    index < program.size := by
  obtain ⟨-, ⟨_, hm, -⟩, -⟩ := h
  exact Program.lt_size_of_marker? hm

theorem distance_first (scan : BranchScan) (hif : sought .ifHolds = false)
    (hend : sought .endIf = true) (program : Program) (start : Nat) :
    IsFirst (fun passed => scan.Candidate sought program start (start + passed))
      (program.lines.drop start).length (scan.distance sought (program.lines.drop start)) := by
  simp only [candidate_add]
  cases scan with
  | nested => simpa [distance] using nestedDistance_first hif hend 0 (program.lines.drop start)
  | linear => simpa [distance] using linearDistance_first sought (program.lines.drop start)

theorem find_first (scan : BranchScan) (hif : sought .ifHolds = false)
    (hend : sought .endIf = true) (program : Program) (start : Nat) :
    scan.FindsFirst sought program start (scan.find sought program start) := by
  by_cases hle : start ≤ program.size
  · obtain ⟨holds, first⟩ := scan.distance_first hif hend program start
    rw [List.length_drop] at holds
    have hfind : scan.find sought program start =
        start + scan.distance sought (program.lines.drop start) := if_pos hle
    rw [hfind]
    refine ⟨hfind ▸ scan.find_le sought program start, fun _ => Nat.le_add_right .., ?_, ?_,
      fun h => absurd hle (Nat.not_le.mpr h)⟩
    · intro hlt
      exact holds (Nat.lt_sub_of_add_lt (Nat.add_comm start _ ▸ hlt))
    · intro index hc
      obtain ⟨passed, rfl⟩ := Nat.exists_eq_add_of_le hc.1
      have hpassed := Nat.add_le_add_left (first passed hc) start
      exact ⟨hpassed, Nat.lt_of_le_of_lt hpassed hc.lt_size⟩
  · have hfind : scan.find sought program start = program.size := if_neg hle
    rw [hfind]
    refine ⟨Nat.le_refl _, fun h => absurd h hle, fun h => absurd h (Nat.lt_irrefl _), ?_,
      fun _ => rfl⟩
    intro index hc
    exact absurd (Nat.le_trans hc.1 (Nat.le_of_lt hc.lt_size)) hle

end

/-- Where another branch can begin, and where the block ends, are found by either
scan from any line. -/
theorem scans_find_first (scan : BranchScan) (program : Program) (start : Nat) :
    scan.FindsFirst Marker.isNextBranch program start (scan.nextBranch program start) ∧
      scan.FindsFirst Marker.isEndIf program start (scan.blockEnd program start) :=
  ⟨scan.find_first rfl rfl program start, scan.find_first rfl rfl program start⟩

/-- A nested scan passes over two whole blocks, one behind the other. -/
example :
    let program : Program :=
      ⟨[⟨1, "@if a"⟩, ⟨2, "@else"⟩, ⟨3, "@endif"⟩, ⟨4, "@if b"⟩, ⟨5, "@endif"⟩, ⟨6, "@else"⟩]⟩
    BranchScan.nested.nextBranch program 0 = 5 ∧ BranchScan.linear.nextBranch program 0 = 1 := by
  decide +kernel

end BranchScan

end VisualNovel
