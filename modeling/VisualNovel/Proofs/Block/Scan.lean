import VisualNovel.Proofs.Block.Basic
import VisualNovel.Proofs.Script.ScanLaws

/-!
# Scanning past blocks

A nested scan passes over a block whole, however deep it is in
(`Block.nestedDistance_lines`). From behind the marker of a branch that is not
told it comes to the next branch of the same chain, or to its end
(`Program.HasAt.nextBranch`), and from behind the one that follows a branch told
to the end of the chain (`Program.HasAt.blockEnd`).
-/

namespace VisualNovel

theorem Command.marker?_of_isPlain (h : isPlain command = true) : command.marker? = none := by
  cases command <;> first | rfl | contradiction

namespace PlainLine

theorem marker (line : PlainLine) : Marker.ofLine? line.val = none := by
  rw [Marker.ofLine?_eq]
  cases hc : line.val.command? with
  | none => rfl
  | some command =>
    have hp := line.property
    rw [hc] at hp
    exact Command.marker?_of_isPlain hp

end PlainLine

theorem LineOf.marker (line : LineOf command) : Marker.ofLine? line.val = command.marker? :=
  Marker.ofLine?_of_command line.property

-- ---------------------------------------------------------------------------
-- Over blocks
-- ---------------------------------------------------------------------------

open BranchScan

mutual

theorem Block.nestedDistance_lines (sought : Marker → Bool) (rest : List ScriptLine) :
    ∀ (block : Block) (depth : Nat), nestedDistance sought depth (block.lines ++ rest) =
      block.lines.length + nestedDistance sought depth rest
  | .done, depth => by simp [Block.lines]
  | .plain line below, depth => by
    have ih := below.nestedDistance_lines sought rest depth
    simp only [Block.lines, List.cons_append, List.length_cons,
      nestedDistance_cons_plain line.marker, ih]
    omega
  | .chain _ opening body branches closing below, depth => by
    have hbody := body.nestedDistance_lines sought
      (branches.lines ++ closing.val :: (below.lines ++ rest)) (depth + 1)
    have hbranches := branches.nestedDistance_lines sought
      (closing.val :: (below.lines ++ rest)) depth
    have ih := below.nestedDistance_lines sought rest depth
    simp only [Block.lines, List.cons_append, List.append_assoc, List.length_cons,
      List.length_append, nestedDistance_cons_if opening.marker, hbody, hbranches,
      nestedDistance_cons_endIf closing.marker, ih]
    omega

/-- The branches of a chain the scan is in. -/
theorem Branches.nestedDistance_lines (sought : Marker → Bool) (rest : List ScriptLine) :
    ∀ (branches : Branches) (depth : Nat),
      nestedDistance sought (depth + 1) (branches.lines ++ rest) =
        branches.lines.length + nestedDistance sought (depth + 1) rest
  | .none, depth => by simp [Branches.lines]
  | .elseIf _ line body more, depth => by
    have hbody := body.nestedDistance_lines sought (more.lines ++ rest) (depth + 1)
    have ih := more.nestedDistance_lines sought rest depth
    simp only [Branches.lines, List.cons_append, List.append_assoc, List.length_cons,
      List.length_append, nestedDistance_cons_inner line.marker nofun nofun,
      hbody, ih]
    omega
  | .otherwise line body, depth => by
    have hbody := body.nestedDistance_lines sought rest (depth + 1)
    simp only [Branches.lines, List.cons_append, List.length_cons,
      nestedDistance_cons_inner line.marker nofun nofun, hbody]
    omega

end

-- ---------------------------------------------------------------------------
-- Over branches
-- ---------------------------------------------------------------------------

namespace Branches

/-- Each branch of the chain begins with a marker sought, and the end is one. -/
theorem nextBranch_lines (branches : Branches) (closing : LineOf .endIf)
    (rest : List ScriptLine) :
    nestedDistance Marker.isNextBranch 0 (branches.lines ++ closing.val :: rest) = 0 := by
  cases branches with
  | none => exact nestedDistance_cons_sought closing.marker nofun rfl
  | elseIf _ line _ _ | otherwise line _ =>
    exact nestedDistance_cons_sought line.marker nofun rfl

theorem blockEnd_lines (branches : Branches) (closing : LineOf .endIf)
    (rest : List ScriptLine) :
    nestedDistance Marker.isEndIf 0 (branches.lines ++ closing.val :: rest) =
      branches.lines.length := by
  have hclosing : nestedDistance Marker.isEndIf 0 (closing.val :: rest) = 0 :=
    nestedDistance_cons_sought closing.marker nofun rfl
  match branches with
  | .none => exact hclosing
  | .elseIf _ line body more =>
    have hline (lines) : nestedDistance Marker.isEndIf 0 (line.val :: lines) =
        nestedDistance Marker.isEndIf 0 lines + 1 :=
      nestedDistance_cons_passed line.marker nofun rfl
    have ih := more.blockEnd_lines closing rest
    simp only [lines, List.cons_append, List.append_assoc, List.length_cons, List.length_append,
      hline, Block.nestedDistance_lines, ih]
  | .otherwise line body =>
    have hline (lines) : nestedDistance Marker.isEndIf 0 (line.val :: lines) =
        nestedDistance Marker.isEndIf 0 lines + 1 :=
      nestedDistance_cons_passed line.marker nofun rfl
    simp only [lines, List.cons_append, List.length_cons, hline, Block.nestedDistance_lines,
      hclosing, Nat.add_zero]

end Branches

-- ---------------------------------------------------------------------------
-- Stretches of a program
-- ---------------------------------------------------------------------------

/-- The lines stand in the program from the index on. -/
def Program.HasAt (program : Program) (index : Nat) (lines : List ScriptLine) : Prop :=
  lines <+: program.lines.drop index

namespace Program.HasAt

theorem right (h : HasAt program index (first ++ second)) :
    program.HasAt (index + first.length) second := by
  obtain ⟨rest, h⟩ := h
  refine ⟨rest, ?_⟩
  rw [← List.drop_drop, ← h, List.append_assoc, List.drop_left]

theorem head (h : HasAt program index (line :: below)) :
    program.lines[index]? = some line := by
  obtain ⟨rest, h⟩ := h
  rw [← Nat.add_zero index, ← List.getElem?_drop, ← h]
  rfl

theorem tail (h : HasAt program index (line :: below)) : program.HasAt (index + 1) below :=
  right (List.singleton_append ▸ h)

/-- A scan from behind a line sees the lines that follow it. -/
theorem find (h : HasAt program index (line :: below)) (sought : Marker → Bool) :
    ∃ rest, BranchScan.nested.find sought program (index + 1) =
      index + 1 + nestedDistance sought 0 (below ++ rest) := by
  obtain ⟨rest, hrest⟩ := h.tail
  have hle : index + 1 ≤ program.size := (List.getElem?_eq_some_iff.mp h.head).1
  refine ⟨rest, ?_⟩
  rw [hrest, BranchScan.find, if_pos hle]
  rfl

section
variable {line : ScriptLine} {body : Block} {branches : Branches} {closing : LineOf .endIf}
  (h : HasAt program index (line :: (body.lines ++ (branches.lines ++ closing.val :: below))))
include h

theorem nextBranch :
    BranchScan.nested.nextBranch program (index + 1) = index + 1 + body.lines.length := by
  obtain ⟨rest, hfind⟩ := h.find Marker.isNextBranch
  rw [BranchScan.nextBranch, hfind, List.append_assoc, List.append_assoc, List.cons_append,
    body.nestedDistance_lines, branches.nextBranch_lines]
  rfl

theorem blockEnd :
    BranchScan.nested.blockEnd program (index + 1) =
      index + 1 + body.lines.length + branches.lines.length := by
  obtain ⟨rest, hfind⟩ := h.find Marker.isEndIf
  rw [BranchScan.blockEnd, hfind, List.append_assoc, List.append_assoc, List.cons_append,
    body.nestedDistance_lines, branches.blockEnd_lines, Nat.add_assoc _ body.lines.length]

end

end Program.HasAt

end VisualNovel
