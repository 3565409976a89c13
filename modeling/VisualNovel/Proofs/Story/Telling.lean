import VisualNovel.Proofs.Story.Tale

/-!
# Tellings

A tale told frame by frame, a few beats in one frame and none in another. A
`Telling` is any host that in every frame gets on with the tale or comes nearer
to doing so; it may have to wait, but not for ever (`Telling.exists_stop`). Two
tellings of a tale stop alike, if one stops at all (`Telling.stops_alike`).
-/

namespace VisualNovel

/-- A host that tells a tale. -/
structure Telling (tale : Tale) (φ : Type) where
  frame : φ → Option Stop × φ
  /-- So many beats have been told. -/
  At : φ → Nat → Prop
  /-- How many frames may pass at most until the tale goes on. -/
  patience : φ → Nat
  stops : At state beats → (frame state).1 = some stop →
    ∃ more, At (frame state).2 more ∧ tale.StopsBy more stop
  goes : At state beats → (frame state).1 = none →
    (∃ more, beats < more ∧ At (frame state).2 more ∧ ∀ stop, ¬tale.StopsBy beats stop) ∨
      At (frame state).2 beats ∧ patience (frame state).2 < patience state

namespace Telling

/-- As many frames, or fewer if the tale stops before. -/
def run (telling : Telling tale φ) : Nat → φ → Option Stop × φ
  | 0, state => (none, state)
  | frames + 1, state =>
    match (telling.frame state).1 with
    | some stop => (some stop, (telling.frame state).2)
    | none => run telling frames (telling.frame state).2

section
variable (telling : Telling tale φ)

theorem run_of_stop (h : (telling.frame state).1 = some stop) (frames : Nat) :
    telling.run (frames + 1) state = (some stop, (telling.frame state).2) := by
  simp only [run, h]

theorem run_of_go (h : (telling.frame state).1 = none) (frames : Nat) :
    telling.run (frames + 1) state = telling.run frames (telling.frame state).2 := by
  simp only [run, h]

/-- Wherever a run has come to, so many beats have been told. -/
theorem run_at (h : telling.At state beats) (frames : Nat) :
    ∃ more, telling.At (telling.run frames state).2 more ∧
      ∀ stop, (telling.run frames state).1 = some stop → tale.StopsBy more stop := by
  induction frames generalizing state beats with
  | zero => exact ⟨beats, h, nofun⟩
  | succ frames ih =>
    cases hf : (telling.frame state).1 with
    | none =>
      rw [run_of_go telling hf]
      obtain ⟨more, -, hnext, -⟩ | ⟨hnext, -⟩ := telling.goes h hf
      · exact ih hnext
      · exact ih hnext
    | some stop =>
      rw [run_of_stop telling hf]
      obtain ⟨more, hnext, hstop⟩ := telling.stops h hf
      exact ⟨more, hnext, fun _ heq => Option.some.inj heq ▸ hstop⟩

/-- More frames change nothing about a tale that has stopped. -/
theorem run_of_le (h : (telling.run frames state).1 = some stop) (hle : frames ≤ more) :
    telling.run more state = telling.run frames state := by
  induction frames generalizing state more with
  | zero => simp [run] at h
  | succ frames ih =>
    obtain ⟨more, rfl⟩ : ∃ rest, more = rest + 1 := ⟨more - 1, by omega⟩
    cases hf : (telling.frame state).1 with
    | none =>
      rw [run_of_go telling hf] at h
      rw [run_of_go telling hf, run_of_go telling hf, ih h (by omega)]
    | some stop => rw [run_of_stop telling hf, run_of_stop telling hf]

/-- A tale that has an end is told to its end. Every frame leaves fewer beats to
tell, or as many and less to wait for. -/
theorem exists_stop (h : telling.At state beats) (hend : tale.StopsBy last stop) :
    ∃ frames, (telling.run frames state).1.isSome := by
  cases hf : (telling.frame state).1 with
  | none =>
    obtain ⟨more, hlt, hnext, hgo⟩ | ⟨hnext, hlt⟩ := telling.goes h hf
    · have hbefore : beats < last := by
        refine Nat.lt_of_not_le fun hle => hgo stop ?_
        rw [Tale.StopsBy, hend.tell_eq hle]
        exact hend
      obtain ⟨frames, hrun⟩ := exists_stop hnext hend
      exact ⟨frames + 1, run_of_go telling hf frames ▸ hrun⟩
    · obtain ⟨frames, hrun⟩ := exists_stop hnext hend
      exact ⟨frames + 1, run_of_go telling hf frames ▸ hrun⟩
  | some stop => exact ⟨1, by rw [run_of_stop telling hf]; rfl⟩
termination_by (last - beats, telling.patience state)
decreasing_by
  · exact Prod.Lex.left _ _ (by omega)
  · exact Prod.Lex.right _ hlt

end

section
variable (left : Telling tale φ) (right : Telling tale ψ)

/-- Two tellings that have stopped have stopped at the same beat. -/
theorem stopped_alike (hp : left.At p beats) (hq : right.At q beats')
    (h : (left.run frames p).1 = some stop) (h' : (right.run frames' q).1 = some stop') :
    stop' = stop ∧ ∃ last last', left.At (left.run frames p).2 last ∧
      right.At (right.run frames' q).2 last' ∧ tale.tell last' = tale.tell last := by
  obtain ⟨last, hlast, hstop⟩ := left.run_at hp frames
  obtain ⟨last', hlast', hstop'⟩ := right.run_at hq frames'
  obtain ⟨htell, heq⟩ := (hstop stop h).unique (hstop' stop' h')
  exact ⟨heq, last, last', hlast, hlast', htell⟩

/-- When one telling has stopped, the other needs but frames enough to stop, too. -/
theorem stops_alike (hp : left.At p beats) (hq : right.At q beats')
    (h : (left.run frames p).1 = some stop) :
    ∃ enough, ∀ frames', enough ≤ frames' → (right.run frames' q).1 = some stop := by
  obtain ⟨last, -, hstop⟩ := left.run_at hp frames
  obtain ⟨enough, hsome⟩ := right.exists_stop hq (hstop stop h)
  obtain ⟨stop', hstop'⟩ := Option.isSome_iff_exists.mp hsome
  obtain ⟨rfl, -⟩ := stopped_alike left right hp hq h hstop'
  exact ⟨enough, fun frames' hle => by rw [right.run_of_le hstop' hle, hstop']⟩

end

end Telling

end VisualNovel
