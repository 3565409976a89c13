import Mathlib.Data.List.TakeWhile
import VisualNovel.Text.Blank

/-!
# Trimming

Trimming takes the blanks at both ends away and nothing else (`trimmed_trimList`), so
there is nothing to be taken away a second time (`trimList_trimList`).
-/

namespace VisualNovel.Text

/-- There is no blank at either end. -/
structure Bare (cs : List Char) : Prop where
  head : ∀ c, cs.head? = some c → isBlank c = false
  last : ∀ c, cs.getLast? = some c → isBlank c = false

/-- What is left without the blanks at both ends. -/
structure Trimmed (raw cs : List Char) : Prop where
  bare : Bare cs
  blanks : ∃ left right, raw = left ++ cs ++ right ∧
    (∀ c ∈ left, isBlank c = true) ∧ ∀ c ∈ right, isBlank c = true

variable {cs : List Char}

theorem head?_dropWhile_isBlank (h : (cs.dropWhile isBlank).head? = some c) :
    isBlank c = false := by
  have hhead := List.head?_dropWhile_not isBlank cs
  rwa [h] at hhead

theorem dropWhile_isBlank_of_head (h : ∀ c, cs.head? = some c → isBlank c = false) :
    cs.dropWhile isBlank = cs := by
  cases cs with
  | nil => rfl
  | cons c cs => simp [h c rfl]

theorem Bare.trimList_eq (h : Bare cs) : trimList cs = cs := by
  have hlast : ∀ c, cs.reverse.head? = some c → isBlank c = false := by
    simpa [List.head?_reverse] using h.last
  rw [trimList, dropWhile_isBlank_of_head h.head, dropWhile_isBlank_of_head hlast,
    List.reverse_reverse]

theorem bare_trimList (cs : List Char) : Bare (trimList cs) := by
  refine ⟨fun c hc => ?_, fun c hc => ?_⟩
  · have hpre : trimList cs <+: cs.dropWhile isBlank := by
      rw [← List.reverse_suffix, trimList, List.reverse_reverse]
      exact List.dropWhile_suffix _
    obtain ⟨after, hafter⟩ := hpre
    have hhead : (cs.dropWhile isBlank).head? = some c := by
      rw [← hafter, List.head?_append, hc, Option.some_or]
    exact head?_dropWhile_isBlank hhead
  · rw [trimList, List.getLast?_reverse] at hc
    exact head?_dropWhile_isBlank hc

theorem trimList_trimList (cs : List Char) : trimList (trimList cs) = trimList cs :=
  (bare_trimList cs).trimList_eq

theorem trimmed_trimList (cs : List Char) : Trimmed cs (trimList cs) := by
  let kept := cs.dropWhile isBlank
  have hkept : kept = trimList cs ++ (kept.reverse.takeWhile isBlank).reverse := by
    rw [trimList, ← List.reverse_append, List.takeWhile_append_dropWhile, List.reverse_reverse]
  refine ⟨bare_trimList cs, cs.takeWhile isBlank, (kept.reverse.takeWhile isBlank).reverse, ?_,
    fun _ => List.mem_takeWhile_imp, fun c hc => ?_⟩
  · rw [List.append_assoc, ← hkept, List.takeWhile_append_dropWhile]
  · exact List.mem_takeWhile_imp (List.mem_reverse.mp hc)

theorem mem_of_mem_trimList (h : c ∈ trimList cs) : c ∈ cs := by
  obtain ⟨-, left, right, hcs, -, -⟩ := trimmed_trimList cs
  rw [hcs]
  exact List.mem_append_left _ (List.mem_append_right _ h)

end VisualNovel.Text
