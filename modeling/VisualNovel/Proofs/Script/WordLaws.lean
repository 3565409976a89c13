import VisualNovel.Proofs.Text.Words
import VisualNovel.Script.Reading

/-!
# The labels a command names

A label named by a command is one of its words, so it is looked up as it stands
(`trim_of_mem_targets`).
-/

namespace VisualNovel

namespace Reading

theorem target_mem_of_options (h : choice ∈ (options group args).value) : choice.target ∈ args := by
  induction group, args using options.induct with
  | case1 => simp [options] at h
  | case2 group text label rest ih =>
    simp only [options, if_true, map, List.mem_cons] at h
    rcases h with rfl | h
    · simp
    · simp [ih h]
  | case3 group text arrow label rest harrow => simp [options, harrow] at h
  | case4 group chunk hnil hthree =>
    rw [options] at h
    · simp at h
    · exact hnil
    · exact hthree

theorem targets_background : (background args).value.targets = [] := by
  unfold background
  split
  · rfl
  · split <;> rfl

theorem targets_character : (character args).value.targets = [] := by
  unfold character
  split
  · rfl
  · split <;> rfl

theorem targets_affection : (affection args).value.targets = [] := by
  unfold affection
  split <;> rfl

theorem targets_clear : (clear args).value.targets = [] := by
  unfold clear
  split <;> rfl

theorem mem_of_targets (h : label ∈ (ofWords words).value.targets) : label ∈ words := by
  unfold ofWords at h
  split at h
  case h_2 => simp [targets_background] at h
  case h_3 => simp [targets_character] at h
  case h_4 =>
    obtain ⟨choice, hchoice, rfl⟩ := List.mem_map.mp h
    exact List.mem_cons_of_mem _ (target_mem_of_options hchoice)
  case h_5 => simp [targets_affection] at h
  case h_10 args =>
    cases args with
    | nil => simp [jump, refused, Command.targets] at h
    | cons first rest => simp_all [jump, Command.targets]
  case h_11 => simp [targets_clear] at h
  all_goals simp [refused, map, Command.targets] at h

end Reading

/-- A label is looked up as the command names it. -/
theorem Command.trim_of_mem_targets (h : label ∈ (read body).value.targets) :
    Text.trim label = label :=
  Text.trim_of_mem_words (Reading.mem_of_targets h)

end VisualNovel
