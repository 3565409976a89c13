import VisualNovel.Stage.Reveal

/-!
# How long a text takes

A text that is not ready gets nearer to it with every frame
(`Reveal.patience_update`), and `complete` makes it ready. What `setText` makes
of a reveal depends on its delay alone. A text is ready just when all of it is
shown (`Reveal.Exact`), whatever is done with it.
-/

namespace VisualNovel

namespace Reveal

variable (reveal : Reveal)

theorem isReady_complete : reveal.complete.isReady = true :=
  rfl

theorem update_of_ready (h : reveal.isReady = true) : reveal.update = reveal :=
  if_pos h

theorem isReady_update (h : reveal.isReady = true) : reveal.update.isReady = true := by
  rwa [update_of_ready reveal h]

/-- One frame of a text that is not ready. -/
theorem update_of_not_ready (h : reveal.isReady = false) :
    ∃ shown waited, reveal.update =
        { reveal with shown, waited, isReady := reveal.text.length ≤ shown } ∧
      (reveal.delay ≤ reveal.waited + 1 ∧ shown = reveal.shown + 1 ∧ waited = 0 ∨
        reveal.waited + 1 < reveal.delay ∧ shown = reveal.shown ∧ waited = reveal.waited + 1) := by
  unfold update
  rw [if_neg (by simp [h])]
  by_cases hdue : reveal.delay ≤ reveal.waited + 1
  · rw [if_pos hdue]
    exact ⟨_, _, rfl, .inl ⟨hdue, rfl, rfl⟩⟩
  · rw [if_neg hdue]
    exact ⟨_, _, rfl, .inr ⟨Nat.lt_of_not_le hdue, rfl, rfl⟩⟩

theorem text_update : reveal.update.text = reveal.text := by
  cases h : reveal.isReady with
  | true => rw [update_of_ready reveal h]
  | false =>
    obtain ⟨_, _, heq, -⟩ := reveal.update_of_not_ready h
    rw [heq]

theorem delay_update : reveal.update.delay = reveal.delay := by
  cases h : reveal.isReady with
  | true => rw [update_of_ready reveal h]
  | false =>
    obtain ⟨_, _, heq, -⟩ := reveal.update_of_not_ready h
    rw [heq]

theorem delay_foldl_setText (texts : List String) :
    (texts.foldl setText reveal).delay = reveal.delay := by
  induction texts generalizing reveal with
  | nil => rfl
  | cons text texts ih => exact ih (reveal.setText text)

theorem setText_eq_of_delay {other : Reveal} (h : other.delay = reveal.delay) (text : String) :
    other.setText text = reveal.setText text := by
  simp only [setText, h]

-- ---------------------------------------------------------------------------
-- Patience
-- ---------------------------------------------------------------------------

/-- A bound on the frames until the text is ready. -/
def patience : Nat :=
  if reveal.isReady then 0
  else (reveal.text.length - reveal.shown) * (reveal.delay + 1) +
    (reveal.delay - reveal.waited) + 1

theorem patience_of_ready (h : reveal.isReady = true) : reveal.patience = 0 :=
  if_pos h

theorem patience_of_not_ready (h : reveal.isReady = false) :
    reveal.patience = (reveal.text.length - reveal.shown) * (reveal.delay + 1) +
      (reveal.delay - reveal.waited) + 1 :=
  if_neg (by simp [h])

theorem patience_update (h : reveal.isReady = false) :
    reveal.update.patience < reveal.patience := by
  obtain ⟨shown, waited, heq, hnext⟩ := reveal.update_of_not_ready h
  rw [heq, patience_of_not_ready reveal h]
  by_cases hall : reveal.text.length ≤ shown
  · rw [patience_of_ready _ (decide_eq_true hall)]
    exact Nat.succ_pos _
  · rw [patience_of_not_ready _ (decide_eq_false hall)]
    simp only
    obtain ⟨-, rfl, rfl⟩ | ⟨hlt, rfl, rfl⟩ := hnext
    · -- With a character less to show there is less to wait for.
      obtain ⟨left, hleft⟩ : ∃ left, reveal.text.length - reveal.shown = left + 1 :=
        ⟨reveal.text.length - reveal.shown - 1, by omega⟩
      rw [hleft, Nat.succ_mul, show reveal.text.length - (reveal.shown + 1) = left by omega]
      omega
    · omega

theorem patience_complete (h : reveal.isReady = false) :
    reveal.complete.patience < reveal.patience := by
  rw [patience_of_ready _ reveal.isReady_complete, patience_of_not_ready reveal h]
  exact Nat.succ_pos _

-- ---------------------------------------------------------------------------
-- Ready and shown
-- ---------------------------------------------------------------------------

/-- The text is ready when all of it is shown, and not before. -/
def Exact : Prop :=
  reveal.isReady = true ↔ reveal.text.length ≤ reveal.shown

variable {reveal}

theorem Exact.blank (delay : Nat) : Exact { delay } :=
  ⟨fun _ => Nat.le_refl 0, fun _ => rfl⟩

theorem Exact.setText (reveal : Reveal) (text : String) : (reveal.setText text).Exact := by
  unfold Reveal.setText Exact
  cases hready : reveal.delay = 0 || text.length = 0 with
  | true => simp
  | false =>
    have hlength : text.length ≠ 0 := of_decide_eq_false (Bool.or_eq_false_iff.mp hready).2
    simpa only [Bool.false_eq_true, if_false, false_iff, Nat.le_zero_eq] using hlength

theorem Exact.foldl_setText (h : reveal.Exact) (texts : List String) :
    (texts.foldl Reveal.setText reveal).Exact := by
  induction texts generalizing reveal with
  | nil => exact h
  | cons text texts ih => exact ih (.setText reveal text)

theorem Exact.update (h : reveal.Exact) : reveal.update.Exact := by
  cases hr : reveal.isReady with
  | true => rwa [update_of_ready reveal hr]
  | false =>
    obtain ⟨_, _, heq, -⟩ := reveal.update_of_not_ready hr
    rw [heq]
    exact decide_eq_true_iff

theorem Exact.complete (reveal : Reveal) : reveal.complete.Exact :=
  ⟨fun _ => Nat.le_refl _, fun _ => rfl⟩

theorem Exact.visible (h : reveal.Exact) (hr : reveal.isReady = true) :
    reveal.visible = reveal.text := by
  have hall : reveal.text.toList.length ≤ reveal.shown := by
    rw [String.length_toList]
    exact h.mp hr
  rw [Reveal.visible, List.take_of_length_le hall, String.ofList_toList]

end Reveal

end VisualNovel
