import VisualNovel.Stage.Menu

/-!
# Pointing at a menu

A button ends above the one below it begins, so no two of them have a point in common
(`Menu.buttonsFrom_above`). A point is then a hit on the one button it lies in
(`Menu.hitTest_eq_some_iff`), and the pointer put on the middle of a button hits that button
and no other (`Menu.pointAt_layout`).
-/

namespace VisualNovel

-- ---------------------------------------------------------------------------
-- Rectangles
-- ---------------------------------------------------------------------------

namespace Rect

/-- It ends before the other begins, the borders of both included. -/
def Above (upper lower : Rect) : Prop :=
  upper.y + upper.height < lower.y

/-- No point lies in both. -/
def Apart (a b : Rect) : Prop :=
  ∀ x y, ¬ (a.contains x y = true ∧ b.contains x y = true)

section
variable {rect : Rect} {x y : Int}

theorem contains_iff : rect.contains x y = true ↔
    (rect.x ≤ x ∧ x ≤ rect.x + rect.width) ∧ rect.y ≤ y ∧ y ≤ rect.y + rect.height := by
  simp only [contains, Bool.and_eq_true, decide_eq_true_eq, and_assoc]

theorem contains_centre (hwidth : 0 ≤ rect.width) (hheight : 0 ≤ rect.height) :
    rect.contains rect.centre.1 rect.centre.2 = true := by
  have hx : rect.centre.1 = rect.x + rect.width / 2 :=
    congrArg (rect.x + ·) (Int.tdiv_eq_ediv_of_nonneg hwidth)
  have hy : rect.centre.2 = rect.y + rect.height / 2 :=
    congrArg (rect.y + ·) (Int.tdiv_eq_ediv_of_nonneg hheight)
  rw [contains_iff, hx, hy]
  omega

end

theorem Above.apart {upper lower : Rect} (h : upper.Above lower) : upper.Apart lower := by
  intro x y ⟨hupper, hlower⟩
  have hends := (contains_iff.mp hupper).2.2
  have hbegins := (contains_iff.mp hlower).2.1
  unfold Above at h
  omega

end Rect

namespace Menu

-- ---------------------------------------------------------------------------
-- Buttons
-- ---------------------------------------------------------------------------

theorem textWidth_nonneg (text : String) : 0 ≤ textWidth text := by
  have hmax : maxCoordinate = 2147483647 := rfl
  simp only [textWidth, charWidth]
  omega

theorem button_width_nonneg (screenWidth : Nat) (y : Int) (choice : Choice) :
    0 ≤ (button screenWidth y choice).width := by
  have htext := textWidth_nonneg choice.text
  simp only [button, padding]
  omega

theorem length_buttonsFrom (screenWidth : Nat) (y : Int) (choices : List Choice) :
    (buttonsFrom screenWidth y choices).length = choices.length := by
  induction choices generalizing y with
  | nil => rfl
  | cons _ _ ih => simp [buttonsFrom, ih]

theorem exists_button_of_mem {choices : List Choice}
    (h : rect ∈ buttonsFrom screenWidth y choices) :
    ∃ row choice, y ≤ row ∧ rect = button screenWidth row choice := by
  induction choices generalizing y with
  | nil => cases h
  | cons choice choices ih =>
    rcases List.mem_cons.mp h with rfl | h
    · exact ⟨y, choice, Int.le_refl y, rfl⟩
    · obtain ⟨row, other, hrow, rfl⟩ := ih h
      have hpitch : pitch = 44 := rfl
      exact ⟨row, other, by omega, rfl⟩

/-- What is left between two rows is more than the border of a button. -/
theorem buttonsFrom_above (screenWidth : Nat) (y : Int) (choices : List Choice) :
    (buttonsFrom screenWidth y choices).Pairwise Rect.Above := by
  induction choices generalizing y with
  | nil => exact .nil
  | cons choice choices ih =>
    refine .cons (fun rect hrect => ?_) (ih (y + pitch))
    obtain ⟨row, other, hrow, rfl⟩ := exists_button_of_mem hrect
    have hpitch : pitch = 44 := rfl
    have hheight : buttonHeight = 34 := rfl
    simp only [Rect.Above, button]
    omega

-- ---------------------------------------------------------------------------
-- Hits
-- ---------------------------------------------------------------------------

theorem hitTest_eq_some_iff {menu : Menu} {x y : Int} (h : menu.rects.Pairwise Rect.Apart) :
    menu.hitTest x y = some index ↔
      ∃ rect, menu.rects[index]? = some rect ∧ rect.contains x y = true := by
  rw [hitTest, List.findIdx?_eq_some_iff_getElem]
  constructor
  · rintro ⟨hlt, hhit, -⟩
    exact ⟨_, List.getElem?_eq_getElem hlt, hhit⟩
  · rintro ⟨rect, hrect, hhit⟩
    obtain ⟨hlt, rfl⟩ := List.getElem?_eq_some_iff.mp hrect
    refine ⟨hlt, hhit, fun row hrow hother => ?_⟩
    exact List.pairwise_iff_getElem.mp h row index _ hlt hrow x y ⟨hother, hhit⟩

theorem layout_apart (choices : List Choice) (screenWidth : Nat) :
    (layout choices screenWidth).rects.Pairwise Rect.Apart :=
  (buttonsFrom_above screenWidth top choices).imp Rect.Above.apart

/-- A button is hit in its middle. -/
theorem hitTest_centre {choices : List Choice}
    (h : (layout choices screenWidth).rects[index]? = some rect) :
    (layout choices screenWidth).hitTest rect.centre.1 rect.centre.2 = some index := by
  obtain ⟨row, choice, -, hbutton⟩ := exists_button_of_mem (List.mem_of_getElem? h)
  have hwidth : 0 ≤ rect.width := hbutton ▸ button_width_nonneg screenWidth row choice
  have hheight : 0 ≤ rect.height := hbutton ▸ show 0 ≤ buttonHeight by decide
  exact (hitTest_eq_some_iff (layout_apart ..)).mpr ⟨rect, h, rect.contains_centre hwidth hheight⟩

theorem pointAt_layout (choices : List Choice) (screenWidth index : Nat) :
    (layout choices screenWidth).pointAt index =
      if index < choices.length then some index else none := by
  have hlength : (layout choices screenWidth).rects.length = choices.length :=
    length_buttonsFrom ..
  unfold pointAt
  cases hrect : (layout choices screenWidth).rects[index]? with
  | none => rw [if_neg (Nat.not_lt.mpr (hlength ▸ List.getElem?_eq_none_iff.mp hrect))]; rfl
  | some rect =>
    rw [if_pos (hlength ▸ (List.getElem?_eq_some_iff.mp hrect).1)]
    exact hitTest_centre hrect

end Menu

end VisualNovel
