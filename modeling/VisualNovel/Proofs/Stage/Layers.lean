import VisualNovel.Stage.Mask

/-!
# What layers hold

A layer holds things of several kinds, a background, a character and an overlay. All
changes go through `Scene.modifyLayer`; what one of them does to a kind follows from
what its function does to it: keep it, take it away or put another in its place.
-/

namespace VisualNovel

namespace Scene

/-- What the layer at the index holds of one kind. -/
def held (scene : Scene) (kind : Layer → Option α) (index : Nat) : Option α :=
  scene.layers[index]?.bind kind

section
variable {scene : Scene} {kind : Layer → Option α} {f : Layer → Layer}

theorem held_of_layers {next : Scene} (h : next.layers = scene.layers) (index : Nat) :
    next.held kind index = scene.held kind index := by
  rw [held, h, held]

theorem atLayer_of_lt {changed : Scene} (h : index < scene.layerCount) :
    scene.atLayer index changed = .ok changed :=
  if_pos h

theorem atLayer_eq_ok {changed next : Scene} :
    scene.atLayer index changed = .ok next ↔ index < scene.layerCount ∧ changed = next := by
  by_cases h : index < scene.layerCount <;> simp [atLayer, h]

theorem layerCount_modifyLayer (scene : Scene) (index : Nat) (f : Layer → Layer) :
    (scene.modifyLayer index f).layerCount = scene.layerCount := by
  simp [modifyLayer, layerCount]

theorem layerCount_modifyLayer? (scene : Scene) (index : Option Nat) (f : Layer → Layer) :
    (scene.modifyLayer? index f).layerCount = scene.layerCount := by
  cases index with
  | none => rfl
  | some index => exact scene.layerCount_modifyLayer index f

theorem layerCount_exchange (scene : Scene) (last : Option Nat) (take : Layer → Layer)
    (index : Nat) (fill : Layer → Layer) :
    (scene.exchange last take index fill).layerCount = scene.layerCount :=
  (layerCount_modifyLayer ..).trans (layerCount_modifyLayer? ..)

theorem imageLayer_modifyLayer? (scene : Scene) (index : Option Nat) (f : Layer → Layer) :
    (scene.modifyLayer? index f).imageLayer = scene.imageLayer := by
  cases index <;> rfl

theorem characterLayer_modifyLayer? (scene : Scene) (index : Option Nat) (f : Layer → Layer) :
    (scene.modifyLayer? index f).characterLayer = scene.characterLayer := by
  cases index <;> rfl

theorem held_modifyLayer (scene : Scene) (kind : Layer → Option α) (changed : Nat)
    (f : Layer → Layer) (index : Nat) : (scene.modifyLayer changed f).held kind index =
      if changed = index then scene.held (kind ∘ f) index else scene.held kind index := by
  by_cases h : changed = index
  · simp [held, modifyLayer, h, Option.bind_map]
  · simp [held, modifyLayer, h]

theorem held_modifyLayer_of_kept (h : ∀ layer, kind (f layer) = kind layer) (scene : Scene)
    (changed index : Nat) : (scene.modifyLayer changed f).held kind index =
      scene.held kind index := by
  rw [held_modifyLayer, show kind ∘ f = kind from funext h, ite_self]

theorem held_modifyLayer?_of_kept (h : ∀ layer, kind (f layer) = kind layer) (scene : Scene)
    (changed : Option Nat) (index : Nat) :
    (scene.modifyLayer? changed f).held kind index = scene.held kind index := by
  cases changed with
  | none => rfl
  | some changed => exact held_modifyLayer_of_kept h scene changed index

theorem held_modifyLayer_of_taken (h : ∀ layer, kind (f layer) = none) (scene : Scene)
    (changed index : Nat) : (scene.modifyLayer changed f).held kind index =
      if changed = index then none else scene.held kind index := by
  rw [held_modifyLayer, show kind ∘ f = fun _ => none from funext h]
  simp [held]

theorem held_modifyLayer?_of_taken (h : ∀ layer, kind (f layer) = none) (scene : Scene)
    (changed : Option Nat) (index : Nat) : (scene.modifyLayer? changed f).held kind index =
      if changed = some index then none else scene.held kind index := by
  cases changed with
  | none => rfl
  | some changed => simp [modifyLayer?, held_modifyLayer_of_taken h]

theorem held_modifyLayer_of_put (h : ∀ layer, kind (f layer) = content)
    (hlt : changed < scene.layerCount) (index : Nat) :
    (scene.modifyLayer changed f).held kind index =
      if changed = index then content else scene.held kind index := by
  rw [held_modifyLayer]
  split
  next heq => simp [held, ← heq, List.getElem?_eq_getElem hlt, h]
  next => rfl

/-- Things of another kind change places. -/
theorem held_of_exchange {next : Scene} {take fill : Layer → Layer}
    (hlayers : next.layers = (scene.exchange last take layer fill).layers)
    (htake : ∀ layer, kind (take layer) = kind layer)
    (hfill : ∀ layer, kind (fill layer) = kind layer) :
    next.held kind index = scene.held kind index := by
  rw [held_of_layers hlayers, exchange, held_modifyLayer_of_kept hfill,
    held_modifyLayer?_of_kept htake]

theorem held_of_layerCount_le (h : scene.layerCount ≤ index) (kind : Layer → Option α) :
    scene.held kind index = none := by
  rw [held, List.getElem?_eq_none h, Option.bind_none]

end

/-- A new scene has nothing on its layers. -/
theorem held_new {kind : Layer → Option α} (h : kind {} = none)
    (count width delay columns index : Nat) :
    (new count width delay columns).held kind index = none := by
  simp only [held, new, List.getElem?_replicate]
  split <;> simp [h]

end Scene

namespace MaskTransition

theorem layerCount_advanceAll (transitions : List MaskTransition) (scene : Scene) :
    (advanceAll transitions scene).2.layerCount = scene.layerCount := by
  induction transitions generalizing scene with
  | nil => rfl
  | cons transition rest ih => exact (ih _).trans (Scene.layerCount_modifyLayer ..)

/-- Transitions change overlays and nothing else. -/
theorem held_advanceAll {kind : Layer → Option α}
    (h : ∀ (layer : Layer) overlay, kind { layer with overlay } = kind layer)
    (transitions : List MaskTransition) (scene : Scene) (index : Nat) :
    (advanceAll transitions scene).2.held kind index = scene.held kind index := by
  induction transitions generalizing scene with
  | nil => rfl
  | cons transition rest ih =>
    exact (ih _).trans (Scene.held_modifyLayer_of_kept (fun layer => h layer _) ..)

theorem held_render (transition : MaskTransition) {scene : Scene}
    (hlt : index < scene.layerCount) :
    (transition.render scene).held Layer.overlay index =
      if transition.layer = index then
        if transition.isFinished then none else some transition.overlay
      else scene.held Layer.overlay index := by
  rw [render, Scene.setOverlay, Scene.held_modifyLayer]
  simp [Scene.held, List.getElem?_eq_getElem hlt]

end MaskTransition

end VisualNovel
