import VisualNovel.Proofs.Stage.Acceptance

/-!
# Two slots

However many layers there are, a stage shows one background and one character at most:
the one that was put on it last, unless its layer was cleared since
(`Stage.pictures_stand`). A scene remembers only the layer on which each was put last,
and goes on remembering it when the layer is cleared; what carries the proof is that no
other layer ever holds a picture of the kind.
-/

namespace VisualNovel

/-- One kind of picture: what of it a layer holds, the layer it was last put on, and
which commands put one where. -/
structure PictureSlot (α : Type) where
  kind : Layer → Option α
  last : Scene → Option Nat
  put? : DisplayCommand → Option (Nat × α)

def imageSlot : PictureSlot String where
  kind := Layer.image
  last := Scene.imageLayer
  put?
    | .setImage layer path _ => some (layer, path)
    | _ => none

def characterSlot : PictureSlot Sprite where
  kind := Layer.character
  last := Scene.characterLayer
  put?
    | .setCharacter layer position path => some (layer, { position, path })
    | _ => none

namespace PictureSlot

/-- The picture is the one that was put last, on the layer at the index, and the layer
was not cleared since. -/
def Stands (slot : PictureSlot α) (commands : List DisplayCommand) (index : Nat)
    (picture : α) : Prop :=
  ∃ before command after, commands = before ++ command :: after ∧
    slot.put? command = some (index, picture) ∧
    ∀ later ∈ after, slot.put? later = none ∧ later ≠ .clearLayer index

/-- What a scene makes of a command, seen from the slot. -/
structure Turns (slot : PictureSlot α) (scene : Scene) (command : DisplayCommand)
    (next : Scene) : Prop where
  held_of_put : slot.put? command = some (layer, picture) →
    ∀ index, next.held slot.kind index =
      if layer = index then some picture
      else if slot.last scene = some index then none else scene.held slot.kind index
  held_of_other : slot.put? command = none →
    ∀ index, next.held slot.kind index =
      if command = .clearLayer index then none else scene.held slot.kind index
  last_eq : slot.last next = ((slot.put? command).map Prod.fst).or (slot.last scene)

/-- Nothing but commands changes what is in the slot. -/
structure Lawful (slot : PictureSlot α) : Prop where
  follows : scene.Follows command next → slot.Turns scene command next
  overlay : ∀ (layer : Layer) overlay, slot.kind { layer with overlay } = slot.kind layer
  last_text : ∀ (scene : Scene) text, slot.last { scene with text } = slot.last scene
  last_layers : ∀ (scene : Scene) layers, slot.last { scene with layers } = slot.last scene

/-- The scene holds what stands, and remembers where. -/
structure Agrees (slot : PictureSlot α) (commands : List DisplayCommand) (scene : Scene) :
    Prop where
  stands : ∀ index picture, scene.held slot.kind index = some picture ↔
    slot.Stands commands index picture
  last : ∀ index picture, scene.held slot.kind index = some picture →
    slot.last scene = some index

section
variable {slot : PictureSlot α} {scene next : Scene}

theorem not_stands_nil : ¬ slot.Stands [] index picture := by
  rintro ⟨before, command, after, hcommands, -⟩
  simp at hcommands

theorem stands_append : slot.Stands (commands ++ [command]) index picture ↔
    slot.put? command = some (index, picture) ∨
      slot.put? command = none ∧ command ≠ .clearLayer index ∧
        slot.Stands commands index picture := by
  constructor
  · rintro ⟨before, put, after, hcommands, hput, hafter⟩
    rcases List.eq_nil_or_concat after with rfl | ⟨earlier, last, rfl⟩
    · obtain ⟨-, rfl⟩ := List.append_singleton_inj.mp hcommands
      exact .inl hput
    · rw [List.concat_eq_append, ← List.cons_append, ← List.append_assoc] at hcommands
      obtain ⟨rfl, rfl⟩ := List.append_singleton_inj.mp hcommands
      obtain ⟨hlast, hclear⟩ := hafter command (by simp)
      exact .inr ⟨hlast, hclear, before, put, earlier, rfl, hput,
        fun later hlater => hafter later (by simp [hlater])⟩
  · rintro (hput | ⟨hnone, hclear, before, put, after, rfl, hput, hafter⟩)
    · exact ⟨commands, command, [], rfl, hput, fun _ h => nomatch h⟩
    · refine ⟨before, put, after ++ [command], by simp, hput, fun later hlater => ?_⟩
      rcases List.mem_append.mp hlater with hlater | hlater
      · exact hafter later hlater
      · exact List.mem_singleton.mp hlater ▸ ⟨hnone, hclear⟩

-- ---------------------------------------------------------------------------
-- The ways a command can go
-- ---------------------------------------------------------------------------

theorem turns_of_put (hput : slot.put? command = some (layer, picture))
    (hlt : layer < scene.layerCount)
    (hlayers : next.layers = (scene.exchange (slot.last scene) take layer fill).layers)
    (htake : ∀ layer, slot.kind (take layer) = none)
    (hfill : ∀ layer, slot.kind (fill layer) = some picture)
    (hlast : slot.last next = some layer) : slot.Turns scene command next where
  held_of_put := by
    intro layer' picture' hput' index
    cases hput.symm.trans hput'
    have hcount := scene.layerCount_modifyLayer? (slot.last scene) take
    rw [Scene.held_of_layers hlayers, Scene.exchange,
      Scene.held_modifyLayer_of_put hfill (hcount ▸ hlt), Scene.held_modifyLayer?_of_taken htake]
  held_of_other hnone := by simp [hput] at hnone
  last_eq := by simp [hput, hlast]

theorem turns_of_kept (hput : slot.put? command = none)
    (hclear : ∀ index, command ≠ .clearLayer index)
    (hheld : ∀ index, next.held slot.kind index = scene.held slot.kind index)
    (hlast : slot.last next = slot.last scene) : slot.Turns scene command next where
  held_of_put hsome := by simp [hput] at hsome
  held_of_other _ index := by simp [hheld, hclear index]
  last_eq := by simp [hput, hlast]

/-- Pictures of the other kind change places. -/
theorem turns_of_otherPut {last : Option Nat} (hput : slot.put? command = none)
    (hclear : ∀ index, command ≠ .clearLayer index)
    (hlayers : next.layers = (scene.exchange last take layer fill).layers)
    (htake : ∀ layer, slot.kind (take layer) = slot.kind layer)
    (hfill : ∀ layer, slot.kind (fill layer) = slot.kind layer)
    (hlast : slot.last next = slot.last scene) : slot.Turns scene command next :=
  turns_of_kept hput hclear (fun _ => Scene.held_of_exchange hlayers htake hfill) hlast

theorem turns_of_clear (hput : slot.put? (.clearLayer layer) = none)
    (hlayers : next.layers = (scene.modifyLayer layer clear).layers)
    (hclear : ∀ layer, slot.kind (clear layer) = none)
    (hlast : slot.last next = slot.last scene) : slot.Turns scene (.clearLayer layer) next where
  held_of_put hsome := by simp [hput] at hsome
  held_of_other _ index := by
    rw [Scene.held_of_layers hlayers, Scene.held_modifyLayer_of_taken hclear]
    simp
  last_eq := by simp [hput, hlast]

-- ---------------------------------------------------------------------------
-- A slot over a whole history
-- ---------------------------------------------------------------------------

theorem Agrees.follows (ha : slot.Agrees commands scene) (h : slot.Turns scene command next) :
    slot.Agrees (commands ++ [command]) next := by
  cases hput : slot.put? command with
  | none =>
    have hlast : slot.last next = slot.last scene := by simp [h.last_eq, hput]
    refine ⟨fun index picture => ?_, fun index picture => ?_⟩
    · rw [h.held_of_other hput, stands_append, hput, ← ha.stands]
      by_cases hclear : command = .clearLayer index <;> simp [hclear]
    · rw [h.held_of_other hput, hlast]
      by_cases hclear : command = .clearLayer index
      · simp [hclear]
      · simpa [hclear] using ha.last index picture
  | some put =>
    obtain ⟨layer, shown⟩ := put
    have hlast : slot.last next = some layer := by simp [h.last_eq, hput]
    -- What another layer may have held was put on last, and was taken away.
    have hother (index : Nat) (hne : layer ≠ index) : next.held slot.kind index = none := by
      rw [h.held_of_put hput, if_neg hne]
      split
      next => rfl
      next hold =>
        refine Option.eq_none_iff_forall_ne_some.mpr fun picture hpicture => ?_
        exact hold (ha.last index picture hpicture)
    refine ⟨fun index picture => ?_, fun index picture => ?_⟩
    · rw [stands_append, hput]
      by_cases heq : layer = index
      · simp [h.held_of_put hput, heq]
      · simp [hother index heq, heq]
    · by_cases heq : layer = index
      · simp [hlast, heq]
      · simp [hother index heq]

theorem Agrees.of_same (ha : slot.Agrees commands scene)
    (hheld : ∀ index, next.held slot.kind index = scene.held slot.kind index)
    (hlast : slot.last next = slot.last scene) : slot.Agrees commands next :=
  ⟨fun index picture => hheld index ▸ ha.stands index picture,
    fun index picture => hheld index ▸ hlast ▸ ha.last index picture⟩

theorem Agrees.unique (ha : slot.Agrees commands scene)
    (h : scene.held slot.kind index = some picture)
    (hother : scene.held slot.kind other = some picture') : index = other :=
  Option.some.inj ((ha.last index picture h).symm.trans (ha.last other picture' hother))

theorem Lawful.last_advanceAll (hs : slot.Lawful) (transitions : List MaskTransition)
    (scene : Scene) :
    slot.last (MaskTransition.advanceAll transitions scene).2 = slot.last scene := by
  induction transitions generalizing scene with
  | nil => rfl
  | cons transition rest ih => exact (ih _).trans (hs.last_layers ..)

theorem Lawful.agrees_call {stage : Stage} (hs : slot.Lawful)
    (ha : slot.Agrees commands stage.scene) (call : StageCall) :
    slot.Agrees (commands ++ (stage.accepted? call).toList) (stage.call call).scene := by
  cases call with
  | execute command =>
    by_cases h : stage.Accepts command
    · rw [Stage.accepted?_of_accepts h]
      exact ha.follows (hs.follows (Stage.execute_accepted h).scene)
    · rw [Stage.accepted?_of_refused h, Stage.call_of_refused h, Option.toList_none,
        List.append_nil]
      exact ha
  | update =>
    rw [Stage.accepted?, Option.toList_none, List.append_nil]
    exact ha.of_same
      (MaskTransition.held_advanceAll hs.overlay stage.transitions stage.scene.updateText)
      ((hs.last_advanceAll ..).trans (hs.last_text ..))
  | completeText =>
    rw [Stage.accepted?, Option.toList_none, List.append_nil]
    exact ha.of_same (fun _ => rfl) (hs.last_text ..)

theorem Lawful.agrees_afterCalls {stage : Stage} (hs : slot.Lawful)
    (ha : slot.Agrees commands stage.scene) (calls : List StageCall) :
    slot.Agrees (commands ++ stage.accepted calls) (stage.afterCalls calls).scene := by
  induction calls generalizing stage commands with
  | nil => simpa [Stage.accepted, Stage.afterCalls] using ha
  | cons call calls ih =>
    rw [Stage.accepted, ← List.append_assoc]
    exact ih (hs.agrees_call ha call)

theorem agrees_opening (hempty : slot.kind {} = none) (config : Config) (files : Files) :
    slot.Agrees [] (Stage.ofConfig config files).scene := by
  have hnone (index : Nat) :
      (Stage.ofConfig config files).scene.held slot.kind index = none :=
    Scene.held_new hempty ..
  exact ⟨fun index picture => by simp [hnone, not_stands_nil], fun index picture => by simp [hnone]⟩

end

end PictureSlot

-- ---------------------------------------------------------------------------
-- Backgrounds and characters
-- ---------------------------------------------------------------------------

theorem imageSlot_lawful : imageSlot.Lawful where
  follows := by
    intro scene command next h
    cases command with
    | setImage layer path transition =>
      obtain ⟨hlt, rfl⟩ := Scene.atLayer_eq_ok.mp h
      exact PictureSlot.turns_of_put rfl hlt rfl (fun _ => rfl) (fun _ => rfl) rfl
    | setCharacter layer position path =>
      obtain ⟨hlt, rfl⟩ := Scene.atLayer_eq_ok.mp h
      exact PictureSlot.turns_of_otherPut rfl (by simp) rfl (fun _ => rfl) (fun _ => rfl)
        (scene.imageLayer_modifyLayer? ..)
    | clearLayer layer =>
      obtain ⟨hlt, rfl⟩ := Scene.atLayer_eq_ok.mp h
      exact PictureSlot.turns_of_clear rfl rfl (fun _ => rfl) rfl
    | showText _ | presentChoices _ | hideChoices =>
      cases h
      exact PictureSlot.turns_of_kept rfl (by simp) (fun _ => rfl) rfl
  overlay _ _ := rfl
  last_text _ _ := rfl
  last_layers _ _ := rfl

theorem characterSlot_lawful : characterSlot.Lawful where
  follows := by
    intro scene command next h
    cases command with
    | setImage layer path transition =>
      obtain ⟨hlt, rfl⟩ := Scene.atLayer_eq_ok.mp h
      exact PictureSlot.turns_of_otherPut rfl (by simp) rfl (fun _ => rfl) (fun _ => rfl)
        (scene.characterLayer_modifyLayer? ..)
    | setCharacter layer position path =>
      obtain ⟨hlt, rfl⟩ := Scene.atLayer_eq_ok.mp h
      exact PictureSlot.turns_of_put rfl hlt rfl (fun _ => rfl) (fun _ => rfl) rfl
    | clearLayer layer =>
      obtain ⟨hlt, rfl⟩ := Scene.atLayer_eq_ok.mp h
      exact PictureSlot.turns_of_clear rfl rfl (fun _ => rfl) rfl
    | showText _ | presentChoices _ | hideChoices =>
      cases h
      exact PictureSlot.turns_of_kept rfl (by simp) (fun _ => rfl) rfl
  overlay _ _ := rfl
  last_text _ _ := rfl
  last_layers _ _ := rfl

/-- Whatever is asked of a new stage, the layer at an index holds a background if and only
if this was the last background accepted, for this very layer, and the layer was not
cleared since; so no two layers hold one. Characters are the same among themselves. -/
theorem Stage.pictures_stand (config : Config) (files : Files) (calls : List StageCall) :
    let stage := Stage.ofConfig config files
    let scene := (stage.afterCalls calls).scene
    let accepted := stage.accepted calls
    (∀ index path, scene.held Layer.image index = some path ↔
        imageSlot.Stands accepted index path) ∧
      (∀ index sprite, scene.held Layer.character index = some sprite ↔
        characterSlot.Stands accepted index sprite) ∧
      (∀ index other path path', scene.held Layer.image index = some path →
        scene.held Layer.image other = some path' → index = other) ∧
      (∀ index other sprite sprite', scene.held Layer.character index = some sprite →
        scene.held Layer.character other = some sprite' → index = other) := by
  intro stage scene accepted
  have himages : imageSlot.Agrees accepted scene :=
    imageSlot_lawful.agrees_afterCalls (PictureSlot.agrees_opening rfl config files) calls
  have hcharacters : characterSlot.Agrees accepted scene :=
    characterSlot_lawful.agrees_afterCalls (PictureSlot.agrees_opening rfl config files) calls
  exact ⟨himages.stands, hcharacters.stands, fun _ _ _ _ => himages.unique,
    fun _ _ _ _ => hcharacters.unique⟩

end VisualNovel
