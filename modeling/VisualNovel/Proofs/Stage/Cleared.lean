import VisualNovel.Proofs.Stage.StageLaws

/-!
# Layers that were cleared

A cleared layer stays without a background and without a character until a command
puts one on it. Clearing does not end the transitions under way on the layer: their
frames put overlays back until the last of them is over (`Stage.cleared_stays`).
-/

namespace VisualNovel

-- ---------------------------------------------------------------------------
-- Pictures taken away
-- ---------------------------------------------------------------------------

/-- What the layer shows afterwards it showed before. -/
structure Layer.NothingAdded (before after : Layer) : Prop where
  image : ∀ path, after.image = some path → before.image = some path
  character : ∀ sprite, after.character = some sprite → before.character = some sprite
  overlay : ∀ overlay, after.overlay = some overlay → before.overlay = some overlay

theorem Layer.NothingAdded.refl (layer : Layer) : layer.NothingAdded layer :=
  ⟨fun _ h => h, fun _ h => h, fun _ h => h⟩

theorem Layer.NothingAdded.trans {before middle after : Layer} (h : before.NothingAdded middle)
    (h' : middle.NothingAdded after) : before.NothingAdded after :=
  ⟨fun path hp => h.image path (h'.image path hp),
    fun sprite hs => h.character sprite (h'.character sprite hs),
    fun overlay ho => h.overlay overlay (h'.overlay overlay ho)⟩

namespace Scene

/-- What the layer at the index shows afterwards it showed before. -/
def NothingAdded (index : Nat) (before after : Scene) : Prop :=
  ∀ shown, before.layers[index]? = some shown →
    ∃ left, after.layers[index]? = some left ∧ shown.NothingAdded left

section
variable {scene next : Scene}

theorem nothingAdded_of_layers (h : next.layers = scene.layers) : NothingAdded index scene next :=
  fun shown hshown => ⟨shown, h ▸ hshown, .refl shown⟩

theorem NothingAdded.trans {last : Scene} (h : NothingAdded index scene next)
    (h' : NothingAdded index next last) : NothingAdded index scene last := by
  intro shown hshown
  obtain ⟨middle, hmiddle, hfirst⟩ := h shown hshown
  obtain ⟨left, hleft, hsecond⟩ := h' middle hmiddle
  exact ⟨left, hleft, hfirst.trans hsecond⟩

/-- The layer itself may only lose something; on others anything may be put. -/
theorem nothingAdded_modifyLayer (scene : Scene) {f : Layer → Layer}
    (h : changed = index → ∀ layer : Layer, layer.NothingAdded (f layer)) :
    NothingAdded index scene (scene.modifyLayer changed f) := by
  intro shown hshown
  by_cases heq : changed = index
  · exact ⟨f shown, by simp [modifyLayer, heq, hshown], h heq shown⟩
  · exact ⟨shown, by simp [modifyLayer, heq, hshown], .refl shown⟩

theorem nothingAdded_modifyLayer? (scene : Scene) (changed : Option Nat) {f : Layer → Layer}
    (h : ∀ layer : Layer, layer.NothingAdded (f layer)) :
    NothingAdded index scene (scene.modifyLayer? changed f) := by
  cases changed with
  | none => exact nothingAdded_of_layers rfl
  | some changed => exact nothingAdded_modifyLayer scene fun _ => h

/-- The last thing of the kind is taken away, on whatever layer it was. -/
theorem nothingAdded_of_exchange (hne : layer ≠ index) {take fill : Layer → Layer}
    (hlayers : next.layers = (scene.exchange last take layer fill).layers)
    (htake : ∀ layer : Layer, layer.NothingAdded (take layer)) :
    NothingAdded index scene next :=
  ((nothingAdded_modifyLayer? scene last htake).trans
    (nothingAdded_modifyLayer _ fun heq => absurd heq hne)).trans
    (nothingAdded_of_layers hlayers)

theorem nothingAdded_atLayer {changed : Scene} (h : NothingAdded index scene changed) :
    ∀ next, scene.atLayer layer changed = .ok next → NothingAdded index scene next := by
  intro next hnext
  obtain ⟨-, rfl⟩ := atLayer_eq_ok.mp hnext
  exact h

theorem nothingAdded_setImage (hne : layer ≠ index) (scene : Scene) (path : String) :
    ∀ next, scene.setImage layer path = .ok next → NothingAdded index scene next :=
  nothingAdded_atLayer <| nothingAdded_of_exchange hne rfl
    fun _ => ⟨fun _ h => (nomatch h), fun _ h => h, fun _ h => h⟩

theorem nothingAdded_setCharacter (hne : layer ≠ index) (scene : Scene) (sprite : Sprite) :
    ∀ next, scene.setCharacter layer sprite = .ok next → NothingAdded index scene next :=
  nothingAdded_atLayer <| nothingAdded_of_exchange hne rfl
    fun _ => ⟨fun _ h => h, fun _ h => (nomatch h), fun _ h => h⟩

theorem nothingAdded_clearLayer (scene : Scene) (layer : Nat) :
    ∀ next, scene.clearLayer layer = .ok next → NothingAdded index scene next :=
  nothingAdded_atLayer <| nothingAdded_modifyLayer scene
    fun _ _ => ⟨fun _ h => (nomatch h), fun _ h => (nomatch h), fun _ h => (nomatch h)⟩

end

end Scene

-- ---------------------------------------------------------------------------
-- Transitions
-- ---------------------------------------------------------------------------

namespace MaskTransition

/-- The transitions on the layer, in the order in which they were started. -/
def on (layer : Nat) (transitions : List MaskTransition) : List MaskTransition :=
  transitions.filter (·.layer = layer)

/-- One frame on: those complete are dropped. -/
def frame (transitions : List MaskTransition) : List MaskTransition :=
  (transitions.map advance).filter (!·.isFinished)

/-- So many frames on. -/
def frames : Nat → List MaskTransition → List MaskTransition
  | 0, transitions => transitions
  | count + 1, transitions => frames count (frame transitions)

theorem frames_nil (count : Nat) : frames count [] = [] := by
  induction count with
  | zero => rfl
  | succ count ih => exact ih

theorem on_cons (layer : Nat) (transition : MaskTransition) (rest : List MaskTransition) :
    on layer (transition :: rest) =
      if transition.layer = layer then transition :: on layer rest else on layer rest := by
  simp [on, List.filter_cons]

theorem frame_cons (transition : MaskTransition) (rest : List MaskTransition) :
    frame (transition :: rest) =
      if transition.advance.isFinished then frame rest
      else transition.advance :: frame rest := by
  cases h : transition.advance.isFinished <;> simp [frame, h]

theorem on_frame (layer : Nat) (transitions : List MaskTransition) :
    on layer (frame transitions) = frame (on layer transitions) := by
  induction transitions with
  | nil => rfl
  | cons transition rest ih =>
    have hlayer : transition.advance.layer = transition.layer := rfl
    rw [frame_cons, on_cons]
    by_cases hon : transition.layer = layer <;> cases hf : transition.advance.isFinished <;>
      simp [on_cons, frame_cons, hlayer, hon, hf, ih]

theorem advanceAll_transitions (transitions : List MaskTransition) (scene : Scene) :
    (advanceAll transitions scene).1 = frame transitions := by
  induction transitions generalizing scene with
  | nil => rfl
  | cons transition rest ih => simp only [advanceAll, ih, frame_cons]

/-- The newest transition on a layer has the last word: it leaves its overlay there, or
none. -/
theorem advanceAll_layer (transitions : List MaskTransition) (scene : Scene)
    (h : scene.layers[index]? = some shown) :
    ∃ left, (advanceAll transitions scene).2.layers[index]? = some left ∧
      left.image = shown.image ∧ left.character = shown.character ∧
      (left.overlay = shown.overlay ∧ on index transitions = [] ∨ left.overlay = none ∨
        ∃ transition ∈ frame (on index transitions), left.overlay = some transition.overlay) := by
  induction transitions generalizing scene shown with
  | nil => exact ⟨shown, h, rfl, rfl, .inl ⟨rfl, rfl⟩⟩
  | cons transition rest ih =>
    let next := transition.advance
    by_cases hon : transition.layer = index
    · have hrendered : (next.render scene).layers[index]? = some
          { shown with overlay := if next.isFinished then none else some next.overlay } := by
        simp [render, Scene.setOverlay, Scene.modifyLayer, next, advance, hon, h]
      obtain ⟨left, hleft, himage, hcharacter, hoverlay⟩ := ih _ hrendered
      refine ⟨left, hleft, himage, hcharacter, .inr ?_⟩
      rw [on_cons, if_pos hon, frame_cons]
      rcases hoverlay with ⟨hoverlay, -⟩ | hnone | ⟨running, hrunning, hoverlay⟩
      · cases hf : next.isFinished with
        | true => exact .inl (by simpa [hf] using hoverlay)
        | false =>
          refine .inr ⟨next, ?_, by simpa [hf] using hoverlay⟩
          exact List.mem_cons_self
      · exact .inl hnone
      · refine .inr ⟨running, ?_, hoverlay⟩
        split
        · exact hrunning
        · exact List.mem_cons_of_mem _ hrunning
    · have hrendered : (next.render scene).layers[index]? = some shown := by
        simp [render, Scene.setOverlay, Scene.modifyLayer, next, advance, hon, h]
      rw [on_cons, if_neg hon]
      exact ih _ hrendered

end MaskTransition

-- ---------------------------------------------------------------------------
-- Calls
-- ---------------------------------------------------------------------------

/-- What can be asked of a stage. -/
inductive StageCall where
  | execute (command : DisplayCommand)
  | update
  | completeText
  deriving DecidableEq, Repr

/-- The call puts a picture on the layer, or tries to. -/
def StageCall.Fills (layer : Nat) : StageCall → Prop
  | .execute (.setImage index _ _) | .execute (.setCharacter index _ _) => index = layer
  | _ => False

namespace Stage

def call (stage : Stage) : StageCall → Stage
  | .execute command => (stage.execute command).display
  | .update => stage.update
  | .completeText => stage.completeText

def afterCalls (stage : Stage) (calls : List StageCall) : Stage :=
  calls.foldl call stage

/-- The transitions under way on the layer. -/
def transitionsOn (stage : Stage) (layer : Nat) : List MaskTransition :=
  MaskTransition.on layer stage.transitions

/-- Neither a picture nor a transition was put on the layer. -/
structure LeavesAlone (layer : Nat) (before after : Stage) : Prop where
  scene : Scene.NothingAdded layer before.scene after.scene
  transitionsOn : after.transitionsOn layer = before.transitionsOn layer

section
variable {stage : Stage}

theorem leavesAlone_of_layers {next : Stage} (hlayers : next.scene.layers = stage.scene.layers)
    (htransitions : next.transitions = stage.transitions) : LeavesAlone layer stage next :=
  ⟨Scene.nothingAdded_of_layers hlayers, congrArg (MaskTransition.on layer) htransitions⟩

theorem leavesAlone_adopt (stage : Stage) (log : List LogEvent)
    (changed : Except RuntimeError Scene)
    (h : ∀ next, changed = .ok next → Scene.NothingAdded layer stage.scene next) :
    LeavesAlone layer stage (stage.adopt log changed).display := by
  cases changed with
  | error _ => exact leavesAlone_of_layers rfl rfl
  | ok next => exact ⟨h next rfl, rfl⟩

theorem transitionFor_layer (h : stage.transitionFor index origin transition = .ok started) :
    started.layer = index := by
  unfold transitionFor at h
  repeat' split at h
  all_goals cases h
  rfl

theorem startTransition_transitionsOn (stage : Stage) (hne : index ≠ layer)
    (origin : Option String) (transition : Option Transition) :
    (stage.startTransition index origin transition).1.transitionsOn layer =
      stage.transitionsOn layer := by
  cases transition with
  | none => rfl
  | some transition =>
    cases hstart : stage.transitionFor index origin transition with
    | error _ => simp [startTransition, hstart]
    | ok started =>
      have hoff : started.layer ≠ layer := transitionFor_layer hstart ▸ hne
      simp [startTransition, hstart, transitionsOn, MaskTransition.on, hoff]

theorem leavesAlone_setImage (stage : Stage) (hne : index ≠ layer) (path : String)
    (transition : Option Transition) :
    LeavesAlone layer stage (stage.setImage index path transition).display := by
  cases hcheck : stage.checkAsset path with
  | error _ =>
    rw [setImage_of_missing hcheck]
    exact leavesAlone_of_layers rfl rfl
  | ok _ =>
    cases hlayer : stage.scene.layers[index]? with
    | none =>
      rw [setImage_of_noLayer hcheck hlayer]
      exact leavesAlone_of_layers rfl rfl
    | some current =>
      rw [setImage_of_layer hcheck hlayer]
      let started := (stage.startTransition index current.image transition).1
      have hscene : started.scene = stage.scene := stage.startTransition_scene ..
      have hon : started.transitionsOn layer = stage.transitionsOn layer :=
        stage.startTransition_transitionsOn hne ..
      have hset (log : List LogEvent) := leavesAlone_adopt started log
        (started.scene.setImage index path) (Scene.nothingAdded_setImage hne _ path)
      exact ⟨hscene ▸ (hset _).scene, (hset _).transitionsOn.trans hon⟩

theorem leavesAlone_setCharacter (stage : Stage) (hne : index ≠ layer) (position path : String) :
    LeavesAlone layer stage (stage.setCharacter index { position, path }).display := by
  cases hcheck : stage.checkAsset path with
  | error _ =>
    rw [setCharacter_of_missing hcheck]
    exact leavesAlone_of_layers rfl rfl
  | ok _ =>
    rw [setCharacter_of_found hcheck]
    exact leavesAlone_adopt stage [] _ (Scene.nothingAdded_setCharacter hne _ { position, path })

theorem leavesAlone_execute (stage : Stage) (h : ¬ (StageCall.execute command).Fills layer) :
    LeavesAlone layer stage (stage.execute command).display := by
  cases command with
  | setImage index path transition => exact stage.leavesAlone_setImage h path transition
  | setCharacter index position path => exact stage.leavesAlone_setCharacter h position path
  | clearLayer index =>
    exact leavesAlone_adopt stage [] _ (Scene.nothingAdded_clearLayer _ index)
  | showText _ | presentChoices _ | hideChoices => exact leavesAlone_of_layers rfl rfl

/-- The layer shows no picture, and of the overlays only that of a transition under way. -/
def Bare (layer : Nat) (stage : Stage) : Prop :=
  ∃ shown, stage.scene.layers[layer]? = some shown ∧ shown.image = none ∧
    shown.character = none ∧ ∀ overlay, shown.overlay = some overlay →
      ∃ transition ∈ stage.transitionsOn layer, transition.overlay = overlay

theorem Bare.leavesAlone {next : Stage} (hb : Bare layer stage) (h : LeavesAlone layer stage next) :
    Bare layer next := by
  obtain ⟨shown, hshown, himage, hcharacter, hoverlay⟩ := hb
  obtain ⟨left, hleft, hnothing⟩ := h.scene shown hshown
  refine ⟨left, hleft, ?_, ?_, fun overlay ho => ?_⟩
  · refine Option.eq_none_iff_forall_ne_some.mpr fun path hp => ?_
    cases himage.symm.trans (hnothing.image path hp)
  · refine Option.eq_none_iff_forall_ne_some.mpr fun sprite hs => ?_
    cases hcharacter.symm.trans (hnothing.character sprite hs)
  · rw [h.transitionsOn]
    exact hoverlay overlay (hnothing.overlay overlay ho)

theorem transitionsOn_update (stage : Stage) (layer : Nat) :
    stage.update.transitionsOn layer = MaskTransition.frame (stage.transitionsOn layer) := by
  have htransitions : stage.update.transitions = MaskTransition.frame stage.transitions :=
    MaskTransition.advanceAll_transitions ..
  rw [transitionsOn, htransitions, MaskTransition.on_frame, transitionsOn]

theorem Bare.update (hb : Bare layer stage) : Bare layer stage.update := by
  obtain ⟨shown, hshown, himage, hcharacter, hoverlay⟩ := hb
  obtain ⟨left, hleft, hleftImage, hleftCharacter, hlast⟩ :=
    MaskTransition.advanceAll_layer stage.transitions stage.scene.updateText hshown
  refine ⟨left, hleft, hleftImage.trans himage, hleftCharacter.trans hcharacter,
    fun overlay ho => ?_⟩
  rw [transitionsOn_update]
  rcases hlast with ⟨hsame, hnone⟩ | hnone | ⟨transition, hmem, hshows⟩
  · -- What the layer shows it showed before, so it is that of a transition: but there is none.
    obtain ⟨transition, hmem, -⟩ := hoverlay overlay (hsame ▸ ho)
    rw [transitionsOn, hnone] at hmem
    cases hmem
  · cases hnone.symm.trans ho
  · exact ⟨transition, hmem, Option.some.inj (hshows.symm.trans ho)⟩

theorem bare_clearLayer (stage : Stage)
    (hclear : (stage.execute (.clearLayer layer)).refusal = none) :
    let cleared := (stage.execute (.clearLayer layer)).display
    Bare layer cleared ∧ cleared.transitionsOn layer = stage.transitionsOn layer := by
  have hlt : layer < stage.scene.layerCount := by
    refine Decidable.byContradiction fun hge => ?_
    simp [execute, adopt, Scene.clearLayer, Scene.atLayer, hge] at hclear
  have hcleared : (stage.execute (.clearLayer layer)).display =
      { stage with scene := stage.scene.modifyLayer layer fun _ => {} } := by
    simp [execute, adopt, Scene.clearLayer, Scene.atLayer, hlt]
  rw [hcleared]
  refine ⟨⟨{}, ?_, rfl, rfl, by simp⟩, rfl⟩
  simp [Scene.modifyLayer, List.getElem?_eq_getElem hlt]

theorem Bare.afterCalls (hb : Bare layer stage)
    (hcalls : ∀ call ∈ calls, ¬ StageCall.Fills layer call) :
    Bare layer (stage.afterCalls calls) ∧
      (stage.afterCalls calls).transitionsOn layer =
        MaskTransition.frames (calls.count .update) (stage.transitionsOn layer) := by
  induction calls generalizing stage with
  | nil => exact ⟨hb, rfl⟩
  | cons call calls ih =>
    obtain ⟨hfirst, hrest⟩ := List.forall_mem_cons.mp hcalls
    cases call with
    | execute command =>
      have hleaves := stage.leavesAlone_execute hfirst
      rw [List.count_cons_of_ne (by simp), ← hleaves.transitionsOn]
      exact ih (hb.leavesAlone hleaves) hrest
    | completeText =>
      rw [List.count_cons_of_ne (by simp)]
      exact ih (hb.leavesAlone (leavesAlone_of_layers rfl rfl)) hrest
    | update =>
      rw [List.count_cons_self, MaskTransition.frames, ← transitionsOn_update]
      exact ih hb.update hrest

end

/-- After a layer was cleared, and as long as no command puts a picture on it, it has no
background and no character; nor an overlay, but for those of the transitions that
were under way on it and are not over yet. -/
theorem cleared_stays (stage : Stage) (calls : List StageCall)
    (hclear : (stage.execute (.clearLayer layer)).refusal = none)
    (hcalls : ∀ call ∈ calls, ¬ call.Fills layer) :
    let later := (stage.execute (.clearLayer layer)).display.afterCalls calls
    let running :=
      MaskTransition.frames (calls.count .update) (stage.transitionsOn layer)
    ∃ shown, later.scene.layers[layer]? = some shown ∧ shown.image = none ∧
      shown.character = none ∧ later.transitionsOn layer = running ∧
      (shown.overlay = none ∨
        ∃ transition ∈ running, shown.overlay = some transition.overlay) ∧
      (stage.transitionsOn layer = [] → shown.overlay = none) := by
  intro later running
  obtain ⟨hbare, hcleared⟩ := stage.bare_clearLayer hclear
  obtain ⟨⟨shown, hshown, himage, hcharacter, hoverlay⟩, hrunning⟩ := hbare.afterCalls hcalls
  rw [hcleared] at hrunning
  refine ⟨shown, hshown, himage, hcharacter, hrunning, ?_, fun hnone => ?_⟩
  · cases ho : shown.overlay with
    | none => exact .inl rfl
    | some overlay =>
      obtain ⟨transition, hmem, rfl⟩ := hoverlay overlay ho
      rw [hrunning] at hmem
      exact .inr ⟨transition, hmem, rfl⟩
  · rw [hnone, MaskTransition.frames_nil] at hrunning
    refine Option.eq_none_iff_forall_ne_some.mpr fun overlay ho => ?_
    obtain ⟨transition, hmem, -⟩ := hoverlay overlay ho
    rw [hrunning] at hmem
    cases hmem

/-- A transition is under way on another layer. -/
theorem cleared_stays_besideTransition :
    let files : Files := { entries := [(["room.png"], some .empty), (["m.png"], some .empty)] }
    let stage := (ofConfig {} files).afterCalls
      [.execute (.setCharacter 1 "left" "room.png"),
        .execute (.setImage 0 "room.png" (some ⟨"transition", ["m.png"]⟩)), .update]
    let calls : List StageCall :=
      [.update, .execute (.setImage 0 "room.png" none), .completeText, .update]
    (stage.execute (.clearLayer 1)).refusal = none ∧ (∀ call ∈ calls, ¬ call.Fills 1) ∧
      (stage.transitionsOn 0).length = 1 ∧
      ∃ shown, ((stage.execute (.clearLayer 1)).display.afterCalls calls).scene.layers[1]? =
          some shown ∧
        shown.image = none ∧ shown.character = none ∧ shown.overlay = none := by
  intro files stage calls
  have hclear : (stage.execute (.clearLayer 1)).refusal = none := by decide +kernel
  have hcalls : ∀ call ∈ calls, ¬ call.Fills 1 := by simp [calls, StageCall.Fills]
  have hnone : stage.transitionsOn 1 = [] := by decide +kernel
  obtain ⟨shown, hshown, himage, hcharacter, -, -, hoverlay⟩ :=
    stage.cleared_stays calls hclear hcalls
  exact ⟨hclear, hcalls, by decide +kernel, shown, hshown, himage, hcharacter, hoverlay hnone⟩

/-- The frame after a layer was cleared shows the overlay of its transition again. -/
theorem cleared_shows_overlay :
    let files : Files := { entries := [(["room.png"], some .empty), (["m.png"], some .empty)] }
    let stage := (ofConfig {} files).afterCalls
      [.execute (.setImage 0 "room.png" (some ⟨"transition", ["m.png"]⟩))]
    let cleared := stage.execute (.clearLayer 0)
    let masks (stage : Stage) := stage.scene.layers.map (·.overlay.map (·.mask))
    cleared.refusal = none ∧ masks cleared.display = List.replicate 5 none ∧
      masks cleared.display.update = [some "m.png", none, none, none, none] := by
  decide +kernel

end Stage

end VisualNovel
