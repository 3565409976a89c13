import VisualNovel.Proofs.Stage.Acceptance

/-!
# Whose overlay a layer shows

After every frame a layer shows the overlay of the transition that was begun on it
last, of those that are not complete, and none if there is no such transition
(`Stage.newest_overlays`). In one frame some transitions put their overlay on a layer
and others take it away, so all depends on the order: no transition is complete before
one that was begun earlier (`MaskTransition.Outlasts`), since all advance from zero by
the same speed, whatever rounding does to the sums.
-/

namespace VisualNovel

namespace MaskTransition

-- ---------------------------------------------------------------------------
-- Frames
-- ---------------------------------------------------------------------------

@[simp] theorem frame_nil : frame [] = [] := rfl

theorem frame_append (transitions others : List MaskTransition) :
    frame (transitions ++ others) = frame transitions ++ frame others := by
  simp [frame]

theorem frames_append (count : Nat) (transitions others : List MaskTransition) :
    frames count (transitions ++ others) = frames count transitions ++ frames count others := by
  induction count generalizing transitions others with
  | zero => rfl
  | succ count ih => rw [frames, frame_append, ih, frames, frames]

theorem frames_add (count more : Nat) (transitions : List MaskTransition) :
    frames (count + more) transitions = frames more (frames count transitions) := by
  induction count generalizing transitions with
  | zero => rw [Nat.zero_add, frames]
  | succ count ih =>
    rw [Nat.add_right_comm]
    exact ih (frame transitions)

theorem frame_singleton (transition : MaskTransition) : frame [transition] =
    if transition.advance.isFinished then [] else [transition.advance] :=
  frame_cons transition []

theorem exists_of_mem_frame (h : next ∈ frame transitions) :
    ∃ transition ∈ transitions, next = transition.advance ∧
      transition.advance.isFinished = false := by
  obtain ⟨hmem, hrunning⟩ := List.mem_filter.mp h
  obtain ⟨transition, htransition, rfl⟩ := List.mem_map.mp hmem
  exact ⟨transition, htransition, rfl, by simpa using hrunning⟩

/-- When a transition is complete depends on its speed and its progress. -/
theorem frames_eq_nil_congr {transition other : MaskTransition}
    (hspeed : transition.speed = other.speed) (hprogress : transition.progress = other.progress)
    (count : Nat) : frames count [transition] = [] ↔ frames count [other] = [] := by
  induction count generalizing transition other with
  | zero => simp [frames]
  | succ count ih =>
    have hadvance : transition.advance.progress = other.advance.progress := by
      simp [advance, hspeed, hprogress]
    have hfinished : transition.advance.isFinished = other.advance.isFinished := by
      simp [isFinished, hadvance]
    simp only [frames, frame_singleton, hfinished]
    split
    · exact .rfl
    · exact ih hspeed hadvance

-- ---------------------------------------------------------------------------
-- The order in which transitions are complete
-- ---------------------------------------------------------------------------

/-- The newer transition is not complete before the older one. -/
def Outlasts (older newer : MaskTransition) : Prop :=
  ∀ count, frames count [newer] = [] → frames count [older] = []

theorem Outlasts.of_alike {older newer : MaskTransition} (hspeed : newer.speed = older.speed)
    (hprogress : newer.progress = older.progress) : older.Outlasts newer :=
  fun count h => (frames_eq_nil_congr hspeed hprogress count).mp h

theorem Outlasts.finished {older newer : MaskTransition} (h : older.Outlasts newer)
    (hnewer : newer.advance.isFinished = true) : older.advance.isFinished = true := by
  have hone := h 1
  simp only [frames, frame_singleton, hnewer, if_true] at hone
  simpa using hone trivial

theorem frames_advance {transition : MaskTransition} (h : transition.advance.isFinished = false)
    (count : Nat) : frames (count + 1) [transition] = frames count [transition.advance] := by
  simp [frames, frame_singleton, h]

theorem Outlasts.advance {older newer : MaskTransition} (h : older.Outlasts newer)
    (holder : older.advance.isFinished = false) (hnewer : newer.advance.isFinished = false) :
    older.advance.Outlasts newer.advance := by
  intro count hover
  rw [← frames_advance holder]
  exact h (count + 1) ((frames_advance hnewer count).trans hover)

/-- A transition that has advanced is complete all the earlier. -/
theorem Outlasts.advance_older {older newer : MaskTransition} (h : older.Outlasts newer)
    (holder : older.advance.isFinished = false) : older.advance.Outlasts newer := by
  intro count hover
  have hnext : frames (count + 1) [older] = [] := by
    rw [frames_add, h count hover, frames_nil]
  exact (frames_advance holder count).symm.trans hnext

/-- Transitions at one speed, in the order in which they were begun: none is complete
before one that stands ahead of it, nor would one begun now be. -/
structure InOrder (pace : Float32) (transitions : List MaskTransition) : Prop where
  pairwise : transitions.Pairwise Outlasts
  begun : ∀ transition ∈ transitions, ∀ started : MaskTransition, started.speed = pace →
    started.progress = 0 → transition.Outlasts started

theorem InOrder.nil : InOrder pace [] :=
  ⟨.nil, fun _ h => nomatch h⟩

theorem InOrder.begin {started : MaskTransition} (h : InOrder pace transitions)
    (hspeed : started.speed = pace) (hprogress : started.progress = 0) :
    InOrder pace (transitions ++ [started]) where
  pairwise := by
    refine List.pairwise_append.mpr ⟨h.pairwise, List.pairwise_singleton .., ?_⟩
    intro transition htransition other hother
    exact List.mem_singleton.mp hother ▸ h.begun transition htransition started hspeed hprogress
  begun := by
    intro transition htransition other hother hzero
    rcases List.mem_append.mp htransition with hold | hnew
    · exact h.begun transition hold other hother hzero
    · obtain rfl := List.mem_singleton.mp hnew
      exact .of_alike (hother.trans hspeed.symm) (hzero.trans hprogress.symm)

theorem pairwise_frame (h : transitions.Pairwise Outlasts) :
    (frame transitions).Pairwise Outlasts := by
  induction h with
  | nil => exact .nil
  | @cons transition rest hall _ ih =>
    rw [frame_cons]
    cases hrunning : transition.advance.isFinished with
    | true => exact ih
    | false =>
      refine .cons (fun next hnext => ?_) ih
      obtain ⟨newer, hnewer, rfl, hnewerRunning⟩ := exists_of_mem_frame hnext
      exact (hall newer hnewer).advance hrunning hnewerRunning

theorem InOrder.frame (h : InOrder pace transitions) :
    InOrder pace (frame transitions) where
  pairwise := pairwise_frame h.pairwise
  begun := by
    intro next hnext started hspeed hzero
    obtain ⟨transition, htransition, rfl, hrunning⟩ := exists_of_mem_frame hnext
    exact (h.begun transition htransition started hspeed hzero).advance_older hrunning

theorem InOrder.frames (h : InOrder pace transitions) (count : Nat) :
    InOrder pace (frames count transitions) := by
  induction count generalizing transitions with
  | zero => exact h
  | succ count ih => exact ih h.frame

/-- Behind a transition that is not complete none is. -/
theorem frame_eq_map (hall : ∀ newer ∈ rest, Outlasts older newer)
    (h : older.advance.isFinished = false) : frame rest = rest.map advance := by
  refine List.filter_eq_self.mpr fun next hnext => ?_
  obtain ⟨newer, hnewer, rfl⟩ := List.mem_map.mp hnext
  cases hfinished : newer.advance.isFinished with
  | false => rfl
  | true => cases h.symm.trans ((hall newer hnewer).finished hfinished)

theorem on_map_advance (layer : Nat) (transitions : List MaskTransition) :
    on layer (transitions.map advance) = (on layer transitions).map advance := by
  simp only [on, List.filter_map]
  rfl

/-- A transition has the last word on its layer only if none was begun there later; taking
its overlay away, it does not take away that of another. -/
theorem getLast?_on_frame_cons (hall : ∀ newer ∈ rest, Outlasts transition newer)
    (hon : transition.layer = index) :
    (on index (frame (transition :: rest))).getLast? =
      if on index rest = [] then
        if transition.advance.isFinished then none else some transition.advance
      else (on index (frame rest)).getLast? := by
  have hnextOn : transition.advance.layer = index := hon
  rw [frame_cons]
  cases hfinished : transition.advance.isFinished with
  | true =>
    by_cases hrest : on index rest = []
    · simp [hrest, on_frame]
    · simp [hrest]
  | false =>
    rw [frame_eq_map hall hfinished]
    cases hrest : on index rest <;> simp [on_cons, hnextOn, on_map_advance, hrest]

/-- One frame leaves on a layer the overlay of the last transition on it that is not
complete, and leaves the layer alone if there was no transition on it. -/
theorem advanceAll_overlay (h : transitions.Pairwise Outlasts) (scene : Scene)
    (hlt : index < scene.layerCount) :
    (advanceAll transitions scene).2.held Layer.overlay index =
      if on index transitions = [] then scene.held Layer.overlay index
      else (on index (frame transitions)).getLast?.map (·.overlay) := by
  induction h generalizing scene with
  | nil => rfl
  | @cons transition rest hall _ ih =>
    -- What the first transition leaves on the layer is what the others find there.
    have hcount : (transition.advance.render scene).layerCount = scene.layerCount :=
      Scene.layerCount_modifyLayer ..
    refine (ih _ (hcount ▸ hlt)).trans ?_
    rw [held_render transition.advance hlt, on_cons]
    by_cases hon : transition.layer = index
    · have hnextOn : transition.advance.layer = index := hon
      rw [if_pos hon, if_pos hnextOn, if_neg (List.cons_ne_nil transition _),
        getLast?_on_frame_cons hall hon]
      by_cases hrest : on index rest = []
      · rw [if_pos hrest, if_pos hrest]
        cases transition.advance.isFinished <;> rfl
      · rw [if_neg hrest, if_neg hrest]
    · have hnextOff : transition.advance.layer ≠ index := hon
      rw [if_neg hon, if_neg hnextOff, frame_cons]
      cases transition.advance.isFinished with
      | true => rfl
      | false => rw [if_neg Bool.false_ne_true, on_cons, if_neg hnextOff]

end MaskTransition

namespace Scene

/-- Of the commands only that which clears a layer changes an overlay. -/
theorem Follows.overlay {scene next : Scene} (h : scene.Follows command next) (index : Nat) :
    next.held Layer.overlay index =
      if command = .clearLayer index then none else scene.held Layer.overlay index := by
  cases command with
  | setImage layer path _ | setCharacter layer position path =>
    obtain ⟨-, rfl⟩ := atLayer_eq_ok.mp h
    rw [if_neg (by simp)]
    exact held_of_exchange rfl (fun _ => rfl) (fun _ => rfl)
  | clearLayer layer =>
    obtain ⟨-, rfl⟩ := atLayer_eq_ok.mp h
    simpa using held_modifyLayer_of_taken (fun _ => rfl) scene layer index
  | showText _ | presentChoices _ | hideChoices =>
    cases h
    rfl

end Scene

namespace Stage

/-- The transition that the call begins. -/
def begunBy? (stage : Stage) : StageCall → Option MaskTransition
  | .execute command => stage.begun? command
  | .update | .completeText => none

/-- The transitions begun by the calls, in their order, as they are after all the frames
since; those complete are dropped. -/
def running (stage : Stage) : List StageCall → List MaskTransition
  | [] => []
  | call :: calls =>
    MaskTransition.frames (calls.count .update) (stage.begunBy? call).toList ++
      (stage.call call).running calls

/-- What is under way is in order, and where nothing is there is no overlay. -/
structure Orderly (stage : Stage) : Prop where
  inOrder : MaskTransition.InOrder stage.transitionSpeed stage.transitions
  idle : ∀ index, stage.transitionsOn index = [] → stage.scene.held Layer.overlay index = none

section
variable {stage : Stage}

theorem begunBy?_eq_some {call : StageCall} (h : stage.begunBy? call = some started) :
    started.speed = stage.transitionSpeed ∧ started.progress = 0 := by
  unfold begunBy? begun? at h
  repeat' split at h
  case h_1.isTrue =>
    obtain ⟨current, -, rfl⟩ := Option.map_eq_some_iff.mp h
    exact ⟨rfl, rfl⟩
  all_goals cases h

/-- A call is a frame of the transitions, or begins at most one of them. -/
theorem transitions_call (stage : Stage) (call : StageCall) :
    (stage.call call).transitions =
      MaskTransition.frames ([call].count .update) stage.transitions ++
        (stage.begunBy? call).toList := by
  cases call with
  | execute command =>
    rw [List.count_singleton, if_neg (by simp), MaskTransition.frames, begunBy?]
    by_cases h : stage.Accepts command
    · exact (execute_accepted h).transitions
    · rw [begun?_of_refused h, call_of_refused h]
      exact (List.append_nil _).symm
  | update => exact (MaskTransition.advanceAll_transitions ..).trans (List.append_nil _).symm
  | completeText => exact (List.append_nil _).symm

theorem transitions_afterCalls (stage : Stage) (calls : List StageCall) :
    (stage.afterCalls calls).transitions =
      MaskTransition.frames (calls.count .update) stage.transitions ++ stage.running calls := by
  induction calls generalizing stage with
  | nil => exact (List.append_nil _).symm
  | cons call calls ih =>
    have hcount : (call :: calls).count .update = [call].count .update + calls.count .update := by
      rw [← List.count_append, List.singleton_append]
    rw [running, ← List.append_assoc, hcount, MaskTransition.frames_add,
      ← MaskTransition.frames_append, ← transitions_call]
    exact ih (stage.call call)

theorem transitionSpeed_call (stage : Stage) (call : StageCall) :
    (stage.call call).transitionSpeed = stage.transitionSpeed := by
  cases call with
  | execute command =>
    by_cases h : stage.Accepts command
    · exact (execute_accepted h).speed
    · rw [call_of_refused h]
  | update | completeText => rfl

/-- Between frames only what clears a layer changes its overlay. -/
theorem overlay_call (stage : Stage) {call : StageCall} (h : call ≠ .update) (index : Nat) :
    (stage.call call).scene.held Layer.overlay index =
      if stage.accepted? call = some (.clearLayer index) then none
      else stage.scene.held Layer.overlay index := by
  cases call with
  | execute command =>
    by_cases haccepts : stage.Accepts command
    · rw [accepted?_of_accepts haccepts]
      exact ((execute_accepted haccepts).scene.overlay index).trans (by simp)
    · rw [accepted?_of_refused haccepts, call_of_refused haccepts]
      rfl
  | update => exact absurd rfl h
  | completeText => rfl

/-- After a frame a layer shows what the newest transition on it shows. -/
theorem Orderly.overlay_update (ho : stage.Orderly) (hlt : index < stage.scene.layerCount) :
    stage.update.scene.held Layer.overlay index =
      (stage.update.transitionsOn index).getLast?.map (·.overlay) := by
  have hshown : stage.update.scene.held Layer.overlay index = _ :=
    MaskTransition.advanceAll_overlay ho.inOrder.pairwise stage.scene.updateText hlt
  rw [hshown]
  split
  next hnone =>
    rw [transitionsOn_update, transitionsOn, hnone]
    exact ho.idle index hnone
  next => rw [transitionsOn_update, transitionsOn, MaskTransition.on_frame]

theorem Orderly.call (ho : stage.Orderly) (call : StageCall) : (stage.call call).Orderly where
  inOrder := by
    rw [transitionSpeed_call, transitions_call]
    have hframes := ho.inOrder.frames ([call].count .update)
    cases hbegun : stage.begunBy? call with
    | none => exact (List.append_nil _).symm ▸ hframes
    | some started =>
      obtain ⟨hspeed, hprogress⟩ := begunBy?_eq_some hbegun
      exact hframes.begin hspeed hprogress
  idle := by
    intro index hnone
    by_cases hupdate : call = .update
    · subst hupdate
      rcases Nat.lt_or_ge index stage.scene.layerCount with hlt | hge
      · have hidle : stage.update.transitionsOn index = [] := hnone
        refine (ho.overlay_update hlt).trans ?_
        rw [hidle, List.getLast?_nil, Option.map_none]
      · exact Scene.held_of_layerCount_le (stage.layerCount_call .update ▸ hge) _
    · have hidle : stage.transitionsOn index = [] := by
        rw [transitionsOn, transitions_call, MaskTransition.on, List.filter_append,
          List.append_eq_nil_iff, List.count_singleton, if_neg (by simp [hupdate])] at hnone
        exact hnone.1
      rw [overlay_call stage hupdate, ho.idle index hidle, ite_self]

theorem Orderly.afterCalls (ho : stage.Orderly) (calls : List StageCall) :
    (stage.afterCalls calls).Orderly := by
  induction calls generalizing stage with
  | nil => exact ho
  | cons call calls ih => exact ih (ho.call call)

theorem orderly_opening (config : Config) (files : Files) : (ofConfig config files).Orderly :=
  ⟨.nil, fun _ _ => Scene.held_new rfl ..⟩

end

/-- Whatever is asked of a new stage, after each frame a layer shows the overlay of the
transition on it that was begun last, of those not complete, and none if there is no
such transition. Between frames nothing changes an overlay but what clears its layer;
so without a transition under way no layer shows one. -/
theorem newest_overlays (config : Config) (files : Files) (calls : List StageCall) :
    let opening := ofConfig config files
    let stage := opening.afterCalls calls
    let shown (stage : Stage) (index : Nat) := stage.scene.held Layer.overlay index
    stage.transitions = opening.running calls ∧
      (∀ index < config.layerCount, shown stage.update index =
        (MaskTransition.on index (opening.running (calls ++ [.update]))).getLast?.map (·.overlay)) ∧
      (∀ call ≠ .update, ∀ index, shown (stage.call call) index =
        if stage.accepted? call = some (.clearLayer index) then none else shown stage index) ∧
      (opening.running calls = [] → ∀ index, shown stage index = none) := by
  intro opening stage shown
  have htransitions (calls : List StageCall) :
      (opening.afterCalls calls).transitions = opening.running calls := by
    rw [transitions_afterCalls]
    exact congrArg (· ++ opening.running calls) (MaskTransition.frames_nil _)
  have horderly : stage.Orderly := (orderly_opening config files).afterCalls calls
  refine ⟨htransitions calls, fun index hlt => ?_, fun call h => stage.overlay_call h,
    fun hnone index => horderly.idle index ?_⟩
  · have hframe : opening.afterCalls (calls ++ [.update]) = stage.update := by
      rw [afterCalls, List.foldl_append]
      rfl
    have hcount : stage.scene.layerCount = config.layerCount :=
      (layerCount_afterCalls ..).trans (layerCount_ofConfig ..)
    rw [← htransitions, hframe]
    exact horderly.overlay_update (hcount ▸ hlt)
  · rw [transitionsOn, htransitions, hnone]
    rfl

end Stage

end VisualNovel
