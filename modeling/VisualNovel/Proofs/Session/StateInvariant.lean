import VisualNovel.Proofs.Script.ScanLaws
import VisualNovel.Proofs.Session.History

/-!
# The three states of a story

Running, waiting for a click, waiting for a pick: `Coherent` says what else
holds in each, and every move keeps it (`Coherent.move`). `reachable_consistent`
spells out what follows for any history, and that a story that has ended stays
as it is, whatever is done to it short of loading another program.
-/

namespace VisualNovel

namespace Interpreter

/-- The line just passed is the dialogue on show. -/
def Speaking (vm : Interpreter) : Prop :=
  ∃ text, vm.program.line? (vm.cursor.line - 1) = some text ∧
    LineForm.classify text = .dialogue text ∧ vm.currentText = some text

/-- The line just passed offers the menu on show. -/
def Offering (vm : Interpreter) : Prop :=
  ∃ body, vm.program.form? (vm.cursor.line - 1) = some (.command body) ∧
    (Command.read body).value = .choice vm.offer.choices

end Interpreter

/-- An offer to choose from; what the pointer is on and what was picked exist. -/
structure Offer.Open (offer : Offer) : Prop where
  active : offer.active = true
  nonempty : offer.choices ≠ []
  hovered : ∀ index, offer.hovered = some index → index < offer.choices.length
  selected : ∀ index, offer.selected = some index → index < offer.choices.length

namespace Offer.Open

theorem ofChoices (choice : Choice) (choices : List Choice) :
    (Offer.ofChoices (choice :: choices)).Open :=
  ⟨rfl, List.cons_ne_nil _ _, fun _ h => (nomatch h), fun _ h => (nomatch h)⟩

theorem hover (ho : Open offer) (h : offer.hover index = .ok pointed) :
    pointed.Open ∧ pointed.choices = offer.choices := by
  unfold Offer.hover at h
  split at h <;> cases h
  rename_i hi
  exact ⟨⟨ho.active, ho.nonempty, fun _ hj => by cases hj; exact hi, ho.selected⟩, rfl⟩

theorem select (ho : Open offer) (h : offer.select index = .ok picked) :
    picked.Open ∧ picked.choices = offer.choices := by
  unfold Offer.select at h
  split at h <;> cases h
  rename_i hi
  exact ⟨⟨ho.active, ho.nonempty, fun _ hj => by cases hj; exact hi,
    fun _ hj => by cases hj; exact hi⟩, rfl⟩

/-- Asked without a pick, an open offer stays as it is. -/
theorem poll_none (ho : Open offer) (h : offer.poll = (none, rest)) : rest = offer := by
  unfold poll at h
  rw [if_pos ho.active] at h
  cases hs : offer.selected with
  | none => simp_all
  | some index => simp [hs, List.getElem?_eq_getElem (ho.selected index hs)] at h

/-- The pick of an open offer is delivered. -/
theorem poll_some (ho : Open offer) (h : offer.selected = some picked) :
    ∃ choice rest, offer.choices[picked]? = some choice ∧
      offer.poll = (some choice.target, rest) := by
  have hlt := ho.selected picked h
  refine ⟨offer.choices[picked], { offer with selected := none }.deactivate,
    List.getElem?_eq_getElem hlt, ?_⟩
  simp [poll, ho.active, h, List.getElem?_eq_getElem hlt]

end Offer.Open

namespace Interpreter

inductive Coherent (vm : Interpreter) : Prop
  | running : vm.suspend = .running → vm.cursor.line ≤ vm.program.size → vm.offer = {} →
      Coherent vm
  | waitingForInput : vm.suspend = .waitingForInput → vm.cursor.line ≤ vm.program.size →
      vm.offer = {} → 1 ≤ vm.cursor.line → vm.cursor.pendingJump = none → vm.Speaking →
      Coherent vm
  | waitingForChoice : vm.suspend = .waitingForChoice → vm.cursor.line ≤ vm.program.size →
      vm.offer.Open → 1 ≤ vm.cursor.line → vm.cursor.pendingJump = none → vm.Offering →
      Coherent vm

-- ---------------------------------------------------------------------------
-- Moves
-- ---------------------------------------------------------------------------

theorem Coherent.of_running (hc : Coherent vm) (hv : vm.suspend = .running) :
    vm.cursor.line ≤ vm.program.size ∧ vm.offer = {} := by
  cases hc with
  | running _ hl ho => exact ⟨hl, ho⟩
  | waitingForInput h => simp [hv] at h
  | waitingForChoice h => simp [hv] at h

theorem Coherent.of_waitingForInput (hc : Coherent vm) (hv : vm.suspend = .waitingForInput) :
    vm.cursor.line ≤ vm.program.size ∧ vm.offer = {} ∧ 1 ≤ vm.cursor.line ∧
      vm.cursor.pendingJump = none ∧ vm.Speaking := by
  cases hc with
  | running h => simp [hv] at h
  | waitingForInput _ hl ho h1 hp hs => exact ⟨hl, ho, h1, hp, hs⟩
  | waitingForChoice h => simp [hv] at h

theorem Coherent.of_waitingForChoice (hc : Coherent vm) (hv : vm.suspend = .waitingForChoice) :
    vm.cursor.line ≤ vm.program.size ∧ vm.offer.Open ∧ 1 ≤ vm.cursor.line ∧
      vm.cursor.pendingJump = none ∧ vm.Offering := by
  cases hc with
  | running h => simp [hv] at h
  | waitingForInput h => simp [hv] at h
  | waitingForChoice _ hl ho h1 hp hs => exact ⟨hl, ho, h1, hp, hs⟩

theorem text_of_dialogue (h : LineForm.classify text = .dialogue said) : said = text := by
  unfold LineForm.classify at h
  split at h <;> cases h
  rfl

theorem findLabel_lt {program : Program} (h : program.findLabel label = some index) :
    index < program.size :=
  (List.findIdx?_eq_some_iff_getElem.mp h).1

theorem coherent_jumpToLabel (vm : Interpreter) (hv : vm.suspend = .running)
    (hl : vm.cursor.line ≤ vm.program.size) (ho : vm.offer = {}) (label : String) :
    Coherent (vm.jumpToLabel label).1 := by
  cases hf : vm.program.findLabel label with
  | none =>
    rw [jumpToLabel_eq_of_none hf]
    exact .running hv hl ho
  | some index =>
    rw [jumpToLabel_eq_of_some hf]
    exact .running hv (findLabel_lt hf) ho

/-- The command is that of the line before the cursor. -/
theorem Obeys.coherent (h : Obeys vm line (Command.read body).value done)
    (hv : vm.suspend = .running) (hl : vm.cursor.line ≤ vm.program.size) (ho : vm.offer = {})
    (h1 : 1 ≤ vm.cursor.line) (hp : vm.cursor.pendingJump = none)
    (hf : vm.program.form? (vm.cursor.line - 1) = some (.command body)) :
    Coherent done.1 := by
  generalize hc : (Command.read body).value = command at h
  cases h with
  | choice => exact .waitingForChoice rfl hl (.ofChoices _ _) h1 hp ⟨body, hf, hc⟩
  | ifFails | elseIfFails | elseIfDone | otherwiseDone =>
    exact .running hv (BranchScan.find_le ..) ho
  | _ => exact .running hv hl ho

theorem LineStep.coherent (h : LineStep vm done) (hc : Coherent vm)
    (hv : vm.suspend = .running) : Coherent done.1 := by
  obtain ⟨hl, ho⟩ := hc.of_running hv
  cases h with
  | jump _ => exact coherent_jumpToLabel vm.takeJump hv hl ho _
  | label hr _ => exact .running hv hr.lt ho
  | dialogue hr hf =>
    cases text_of_dialogue hf
    refine .waitingForInput rfl hr.lt ho (Nat.le_add_left ..) hr.1 ⟨_, ?_, hf, rfl⟩
    simp [passLine, Cursor.advance, Program.line?, hr.2]
  | command hr hf ho' =>
    refine ho'.coherent hv hr.lt ho (Nat.le_add_left ..) hr.1 ?_
    simp [passLine, Cursor.advance, Program.form?, hr.2, hf]

theorem Coherent.move (h : Move vm next) (hc : Coherent vm) : Coherent next := by
  cases h with
  | line hv h => exact h.coherent hc hv
  | closeMenu hv _ => exact coherent_jumpToLabel vm.reopen rfl (hc.of_waitingForChoice hv).1 rfl _
  | poll hv h =>
    cases (hc.of_waitingForChoice hv).2.1.poll_none h
    exact hc
  | resume hv =>
    obtain ⟨hl, ho, -⟩ := hc.of_waitingForInput hv
    exact .running rfl hl ho
  | hover hv h =>
    obtain ⟨hl, ho, h1, hp, body, hf, hb⟩ := hc.of_waitingForChoice hv
    obtain ⟨hopen, heq⟩ := ho.hover h
    exact .waitingForChoice hv hl hopen h1 hp ⟨body, hf, heq ▸ hb⟩
  | select hv h =>
    obtain ⟨hl, ho, h1, hp, body, hf, hb⟩ := hc.of_waitingForChoice hv
    obtain ⟨hopen, heq⟩ := ho.select h
    exact .waitingForChoice hv hl hopen h1 hp ⟨body, hf, heq ▸ hb⟩
  | load => exact .running rfl (Nat.zero_le _) rfl

-- ---------------------------------------------------------------------------
-- The end of a story
-- ---------------------------------------------------------------------------

theorem isFinished_iff {vm : Interpreter} :
    vm.isFinished = true ↔ vm.suspend = .running ∧ vm.stepLine? = none := by
  simp [isFinished, stepLine?_eq_none, and_assoc]

theorem step_running_eq_false_iff {vm : Interpreter} :
    vm.step.running = false ↔ vm.isFinished = true := by
  rw [isFinished_iff]
  cases hv : vm.suspend with
  | running =>
    cases hs : vm.stepLine? with
    | none => simp [step_of_end hv hs]
    | some _ => simp [step_of_line hv hs]
  | waitingForInput => simp [step_of_waitingForInput hv]
  | waitingForChoice =>
    rcases hp : vm.offer.poll with ⟨_ | label, rest⟩
    · simp [step_of_noPick hv hp]
    · simp [step_of_pick hv hp]

/-- An ended story is left alone by all but a new program. -/
theorem operate_of_finished {vm : Interpreter} (h : vm.isFinished = true) (ready : Bool)
    (op : Operation) (hop : ∀ program, op ≠ .load program) :
    (vm.operate ready op).vm = vm ∧ (vm.operate ready op).calls = [] := by
  obtain ⟨hv, hs⟩ := isFinished_iff.mp h
  cases op with
  | step => simp [operate, step_of_end hv hs, Moment.calls]
  | input given =>
    have hi : vm.suspend ≠ .waitingForInput := by simp [hv]
    have hc : vm.suspend ≠ .waitingForChoice := by simp [hv]
    cases given with
    | click => simp [operate, input_click_ignored hi, Moment.calls]
    | hover _ => simp [operate, input_hover_ignored hc, Moment.calls]
    | select _ => simp [operate, input_select_refused hc, Moment.calls]
  | load program => exact absurd rfl (hop program)

/-- What a host can rely on, whatever it has done so far. -/
structure Consistent (vm : Interpreter) : Prop where
  line_le : vm.cursor.line ≤ vm.program.size
  choosing_iff : vm.suspend = .waitingForChoice ↔ vm.offer.active = true
  active_iff : vm.offer.active = true ↔ vm.offer.choices ≠ []
  choosing : vm.suspend = .waitingForChoice → 1 ≤ vm.cursor.line ∧ vm.Offering
  hovered_lt : ∀ index, vm.offer.hovered = some index → index < vm.offer.choices.length
  selected_lt : ∀ index, vm.offer.selected = some index → index < vm.offer.choices.length
  closed : vm.suspend ≠ .waitingForChoice →
    vm.offer.choices = [] ∧ vm.offer.hovered = none ∧ vm.offer.selected = none
  speaking : vm.suspend = .waitingForInput → 1 ≤ vm.cursor.line ∧ vm.Speaking
  jumping : vm.cursor.pendingJump.isSome = true → vm.suspend = .running

theorem Coherent.consistent (hc : Coherent vm) : Consistent vm := by
  cases hc with
  | running hv hl ho => constructor <;> simp_all
  | waitingForInput hv hl ho h1 hp hs => constructor <;> simp_all
  | waitingForChoice hv hl ho h1 hp hs =>
    exact {
      line_le := hl
      choosing_iff := by simp [hv, ho.active]
      active_iff := by simp [ho.active, ho.nonempty]
      choosing := fun _ => ⟨h1, hs⟩
      hovered_lt := ho.hovered
      selected_lt := ho.selected
      closed := fun h => absurd hv h
      speaking := by simp [hv]
      jumping := by simp [hp] }

end Interpreter

namespace Session

theorem coherent_after (sink : DisplaySink σ) (options : Options) (display : σ)
    (ops : List Operation) : ((start options display).after sink ops).vm.Coherent :=
  after_preserve sink _ Interpreter.Coherent.move (.running rfl (Nat.zero_le _) rfl) ops

theorem operate_of_finished (sink : DisplaySink σ) {session : Session σ}
    (h : session.vm.isFinished = true) (op : Operation) (hop : ∀ program, op ≠ .load program) :
    (session.operate sink op).next = session ∧
      (session.operate sink op).moment.calls = [] := by
  obtain ⟨hvm, hcalls⟩ :=
    Interpreter.operate_of_finished h (sink.isTextReady session.display) op hop
  rw [← operate_moment] at hcalls
  have hdisplay := operate_display sink session op
  rw [hcalls] at hdisplay
  rw [← operate_vm] at hvm
  exact ⟨congrArg₂ Session.mk hvm hdisplay, hcalls⟩

theorem after_of_finished (sink : DisplaySink σ) {session : Session σ}
    (h : session.vm.isFinished = true) (hops : ∀ program, .load program ∉ ops) :
    session.after sink ops = session ∧
      ∀ moment ∈ session.moments sink ops, moment.calls = [] := by
  induction ops with
  | nil => exact ⟨rfl, by simp [moments]⟩
  | cons op ops ih =>
    obtain ⟨hop, hops⟩ := noLoad_cons.mp hops
    obtain ⟨hnext, hcalls⟩ := operate_of_finished sink h op hop
    obtain ⟨hafter, hrest⟩ := ih hops
    simp only [after, moments, hnext, List.forall_mem_cons]
    exact ⟨hafter, hcalls, hrest⟩

theorem reachable_consistent (sink : DisplaySink σ) (options : Options) (display : σ)
    (ops : List Operation) :
    let session := (start options display).after sink ops
    session.vm.Consistent ∧
      ((session.step sink).running = false ↔ session.vm.isFinished = true) ∧
      (session.vm.isFinished = true → ∀ later, (∀ program, .load program ∉ later) →
        session.after sink later = session ∧
          ∀ moment ∈ session.moments sink later, moment.calls = []) :=
  ⟨(coherent_after sink options display ops).consistent,
    by rw [step_running]; exact Interpreter.step_running_eq_false_iff,
    fun h _ hlater => after_of_finished sink h hlater⟩

end Session

end VisualNovel
