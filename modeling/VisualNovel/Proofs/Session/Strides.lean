import VisualNovel.Proofs.Session.JustPassed

/-!
# Strides

How the cursor gets on in a history: a line is run, wherever that takes the cursor,
or a jump or a pick takes it elsewhere. A `Walk` is a history that loads nothing,
move by move, with its strides; what every move keeps, every history keeps
(`Walk.preserve`, `Session.walk_after`). A stride that is no line leads from behind
a line to behind a label it names, or nowhere (`Led`).
-/

namespace VisualNovel

inductive Stride where
  /-- The line at the index was run. -/
  | line (index : Nat)
  /-- A jump or a pick, from one line to another. -/
  | jump (before after : Nat)
  deriving DecidableEq, Repr

def Stride.line? : Stride → Option Nat
  | .line index => some index
  | .jump .. => none

namespace Interpreter

-- ---------------------------------------------------------------------------
-- The strides of an operation
-- ---------------------------------------------------------------------------

/-- Of a line run or a pending jump made. -/
def stride (vm next : Interpreter) : Stride :=
  if vm.cursor.pendingJump.isSome then .jump vm.cursor.line next.cursor.line
  else .line vm.cursor.line

def chainStrides : Nat → Interpreter → List Stride
  | fuel, vm =>
    if vm.suspend = .running then
      match fuel with
      | 0 => []
      | fuel + 1 =>
        match vm.stepLine? with
        | none => []
        | some (next, _) => vm.stride next :: chainStrides fuel next
    else []

def strides (vm : Interpreter) : Operation → List Stride
  | .step =>
    match vm.suspend with
    | .waitingForChoice =>
      match vm.offer.poll with
      | (none, _) => []
      | (some label, _) =>
        let next := (vm.reopen.jumpToLabel label).1
        .jump vm.cursor.line next.cursor.line :: chainStrides next.options.maxChainSteps next
    | .waitingForInput => []
    | .running => chainStrides 1 vm
  | .input _ | .load _ => []

-- ---------------------------------------------------------------------------
-- Walks
-- ---------------------------------------------------------------------------

/-- One move, with the strides it makes. -/
inductive Strode : Interpreter → List Stride → Interpreter → Prop
  | line : vm.suspend = .running → LineStep vm done → Strode vm [vm.stride done.1] done.1
  | pick : vm.suspend = .waitingForChoice → vm.offer.poll = (some label, rest) →
      Strode vm [.jump vm.cursor.line (vm.reopen.jumpToLabel label).1.cursor.line]
        (vm.reopen.jumpToLabel label).1
  | stays : Move vm next → next.program = vm.program → next.cursor = vm.cursor →
      Strode vm [] next

inductive Walk : Interpreter → List Stride → Interpreter → Prop
  | refl : Walk vm [] vm
  | head : Strode vm made next → Walk next more last → Walk vm (made ++ more) last

theorem Strode.move (h : Strode vm made next) : Move vm next := by
  cases h with
  | line hv hs => exact .line hv hs
  | pick hv hp => exact .closeMenu hv hp
  | stays h _ _ => exact h

theorem Strode.program (h : Strode vm made next) : next.program = vm.program := by
  cases h with
  | line _ hs => exact hs.program
  | pick _ _ => exact jumpToLabel_program vm.reopen _
  | stays _ hp _ => exact hp

namespace Walk

theorem trans (h : Walk vm made next) (h' : Walk next more last) :
    Walk vm (made ++ more) last := by
  induction h with
  | refl => exact h'
  | head hs _ ih =>
    rw [List.append_assoc]
    exact .head hs (ih h')

theorem single (h : Strode vm made next) : Walk vm made next :=
  List.append_nil made ▸ .head h .refl

theorem preserve {P : List Stride → Interpreter → Prop}
    (hkeep : ∀ {before vm made next}, Strode vm made next → P before vm →
      P (before ++ made) next)
    (walk : Walk vm made last) (h : P before vm) : P (before ++ made) last := by
  induction walk generalizing before with
  | refl => rwa [List.append_nil]
  | head hs _ ih =>
    rw [← List.append_assoc]
    exact ih (hkeep hs h)

end Walk

theorem walk_runChain (fuel : Nat) (vm : Interpreter) :
    Walk vm (vm.chainStrides fuel) (vm.runChain fuel).1 := by
  induction fuel generalizing vm with
  | zero =>
    unfold chainStrides runChain
    split <;> exact .refl
  | succ fuel ih =>
    unfold chainStrides runChain
    split
    · rename_i hv
      cases hs : vm.stepLine? with
      | none => exact .refl
      | some done => exact .head (.line hv (stepLine?_eq_some.mp hs)) (ih done.1)
    · exact .refl

theorem walk_step (vm : Interpreter) : Walk vm (vm.strides .step) vm.step.next := by
  cases hv : vm.suspend with
  | running =>
    cases hs : vm.stepLine? with
    | none => simpa [strides, chainStrides, hv, hs, step_of_end] using .refl
    | some done =>
      have hline := Strode.line hv (stepLine?_eq_some.mp hs)
      simpa [strides, chainStrides, hv, hs, step_of_line] using .single hline
  | waitingForInput => simpa [strides, hv, step_of_waitingForInput] using .refl
  | waitingForChoice =>
    rcases hp : vm.offer.poll with ⟨_ | label, rest⟩
    · have hstrides : vm.strides .step = [] := by simp [strides, hv, hp]
      rw [hstrides, step_of_noPick hv hp]
      exact .single (.stays (.poll hv hp) rfl rfl)
    · simp only [strides, hv, hp]
      rw [step_of_pick hv hp]
      exact .head (.pick hv hp) (walk_runChain ..)

theorem walk_operate (vm : Interpreter) (ready : Bool) (hop : ∀ program, op ≠ .load program) :
    Walk vm (vm.strides op) (vm.operate ready op).vm := by
  cases op with
  | step => exact walk_step vm
  | load program => exact absurd rfl (hop program)
  | input given =>
    cases h : vm.input ready given with
    | error _ => simpa [operate, strides, h] using .refl
    | ok done =>
      obtain ⟨outcome, next⟩ := done
      simp only [operate, strides, h]
      cases takes_of_input h with
      | resume hv _ => exact .single (.stays (.resume hv) rfl rfl)
      | hover hv ho => exact .single (.stays (.hover hv ho) rfl rfl)
      | select hv ho => exact .single (.stays (.select hv ho) rfl rfl)
      | reveal _ _ | ignored => exact .refl

-- ---------------------------------------------------------------------------
-- Where a jump leads
-- ---------------------------------------------------------------------------

/-- From behind a line to behind a label that it names; or the label is undefined. -/
def Led (program : Program) (before after : Nat) : Prop :=
  before = after ∨ ∃ index label target, program.Names index label ∧
    program.findLabel label = some target ∧ before = index + 1 ∧ after = target + 1

theorem JustNamed.led (h : JustNamed vm label) :
    Led vm.program vm.cursor.line (vm.jumpToLabel label).1.cursor.line := by
  obtain ⟨index, hline, hnames⟩ := h
  cases hf : vm.program.findLabel label with
  | none =>
    rw [jumpToLabel_eq_of_none hf]
    exact .inl rfl
  | some target =>
    rw [jumpToLabel_eq_of_some hf]
    exact .inr ⟨index, label, target, hnames, hf, hline, rfl⟩

theorem Strode.led (h : Strode vm made next) (hb : Bound vm)
    (hjump : .jump before after ∈ made) : Led vm.program before after := by
  cases h with
  | line hv hs =>
    cases hs with
    | jump hj =>
      have hnamed : JustNamed vm.takeJump _ := hb.pending _ hj
      simp only [stride, hj, Option.isSome_some, if_true, List.mem_singleton,
        Stride.jump.injEq] at hjump
      obtain ⟨rfl, rfl⟩ := hjump
      exact hnamed.led
    | label hr _ | dialogue hr _ | command hr _ _ => simp [stride, hr.1] at hjump
  | pick hv hp =>
    obtain ⟨choice, hchoice, rfl⟩ := Offer.mem_of_poll hp
    have hnamed : JustNamed vm.reopen choice.target := hb.offered hv hchoice
    simp only [List.mem_singleton, Stride.jump.injEq] at hjump
    obtain ⟨rfl, rfl⟩ := hjump
    exact hnamed.led
  | stays _ _ _ => cases hjump

/-- Where all jumps of a walk lead. -/
theorem Walk.led (walk : Walk vm made last) (hb : Bound vm)
    (hjump : .jump before after ∈ made) : Led vm.program before after := by
  induction walk with
  | refl => cases hjump
  | head hs _ ih =>
    rcases List.mem_append.mp hjump with h | h
    · exact hs.led hb h
    · exact hs.program ▸ ih (hb.move hs.move) h

end Interpreter

-- ---------------------------------------------------------------------------
-- Histories
-- ---------------------------------------------------------------------------

namespace Session

def strides (sink : DisplaySink σ) (session : Session σ) : List Operation → List Stride
  | [] => []
  | op :: ops => session.vm.strides op ++ (session.operate sink op).next.strides sink ops

theorem walk_after (sink : DisplaySink σ) (session : Session σ)
    (hops : ∀ program, .load program ∉ ops) :
    session.vm.Walk (session.strides sink ops) (session.after sink ops).vm := by
  induction ops generalizing session with
  | nil => exact .refl
  | cons op ops ih =>
    obtain ⟨hop, hops⟩ := noLoad_cons.mp hops
    have hwalk := session.vm.walk_operate (sink.isTextReady session.display) hop
    rw [← operate_vm] at hwalk
    exact hwalk.trans (ih _ hops)

end Session

end VisualNovel
