import VisualNovel.Proofs.Script.ScanLaws
import VisualNovel.Proofs.Session.Bisimulation

/-!
# The stack of branches is one bit

Jumps leave entries behind and stray markers act on the entries of other blocks,
yet nothing depends on more than whether the innermost branch is still to be
taken. `Branching` ties that bit to the line at the cursor: a branch is untaken
only while the story stands on the marker that decides about the next one, and
all entries outside are taken. `branches_one_bit` replaces the stack by its bit.
-/

namespace VisualNovel

/-- Every block but the innermost has had a branch taken. -/
def OuterTaken (branches : List Bool) : Prop :=
  ∀ taken ∈ branches.tail, taken = true

namespace OuterTaken

theorem all (h : OuterTaken branches) (hb : branches.head? ≠ some false) :
    ∀ taken ∈ branches, taken = true := by
  cases branches with
  | nil => simp
  | cons first rest =>
    cases first with
    | true => simpa [OuterTaken] using h
    | false => simp at hb

theorem tail (h : OuterTaken branches) : OuterTaken branches.tail :=
  fun taken ht => h taken (List.mem_of_mem_tail ht)

theorem head?_tail (h : OuterTaken branches) : branches.tail.head? ≠ some false := by
  intro hb
  exact absurd (h false (List.mem_of_mem_head? hb)) Bool.false_ne_true

end OuterTaken

namespace Interpreter

/-- The story is about to run a marker that may begin another branch, or is at
its end. -/
def AtBranch (vm : Interpreter) : Prop :=
  vm.cursor.line = vm.program.size ∨ ∃ line marker,
    vm.program.lines[vm.cursor.line]? = some line ∧ Marker.ofLine? line = some marker ∧
      marker.isNextBranch = true

structure Branching (vm : Interpreter) : Prop where
  outer : OuterTaken vm.cursor.branches
  untaken : vm.cursor.top? = some false →
    vm.suspend = .running ∧ vm.cursor.pendingJump = none ∧ vm.AtBranch

theorem Branching.of_taken (ho : OuterTaken vm.cursor.branches)
    (ht : vm.cursor.top? ≠ some false) : Branching vm :=
  ⟨ho, fun h => absurd h ht⟩

theorem Branching.top_of_suspend (hb : Branching vm) (hv : vm.suspend ≠ .running) :
    vm.cursor.top? ≠ some false :=
  fun h => hv (hb.untaken h).1

theorem Branching.top_of_reads (hb : Branching vm) (hr : Reads vm line)
    (hm : ∀ marker, Marker.ofLine? line = some marker → marker.isNextBranch = false) :
    vm.cursor.top? ≠ some false := by
  intro h
  rcases (hb.untaken h).2.2 with hend | ⟨line', marker, hl, hm', hs⟩
  · exact absurd hr.lt (hend ▸ Nat.lt_irrefl _)
  · cases hr.2.symm.trans hl
    simp [hm marker hm'] at hs

-- ---------------------------------------------------------------------------
-- Moves keep it
-- ---------------------------------------------------------------------------

/-- The command is the one on the line just passed; unless it is the marker of
another branch, no branch was left untaken. -/
theorem Obeys.branching (h : Obeys vm line command done) (hv : vm.suspend = .running)
    (hp : vm.cursor.pendingJump = none) (ho : OuterTaken vm.cursor.branches)
    (ht : (∀ marker, command.marker? = some marker → marker.isNextBranch = false) →
      vm.cursor.top? ≠ some false) : Branching done.1 := by
  have stops : ∀ branches : List Bool, AtBranch (vm.branchTo
      (vm.options.branchScan.nextBranch vm.program vm.cursor.line) branches) :=
    fun _ => BranchScan.find_stops ..
  cases h with
  | ifHolds _ =>
    have hif := ho.all (ht (by simp [Command.marker?, Marker.isNextBranch]))
    exact ⟨hif, fun h => by simp [branchTo, Cursor.top?] at h⟩
  | ifFails _ =>
    have hif := ho.all (ht (by simp [Command.marker?, Marker.isNextBranch]))
    exact ⟨hif, fun _ => ⟨hv, hp, stops _⟩⟩
  | elseIfHolds hs _ | otherwise hs =>
    exact ⟨by simpa [OuterTaken, hs, branchTo] using ho,
      fun h => by simp [branchTo, Cursor.top?] at h⟩
  | elseIfFails hs _ =>
    exact ⟨by simpa [OuterTaken, hs, branchTo] using ho, fun _ => ⟨hv, hp, stops _⟩⟩
  | elseIfDone hs | otherwiseDone hs => exact .of_taken ho hs
  | endIf => exact .of_taken ho.tail ho.head?_tail
  | _ => exact .of_taken ho (ht (by simp [Command.marker?]))

theorem branching_jumpToLabel (vm : Interpreter) (ho : OuterTaken vm.cursor.branches)
    (ht : vm.cursor.top? ≠ some false) (label : String) :
    Branching (vm.jumpToLabel label).1 := by
  cases hf : vm.program.findLabel label with
  | none =>
    rw [jumpToLabel_eq_of_none hf]
    exact .of_taken ho ht
  | some index =>
    rw [jumpToLabel_eq_of_some hf]
    exact .of_taken ho ht

theorem LineStep.branching (h : LineStep vm done) (hb : Branching vm)
    (hv : vm.suspend = .running) : Branching done.1 := by
  cases h with
  | jump hj =>
    refine branching_jumpToLabel vm.takeJump hb.outer (fun h => ?_) _
    simp [(hb.untaken h).2.1] at hj
  | label hr hf | dialogue hr hf =>
    refine .of_taken hb.outer (hb.top_of_reads hr fun marker hm => ?_)
    simp [Marker.ofLine?, hf, LineForm.commandName?] at hm
  | command hr hf ho =>
    refine ho.branching hv hr.1 hb.outer fun hm => hb.top_of_reads hr ?_
    rwa [Marker.ofLine?_of_body hf]

theorem Branching.move (h : Move vm next) (hb : Branching vm) : Branching next := by
  cases h with
  | line hv h => exact h.branching hb hv
  | closeMenu hv _ =>
    exact branching_jumpToLabel vm.reopen hb.outer (hb.top_of_suspend (by simp [hv])) _
  | poll hv _ | resume hv | hover hv _ | select hv _ =>
    exact .of_taken hb.outer (hb.top_of_suspend (by simp [hv]))
  | load => exact ⟨fun _ h => (nomatch h), fun h => (nomatch h)⟩

theorem branching_ofOptions (options : Options) : Branching (ofOptions options) :=
  ⟨by simp [ofOptions, OuterTaken], by simp [ofOptions, Cursor.top?]⟩

-- ---------------------------------------------------------------------------
-- Another stack with the same bit
-- ---------------------------------------------------------------------------

def withBranches (vm : Interpreter) (branches : List Bool) : Interpreter :=
  { vm with cursor := { vm.cursor with branches } }

end Interpreter

structure SameBit (s t : List Bool) : Prop where
  untaken_iff : s.head? = some false ↔ t.head? = some false
  left : OuterTaken s
  right : OuterTaken t

namespace SameBit

theorem push (h : SameBit s t) (hs : s.head? ≠ some false) (taken : Bool) :
    SameBit (taken :: s) (taken :: t) :=
  ⟨Iff.rfl, h.left.all hs, h.right.all fun ht => hs (h.untaken_iff.mpr ht)⟩

theorem tail (h : SameBit s t) : SameBit s.tail t.tail :=
  ⟨⟨fun hs => absurd hs h.left.head?_tail, fun ht => absurd ht h.right.head?_tail⟩,
    h.left.tail, h.right.tail⟩

/-- An untaken branch is innermost in both, and may be overwritten in both. -/
theorem of_untaken (h : SameBit (false :: s) t) :
    ∃ outer, t = false :: outer ∧ ∀ taken, SameBit (taken :: s) (taken :: outer) := by
  obtain ⟨outer, rfl⟩ := List.head?_eq_some_iff.mp (h.untaken_iff.mp rfl)
  exact ⟨outer, rfl, fun _ => ⟨Iff.rfl, h.left, h.right⟩⟩

end SameBit

namespace Interpreter

theorem Obeys.withBranches (h : Obeys vm line command done)
    (hs : SameBit vm.cursor.branches branches)
    (hif : command.marker? = some .ifHolds → vm.cursor.branches.head? ≠ some false) :
    ∃ branches', Obeys (vm.withBranches branches) line command
        (done.1.withBranches branches', done.2) ∧
      SameBit done.1.cursor.branches branches' := by
  cases h with
  | ifHolds hc => exact ⟨_, .ifHolds hc, hs.push (hif rfl) true⟩
  | ifFails hc => exact ⟨_, .ifFails hc, hs.push (hif rfl) false⟩
  | elseIfHolds hb hc =>
    obtain ⟨outer, rfl, hpush⟩ := (hb ▸ hs).of_untaken
    exact ⟨_, .elseIfHolds rfl hc, hpush true⟩
  | elseIfFails hb hc =>
    obtain ⟨outer, rfl, hpush⟩ := (hb ▸ hs).of_untaken
    exact ⟨_, .elseIfFails rfl hc, hpush false⟩
  | otherwise hb =>
    obtain ⟨outer, rfl, hpush⟩ := (hb ▸ hs).of_untaken
    exact ⟨_, .otherwise rfl, hpush true⟩
  | elseIfDone ht => exact ⟨_, .elseIfDone fun h => ht (hs.untaken_iff.mpr h), hs⟩
  | otherwiseDone ht => exact ⟨_, .otherwiseDone fun h => ht (hs.untaken_iff.mpr h), hs⟩
  | endIf => exact ⟨_, .endIf, hs.tail⟩
  | _ => exact ⟨branches, by constructor, hs⟩

theorem jumpToLabel_withBranches (vm : Interpreter) (branches : List Bool) (label : String) :
    (vm.withBranches branches).jumpToLabel label =
      ((vm.jumpToLabel label).1.withBranches branches, (vm.jumpToLabel label).2) := by
  cases hf : vm.program.findLabel label with
  | none => rw [jumpToLabel_eq_of_none hf]; exact jumpToLabel_eq_of_none hf
  | some index => rw [jumpToLabel_eq_of_some hf]; exact jumpToLabel_eq_of_some hf

theorem LineStep.withBranches (h : LineStep vm done) (hb : Branching vm)
    (hs : SameBit vm.cursor.branches branches) :
    ∃ branches', LineStep (vm.withBranches branches) (done.1.withBranches branches', done.2) ∧
      SameBit done.1.cursor.branches branches' := by
  cases h with
  | jump hj =>
    refine ⟨branches, ?_, jumpToLabel_branches vm.takeJump _ ▸ hs⟩
    exact jumpToLabel_withBranches vm.takeJump branches _ ▸ .jump hj
  | label hr hf => exact ⟨branches, .label hr hf, hs⟩
  | dialogue hr hf => exact ⟨branches, .dialogue hr hf, hs⟩
  | @command line body done hr hf ho =>
    have hif (hm : (Command.read body).value.marker? = some .ifHolds) :
        vm.cursor.branches.head? ≠ some false := by
      rw [← Marker.ofLine?_of_body hf] at hm
      exact hb.top_of_reads hr fun marker h => by cases hm.symm.trans h; rfl
    obtain ⟨branches', ho', hs'⟩ := ho.withBranches hs hif
    have hr' : Reads (vm.withBranches branches) line := hr
    exact ⟨branches', .command hr' hf ho', hs'⟩

/-- The same interpreter but for a stack of branches with the same bit. -/
def OneBit (vm other : Interpreter) : Prop :=
  vm.Branching ∧ ∃ branches, other = vm.withBranches branches ∧
    SameBit vm.cursor.branches branches

theorem oneBit_bisimulation : Bisimulation OneBit where
  suspend := by rintro _ _ ⟨-, _, rfl, -⟩; rfl
  offer := by rintro _ _ ⟨-, _, rfl, -⟩; rfl
  line := by rintro _ _ ⟨-, _, rfl, -⟩; rfl
  limit := by rintro _ _ ⟨-, _, rfl, -⟩; rfl
  stop := by
    rintro vm _ ⟨-, branches, rfl, -⟩ h
    have hend := stepLine?_eq_none.mp h
    exact stepLine?_eq_none.mpr hend
  step := by
    rintro vm _ done ⟨hb, branches, rfl, hs⟩ hv h
    obtain ⟨branches', h', hs'⟩ := h.withBranches hb hs
    exact ⟨_, h', h.branching hb hv, branches', rfl, hs'⟩
  choose := by
    rintro vm _ ⟨hb, branches, rfl, hs⟩ hv label
    have ht := hb.top_of_suspend (by simp [hv])
    have hj := jumpToLabel_withBranches vm.reopen branches label
    refine ⟨⟨branching_jumpToLabel vm.reopen hb.outer ht label, branches, ?_, ?_⟩, ?_⟩
    · exact congrArg Prod.fst hj
    · exact jumpToLabel_branches vm.reopen label ▸ hs
    · exact (congrArg Prod.snd hj).symm
  pick := by
    rintro vm _ ⟨hb, branches, rfl, hs⟩ hv picked
    exact ⟨.of_taken hb.outer (hb.top_of_suspend (by simp [hv])), branches, rfl, hs⟩
  resume := by
    rintro vm _ ⟨hb, branches, rfl, hs⟩ hv
    exact ⟨.of_taken hb.outer (hb.top_of_suspend (by simp [hv])), branches, rfl, hs⟩
  load := by
    rintro vm _ ⟨hb, branches, rfl, -⟩ program
    have hload : Branching (vm.load program) := Branching.move .load hb
    exact ⟨hload, [], rfl, Iff.rfl, hload.outer, hload.outer⟩

end Interpreter

/-- All that matters of a stack. -/
def branchBit (branches : List Bool) : List Bool :=
  if branches.head? = some false then [false] else []

theorem SameBit.branchBit (h : OuterTaken branches) : SameBit branches (branchBit branches) := by
  unfold VisualNovel.branchBit
  split
  · rename_i hb
    exact ⟨by simp [hb], h, by simp [OuterTaken]⟩
  · rename_i hb
    exact ⟨by simp [hb], h, by simp [OuterTaken]⟩

namespace Session

theorem branching_after (sink : DisplaySink σ) (options : Options) (display : σ)
    (ops : List Operation) : ((start options display).after sink ops).vm.Branching :=
  after_preserve sink _ Interpreter.Branching.move (Interpreter.branching_ofOptions options) ops

/-- In `branches` the innermost entry comes first. -/
theorem branches_one_bit (sink : DisplaySink σ) (options : Options) (display : σ)
    (ops : List Operation) :
    let session := (start options display).after sink ops
    let squeezed := session.vm.withBranches (branchBit session.vm.cursor.branches)
    (∀ taken ∈ session.vm.cursor.branches.tail, taken = true) ∧
      (session.vm.cursor.branches.head? = some false →
        session.vm.suspend = .running ∧ session.vm.cursor.pendingJump = none ∧
          session.vm.AtBranch) ∧
      ∀ later, (session.moments sink later).map Moment.seen =
        ({ session with vm := squeezed }.moments sink later).map Moment.seen := by
  intro session squeezed
  have hb : session.vm.Branching := branching_after sink options display ops
  refine ⟨hb.outer, hb.untaken, fun later => ?_⟩
  have h : Interpreter.OneBit session.vm squeezed := ⟨hb, _, rfl, .branchBit hb.outer⟩
  exact Interpreter.oneBit_bisimulation.moments sink session { session with vm := squeezed } h rfl later

end Session

end VisualNovel
