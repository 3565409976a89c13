import VisualNovel.Proofs.Block.Scan
import VisualNovel.Proofs.Interpreter.LineRules

/-!
# Running blocks

The lines of a block, run where they stand in a program, give what the block
means, and the stack of branches is in the end as it was (`Block.goes`). The
interpreter scans nested and is clicked on whenever it waits.
-/

namespace VisualNovel

-- ---------------------------------------------------------------------------
-- Runs
-- ---------------------------------------------------------------------------

def Action.event? : Action → Option Event
  | .display _ command => some (.shown command)
  | .closeMenu => some (.shown .hideChoices)
  | .wrote character value => some (.wrote character value)
  | .log _ => none

/-- The text last shown, when the given one was shown before. -/
def textAfter (text : Option String) (events : List Event) : Option String :=
  events.foldl (fun text event =>
    match event with
    | .shown command => command.text? <|> text
    | .wrote .. => text) text

/-- Lines run one after another, with every text clicked on. -/
inductive Plays : Interpreter → List Event → Interpreter → Prop
  | refl : Plays vm [] vm
  | line : vm.suspend = .running → vm.LineStep (next, actions) →
      next.suspend = .running ∨ next.suspend = .waitingForInput →
      Plays { next with suspend := .running } events last →
      Plays vm (actions.filterMap Action.event? ++ events) last

theorem Plays.trans (h : Plays vm first middle) (h' : Plays middle second last) :
    Plays vm (first ++ second) last := by
  induction h with
  | refl => exact h'
  | line hv hs hn _ ih =>
    rw [List.append_assoc]
    exact .line hv hs hn (ih h')

/-- What a block moves. -/
structure Spot where
  line : Nat
  branches : List Bool
  affection : AffectionTable

/-- The interpreter running from the spot, with no jump to make. -/
def Interpreter.placed (vm : Interpreter) (spot : Spot) (text : Option String) : Interpreter :=
  { vm with
    cursor := { line := spot.line, branches := spot.branches }
    suspend := .running
    currentText := text
    affection := spot.affection }

def Goes (vm : Interpreter) (start : Spot) (events : List Event) (stop : Spot) : Prop :=
  ∀ text, Plays (vm.placed start text) events (vm.placed stop (textAfter text events))

theorem Goes.refl : Goes vm spot [] spot :=
  fun _ => .refl

theorem Goes.trans (h : Goes vm start first middle) (h' : Goes vm middle second stop) :
    Goes vm start (first ++ second) stop := by
  intro text
  have hs : textAfter text (first ++ second) = textAfter (textAfter text first) second :=
    List.foldl_append
  rw [hs]
  exact (h text).trans (h' _)

-- ---------------------------------------------------------------------------
-- One line
-- ---------------------------------------------------------------------------

/-- Faults in a command are logged and not seen. -/
theorem filterMap_event?_malformed (errors : List ScriptError) (actions : List Action) :
    (errors.map (Action.log <| .malformedCommand number ·) ++ actions).filterMap Action.event? =
      actions.filterMap Action.event? := by
  induction errors with
  | nil => rfl
  | cons error errors ih => exact ih

namespace Goes

section
variable {vm : Interpreter}

theorem ofCommand (hl : vm.program.lines[index]? = some line)
    (hc : line.command? = some command)
    (ho : ∀ text, (vm.placed ⟨index + 1, branches, affection⟩ text).Obeys line.number command
      (vm.placed stop (textAfter text events), actions))
    (he : actions.filterMap Action.event? = events) :
    Goes vm ⟨index, branches, affection⟩ events stop := by
  intro text
  obtain ⟨body, hf, rfl⟩ := ScriptLine.command?_eq_some.mp hc
  have hs : (vm.placed ⟨index, branches, affection⟩ text).LineStep _ :=
    .command ⟨rfl, hl⟩ hf (ho text)
  have hp := Plays.line rfl hs (.inl rfl) .refl
  rwa [List.append_nil, filterMap_event?_malformed, he] at hp

theorem ofPlain (line : PlainLine) (hl : vm.program.lines[index]? = some line.val) :
    Goes vm ⟨index, branches, affection⟩ (line.val.tell affection).2
      ⟨index + 1, branches, (line.val.tell affection).1⟩ := by
  cases hf : line.val.form with
  | label name =>
    simp only [ScriptLine.tell, hf]
    exact fun _ => .line rfl (.label ⟨rfl, hl⟩ hf) (.inl rfl) .refl
  | dialogue text =>
    simp only [ScriptLine.tell, hf]
    exact fun _ => .line rfl (.dialogue ⟨rfl, hl⟩ hf) (.inr rfl) .refl
  | command body =>
    have hc := ScriptLine.command?_of_command hf
    have hp : (Command.read body).value.isPlain = true := by simpa [hc] using line.property
    simp only [ScriptLine.tell, hf]
    generalize (Command.read body).value = command at hc hp
    cases command with
    | background layer path transition => exact ofCommand hl hc (fun _ => .background) rfl
    | character layer position path => exact ofCommand hl hc (fun _ => .character) rfl
    | clear layer => exact ofCommand hl hc (fun _ => .clear) rfl
    | affection who delta =>
      have ho (text) : (vm.placed ⟨index + 1, branches, affection⟩ text).Obeys line.val.number
          (.affection who delta)
          (vm.placed ⟨index + 1, branches, affection.change who delta⟩ text,
            [.wrote who ((affection.change who delta).get who)]) := .affection
      exact ofCommand hl hc ho rfl
    | choice options =>
      cases List.isEmpty_iff.mp hp
      exact ofCommand hl hc (fun _ => .noChoice) rfl
    | unknown name => exact ofCommand hl hc (fun _ => .unknown) rfl
    | invalid name => exact ofCommand hl hc (fun _ => .invalid) rfl
    | ifHolds | elseIf | otherwise | endIf | jump => contradiction

theorem ofEndIf (line : LineOf .endIf) (hl : vm.program.lines[index]? = some line.val) :
    Goes vm ⟨index, taken :: branches, affection⟩ [] ⟨index + 1, branches, affection⟩ :=
  ofCommand hl line.property (fun _ => .endIf) rfl

theorem ofIf_holds (line : LineOf (.ifHolds condition))
    (hl : vm.program.lines[index]? = some line.val) (hc : condition.holds affection = true) :
    Goes vm ⟨index, branches, affection⟩ [] ⟨index + 1, true :: branches, affection⟩ :=
  ofCommand hl line.property (fun _ => .ifHolds hc) rfl

theorem ofElseIf_holds (line : LineOf (.elseIf condition))
    (hl : vm.program.lines[index]? = some line.val) (hc : condition.holds affection = true) :
    Goes vm ⟨index, false :: branches, affection⟩ [] ⟨index + 1, true :: branches, affection⟩ :=
  ofCommand hl line.property (fun _ => .elseIfHolds rfl hc) rfl

theorem ofOtherwise (line : LineOf .otherwise) (hl : vm.program.lines[index]? = some line.val) :
    Goes vm ⟨index, false :: branches, affection⟩ [] ⟨index + 1, true :: branches, affection⟩ :=
  ofCommand hl line.property (fun _ => .otherwise rfl) rfl

variable {body : Block} {more : Branches} {closing : LineOf .endIf}
  (hv : vm.options.branchScan = .nested)
include hv

theorem ofIf_fails (line : LineOf (.ifHolds condition))
    (h : vm.program.HasAt index
      (line.val :: (body.lines ++ (more.lines ++ closing.val :: below))))
    (hc : condition.holds affection = false) :
    Goes vm ⟨index, branches, affection⟩ []
      ⟨index + 1 + body.lines.length, false :: branches, affection⟩ := by
  rw [← h.nextBranch, ← hv]
  exact ofCommand h.head line.property (fun _ => .ifFails hc) rfl

theorem ofElseIf_fails (line : LineOf (.elseIf condition))
    (h : vm.program.HasAt index
      (line.val :: (body.lines ++ (more.lines ++ closing.val :: below))))
    (hc : condition.holds affection = false) :
    Goes vm ⟨index, false :: branches, affection⟩ []
      ⟨index + 1 + body.lines.length, false :: branches, affection⟩ := by
  rw [← h.nextBranch, ← hv]
  exact ofCommand h.head line.property (fun _ => .elseIfFails rfl hc) rfl

/-- Once a branch is told, the rest of the chain is skipped. -/
theorem ofBranches_done (more : Branches)
    (h : vm.program.HasAt index (more.lines ++ closing.val :: below)) :
    Goes vm ⟨index, true :: branches, affection⟩ []
      ⟨index + more.lines.length, true :: branches, affection⟩ := by
  cases more with
  | none => exact refl
  | elseIf condition line body more =>
    rw [Branches.lines_elseIf_append] at h
    have hi : index + (Branches.elseIf condition line body more).lines.length =
        index + 1 + body.lines.length + more.lines.length := by
      simp only [Branches.lines, List.length_cons, List.length_append]
      omega
    rw [hi, ← h.blockEnd, ← hv]
    refine ofCommand h.head line.property (fun _ => .elseIfDone ?_) rfl
    simp [Interpreter.placed, Cursor.top?]
  | otherwise line body =>
    rw [Branches.lines_otherwise_append] at h
    have hi : index + (Branches.otherwise line body).lines.length =
        index + 1 + body.lines.length + Branches.none.lines.length := by
      simp only [Branches.lines, List.length_cons, List.length_nil]
      omega
    rw [hi, ← h.blockEnd, ← hv]
    refine ofCommand h.head line.property (fun _ => .otherwiseDone ?_) rfl
    simp [Interpreter.placed, Cursor.top?]

/-- A branch with those behind it, from its marker to the end of the chain. -/
theorem choose (h : vm.program.HasAt index (more.lines ++ closing.val :: below))
    (hbody : condition.holds affection = true →
      Goes vm start (body.tell affection).2 ⟨index, true :: branches, (body.tell affection).1⟩)
    (hmore : condition.holds affection = false →
      ∃ taken, Goes vm start (more.tell affection).2
        ⟨index + more.lines.length, taken :: branches, (more.tell affection).1⟩) :
    ∃ taken, Goes vm start (Story.choose condition body.tell more.tell affection).2
      ⟨index + more.lines.length, taken :: branches,
        (Story.choose condition body.tell more.tell affection).1⟩ := by
  cases hc : condition.holds affection with
  | true =>
    rw [Story.choose_of_holds hc, ← List.append_nil (body.tell affection).2]
    exact ⟨true, (hbody hc).trans (ofBranches_done hv more h)⟩
  | false =>
    rw [Story.choose_of_fails hc]
    exact hmore hc

end

end Goes

-- ---------------------------------------------------------------------------
-- Blocks
-- ---------------------------------------------------------------------------

section
variable {vm : Interpreter} (hv : vm.options.branchScan = .nested)
include hv

-- By induction on the block. The stack and the lines below are arbitrary, since
-- a body runs on a deeper stack and before the rest of its chain.
mutual

theorem Block.goes : ∀ (block : Block) (index : Nat) (branches : List Bool)
    (affection : AffectionTable) (below : List ScriptLine),
    vm.program.HasAt index (block.lines ++ below) →
    Goes vm ⟨index, branches, affection⟩ (block.tell affection).2
      ⟨index + block.lines.length, branches, (block.tell affection).1⟩
  | .done, index, branches, affection, below, h => .refl
  | .plain line rest, index, branches, affection, below, h => by
    have hi : index + (Block.plain line rest).lines.length = index + 1 + rest.lines.length := by
      simp only [Block.lines, List.length_cons]
      omega
    rw [hi]
    exact (Goes.ofPlain line h.head).trans (rest.goes _ _ _ below h.tail)
  | .chain condition opening body more closing rest, index, branches, affection, below, h => by
    have hl : vm.program.HasAt index (opening.val ::
        (body.lines ++ (more.lines ++ closing.val :: (rest.lines ++ below)))) := by
      simpa [Block.lines] using h
    have hi : index + (Block.chain condition opening body more closing rest).lines.length =
        index + 1 + body.lines.length + more.lines.length + 1 + rest.lines.length := by
      simp only [Block.lines, List.length_cons, List.length_append]
      omega
    have hmore := hl.tail.right
    have hclosing := hmore.right
    obtain ⟨taken, hchosen⟩ : ∃ taken, Goes vm ⟨index, branches, affection⟩
        (Story.choose condition body.tell more.tell affection).2
        ⟨index + 1 + body.lines.length + more.lines.length, taken :: branches,
          (Story.choose condition body.tell more.tell affection).1⟩ := by
      refine Goes.choose hv hmore ?_ ?_
      · intro hc
        exact (Goes.ofIf_holds opening hl.head hc).trans (body.goes _ _ _ _ hl.tail)
      · intro hc
        obtain ⟨taken, htold⟩ := more.goes _ branches affection _ closing hmore
        exact ⟨taken, (Goes.ofIf_fails hv opening hl hc).trans htold⟩
    -- Taken or not, the entry of the chain is popped at its end.
    rw [hi]
    exact hchosen.trans ((Goes.ofEndIf closing hclosing.head).trans
      (rest.goes _ _ _ below hclosing.tail))

theorem Branches.goes : ∀ (more : Branches) (index : Nat) (branches : List Bool)
    (affection : AffectionTable) (below : List ScriptLine) (closing : LineOf .endIf),
    vm.program.HasAt index (more.lines ++ closing.val :: below) →
    ∃ taken, Goes vm ⟨index, false :: branches, affection⟩ (more.tell affection).2
      ⟨index + more.lines.length, taken :: branches, (more.tell affection).1⟩
  | .none, index, branches, affection, below, closing, h => ⟨false, .refl⟩
  | .elseIf condition line body more, index, branches, affection, below, closing, h => by
    rw [Branches.lines_elseIf_append] at h
    have hi : index + (Branches.elseIf condition line body more).lines.length =
        index + 1 + body.lines.length + more.lines.length := by
      simp only [Branches.lines, List.length_cons, List.length_append]
      omega
    have hmore := h.tail.right
    rw [hi]
    refine Goes.choose hv hmore ?_ ?_
    · intro hc
      exact (Goes.ofElseIf_holds line h.head hc).trans (body.goes _ _ _ _ h.tail)
    · intro hc
      obtain ⟨taken, htold⟩ := more.goes _ branches affection _ closing hmore
      exact ⟨taken, (Goes.ofElseIf_fails hv line h hc).trans htold⟩
  | .otherwise line body, index, branches, affection, below, closing, h => by
    have hi : index + (Branches.otherwise line body).lines.length =
        index + 1 + body.lines.length := by
      simp only [Branches.lines, List.length_cons]
      omega
    rw [hi]
    exact ⟨true, (Goes.ofOtherwise line h.head).trans (body.goes _ _ _ _ h.tail)⟩

end

end

end VisualNovel
