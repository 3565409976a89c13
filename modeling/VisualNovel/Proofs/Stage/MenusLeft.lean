import Mathlib.Data.List.Basic
import VisualNovel.Proofs.Stage.Acts

/-!
# Menus that a load leaves on the stage

A load ends the wait for a pick without a word to the display. So besides the menu a story
waits for, the stage may show one that a load has left (`Session.LeftOpen`), and it shows no
other (`Session.menus_left_by_loads`). What an act can do to a menu is said once, in
`Session.MenuAct`.
-/

namespace VisualNovel

-- ---------------------------------------------------------------------------
-- Commands
-- ---------------------------------------------------------------------------

theorem DisplayCommand.mem_filterMap_menu? {commands : List DisplayCommand} :
    choices ∈ commands.filterMap (·.menu?) ↔ .presentChoices choices ∈ commands := by
  rw [List.mem_filterMap]
  constructor
  · rintro ⟨command, hcommand, hmenu⟩
    cases command with
    | presentChoices offered => exact Option.some.inj hmenu ▸ hcommand
    | _ => cases hmenu
  · exact fun hcommand => ⟨_, hcommand, rfl⟩

namespace Interpreter

theorem menu?_eq_some {vm : Interpreter} :
    vm.menu? = some choices ↔ vm.suspend = .waitingForChoice ∧ vm.offer.choices = choices := by
  simp [menu?]

theorem Utters.presents_iff (h : Utters before commands vm) :
    .presentChoices choices ∈ commands ↔ vm.menu? = some choices := by
  rw [← DisplayCommand.mem_filterMap_menu?, h.menus.1, Option.mem_toList]

/-- What is uttered leaves the menu on the stage alone or puts one up. -/
theorem Utters.menu_foldl (h : Utters before commands vm) (words : Words) :
    (commands.foldl Words.put words).menu =
      match vm.menu? with
      | some choices => some (.layout choices words.width)
      | none => words.menu := by
  induction h with
  | nothing hv _ | text hv _ =>
    rw [menu?_of_not_choosing (by simp [hv])]
    rfl
  | menu hv ho _ =>
    rw [menu?_of_choosing hv, ho]
    rfl
  | picture hc _ ih => rw [List.foldl_cons, Words.put_of_layer? _ hc, ih]

theorem Takes.menu? (h : Takes vm ready given outcome next) : next.menu? = vm.menu? := by
  cases h with
  | resume hv _ =>
    have hnone : vm.menu? = none := menu?_of_not_choosing (by simp [hv])
    exact hnone.symm
  | hover _ ho => rw [Interpreter.menu?, Interpreter.menu?, Offer.choices_hover ho]
  | select _ ho => rw [Interpreter.menu?, Interpreter.menu?, Offer.choices_select ho]
  | reveal _ _ | ignored => rfl

end Interpreter

theorem Words.width_foldl_put (words : Words) (commands : List DisplayCommand) :
    (commands.foldl Words.put words).width = words.width := by
  induction commands generalizing words with
  | nil => rfl
  | cons command commands ih =>
    rw [List.foldl_cons, ih]
    cases command <;> rfl

namespace Session

-- ---------------------------------------------------------------------------
-- Acts
-- ---------------------------------------------------------------------------

/-- What an act does to the menu the story waits for and to the one on the stage. -/
inductive MenuAct (session : Session Stage) (act : Act) (next : Session Stage) : Prop
  | kept : ¬act.IsLoad → (∀ choices, .presentChoices choices ∉ session.commandsIn act) →
      next.vm.menu? = session.vm.menu? →
      next.display.words.menu = session.display.words.menu → MenuAct session act next
  | offered : ¬act.IsLoad → .presentChoices choices ∈ session.commandsIn act →
      next.vm.menu? = some choices →
      next.display.words.menu = some (.layout choices session.display.words.width) →
      MenuAct session act next
  | closed : ¬act.IsLoad → (∀ choices, .presentChoices choices ∉ session.commandsIn act) →
      session.vm.menu?.isSome = true → next.vm.menu? = none →
      next.display.words.menu = none → MenuAct session act next
  | loaded : act.IsLoad → (∀ choices, .presentChoices choices ∉ session.commandsIn act) →
      next.vm.menu? = none →
      next.display.words.menu = session.display.words.menu → MenuAct session act next

section
variable (session : Session Stage)

theorem menuAct_step : MenuAct session (.host .step) (session.act (.host .step)) := by
  have hload : ¬(Act.host .step).IsLoad := nofun
  have hwords := session.words_act (.host .step)
  have hvm : (session.act (.host .step)).vm = session.vm.step.next := by rw [act_step]
  have hcommands := session.commandsIn_step
  cases hv : session.vm.suspend with
  | running =>
    have hutters := Interpreter.step_utters hv
    rw [← hcommands, ← hvm] at hutters
    have hmenu := hutters.menu_foldl session.display.words
    rw [← hwords] at hmenu
    cases hnext : (session.act (.host .step)).vm.menu? with
    | some choices =>
      rw [hnext] at hmenu
      exact .offered hload (hutters.presents_iff.mpr hnext) hnext hmenu
    | none =>
      rw [hnext] at hmenu
      have hnone : session.vm.menu? = none := Interpreter.menu?_of_not_choosing (by simp [hv])
      refine .kept hload (fun choices hpresent => ?_) (hnext.trans hnone.symm) hmenu
      exact nomatch hnext.symm.trans (hutters.presents_iff.mp hpresent)
  | waitingForInput =>
    rw [Interpreter.step_of_waitingForInput hv] at hvm hcommands
    rw [hcommands] at hwords
    exact .kept hload (by simp [hcommands, Action.commands]) (congrArg _ hvm) (congrArg _ hwords)
  | waitingForChoice =>
    rcases hp : session.vm.offer.poll with ⟨_ | label, rest⟩
    · rw [Interpreter.step_of_noPick hv hp] at hvm hcommands
      rw [hcommands] at hwords
      refine .kept hload (by simp [hcommands, Action.commands]) ?_ (congrArg _ hwords)
      rw [hvm, Interpreter.menu?, Interpreter.menu?, Offer.choices_poll hp]
    · obtain ⟨commands, heq, hutters⟩ := Interpreter.step_utters_pick hv hp
      rw [← hvm] at hutters
      rw [heq] at hcommands
      -- The menu on the stage goes first, whatever is uttered then.
      have hmenu := hutters.menu_foldl (session.display.words.put .hideChoices)
      rw [← List.foldl_cons, ← hcommands, ← hwords] at hmenu
      cases hnext : (session.act (.host .step)).vm.menu? with
      | some choices =>
        rw [hnext] at hmenu
        refine .offered hload ?_ hnext hmenu
        exact hcommands ▸ List.mem_cons_of_mem _ (hutters.presents_iff.mpr hnext)
      | none =>
        rw [hnext] at hmenu
        have hsome : session.vm.menu?.isSome = true := by
          rw [Interpreter.menu?_of_choosing hv]
          rfl
        refine .closed hload (fun choices hpresent => ?_) hsome hnext hmenu
        rw [hcommands, List.mem_cons] at hpresent
        obtain hhide | hpresent := hpresent
        · cases hhide
        · exact nomatch hnext.symm.trans (hutters.presents_iff.mp hpresent)

theorem menuAct (act : Act) : MenuAct session act (session.act act) := by
  have hwords := session.words_act act
  cases act with
  | host op =>
    cases op with
    | step => exact session.menuAct_step
    | input given =>
      obtain ⟨outcome, htakes, -⟩ := session.takes_act given
      have hcommands := session.commandsIn_input given
      rw [hcommands] at hwords
      exact .kept (by simp [Act.IsLoad]) (by simp [hcommands]) htakes.menu?
        (congrArg Words.menu hwords)
    | load program =>
      have hcommands : session.commandsIn (.host (.load program)) = [] := rfl
      exact .loaded ⟨program, rfl⟩ (by simp [hcommands]) rfl rfl
  | update | completeText =>
    exact .kept (by simp [Act.IsLoad]) (by simp [commandsIn]) rfl (congrArg Words.menu hwords)

theorem width_act (act : Act) :
    (session.act act).display.words.width = session.display.words.width := by
  rw [words_act, Words.width_foldl_put]

-- ---------------------------------------------------------------------------
-- Histories
-- ---------------------------------------------------------------------------

theorem afterActs_append (acts more : List Act) :
    session.afterActs (acts ++ more) = (session.afterActs acts).afterActs more :=
  List.foldl_append

theorem width_afterActs (acts : List Act) :
    (session.afterActs acts).display.words.width = session.display.words.width := by
  induction acts generalizing session with
  | nil => rfl
  | cons act acts ih => exact (ih (session.act act)).trans (session.width_act act)

/-- A load has left the menu on the stage: the story waited for a pick from it, and nothing
has been offered since. -/
def LeftOpen (acts : List Act) (menu : Menu) : Prop :=
  ∃ before program later, acts = before ++ .host (.load program) :: later ∧
    let waiting := session.afterActs before
    waiting.vm.suspend = .waitingForChoice ∧
      menu = .layout waiting.vm.offer.choices waiting.display.scene.screenWidth ∧
      ∀ choices, .presentChoices choices ∉ waiting.commands (.host (.load program) :: later)

theorem not_leftOpen_nil (menu : Menu) : ¬session.LeftOpen [] menu := by
  rintro ⟨before, program, later, hacts, -⟩
  simp at hacts

theorem leftOpen_snoc (acts : List Act) (act : Act) (menu : Menu) :
    session.LeftOpen (acts ++ [act]) menu ↔
      (∃ choices, act.IsLoad ∧ (session.afterActs acts).vm.menu? = some choices ∧
        menu = .layout choices session.display.words.width) ∨
      session.LeftOpen acts menu ∧
        ∀ choices, .presentChoices choices ∉ (session.afterActs acts).commandsIn act := by
  have hwidth (before : List Act) : (session.afterActs before).display.scene.screenWidth =
      session.display.words.width := session.width_afterActs before
  constructor
  · rintro ⟨before, program, later, hacts, hwaiting, rfl, hpresents⟩
    -- The act is the load itself, or the last one after it.
    obtain rfl | ⟨later, last, rfl⟩ := List.eq_nil_or_concat' later
    · obtain ⟨rfl, hact⟩ := List.append_inj' hacts rfl
      cases hact
      exact .inl ⟨_, ⟨program, rfl⟩, Interpreter.menu?_of_choosing hwaiting, by rw [hwidth]⟩
    · rw [← List.cons_append] at hacts hpresents
      rw [← List.append_assoc] at hacts
      obtain ⟨rfl, hact⟩ := List.append_inj' hacts rfl
      cases hact
      simp only [commands_append, List.mem_append, not_or, forall_and] at hpresents
      refine .inr ⟨⟨before, program, later, rfl, hwaiting, rfl, hpresents.1⟩, ?_⟩
      simpa [afterActs_append, commands] using hpresents.2
  · rintro (⟨choices, ⟨program, rfl⟩, hmenu, rfl⟩ | ⟨hleft, hact⟩)
    · obtain ⟨hwaiting, rfl⟩ := Interpreter.menu?_eq_some.mp hmenu
      exact ⟨acts, program, [], rfl, hwaiting, by rw [hwidth],
        by simp [commands, commandsIn, operate, Action.commands]⟩
    · obtain ⟨before, program, later, rfl, hwaiting, rfl, hpresents⟩ := hleft
      refine ⟨before, program, later ++ [act], by simp, hwaiting, rfl, fun choices => ?_⟩
      rw [← List.cons_append, commands_append, List.mem_append, not_or]
      refine ⟨hpresents choices, ?_⟩
      simpa [afterActs_append, commands] using hact choices

/-- Besides a load, an act can only offer something else. -/
theorem leftOpen_snoc_of_not_load (acts : List Act) {act : Act} (hload : ¬act.IsLoad)
    (menu : Menu) :
    session.LeftOpen (acts ++ [act]) menu ↔ session.LeftOpen acts menu ∧
      ∀ choices, .presentChoices choices ∉ (session.afterActs acts).commandsIn act := by
  rw [leftOpen_snoc, or_iff_right]
  rintro ⟨-, hisLoad, -⟩
  exact hload hisLoad

/-- On the stage stands the menu the story waits for, or one that a load has left. -/
structure Stands (acts : List Act) : Prop where
  waiting : ∀ choices, (session.afterActs acts).vm.menu? = some choices →
    (session.afterActs acts).display.words.menu =
      some (.layout choices session.display.words.width) ∧
    ∀ menu, ¬session.LeftOpen acts menu
  otherwise : (session.afterActs acts).vm.menu? = none → ∀ menu,
    (session.afterActs acts).display.words.menu = some menu ↔ session.LeftOpen acts menu

variable {session}

theorem Stands.snoc (h : session.Stands acts) (act : Act) : session.Stands (acts ++ [act]) := by
  have hact := (session.afterActs acts).menuAct act
  have hnext : session.afterActs (acts ++ [act]) = (session.afterActs acts).act act :=
    session.afterActs_append acts [act]
  rw [← hnext] at hact
  cases hact with
  | kept hload hpresents hvm hstage =>
    have hleft (menu : Menu) :
        session.LeftOpen (acts ++ [act]) menu ↔ session.LeftOpen acts menu :=
      (session.leftOpen_snoc_of_not_load acts hload menu).trans (and_iff_left hpresents)
    constructor
    · rw [hvm, hstage]
      simpa only [hleft] using h.waiting
    · rw [hvm, hstage]
      simpa only [hleft] using h.otherwise
  | offered hload hpresents hvm hstage =>
    have hleft (menu : Menu) : ¬session.LeftOpen (acts ++ [act]) menu := by
      rw [session.leftOpen_snoc_of_not_load acts hload]
      exact fun ⟨_, hnot⟩ => hnot _ hpresents
    rw [width_afterActs] at hstage
    constructor
    · rw [hvm, hstage]
      rintro _ ⟨⟩
      exact ⟨rfl, hleft⟩
    · exact fun hnone => nomatch hvm.symm.trans hnone
  | closed hload hpresents hopen hvm hstage =>
    obtain ⟨choices, hchoices⟩ := Option.isSome_iff_exists.mp hopen
    have hleft (menu : Menu) : ¬session.LeftOpen (acts ++ [act]) menu := by
      rw [session.leftOpen_snoc_of_not_load acts hload]
      exact fun ⟨hbefore, _⟩ => (h.waiting choices hchoices).2 menu hbefore
    constructor
    · exact fun _ hsome => nomatch hvm.symm.trans hsome
    · rw [hstage]
      exact fun _ menu => iff_of_false nofun (hleft menu)
  | loaded hload hpresents hvm hstage =>
    have hleft (menu : Menu) : session.LeftOpen (acts ++ [act]) menu ↔
        (∃ choices, (session.afterActs acts).vm.menu? = some choices ∧
          menu = .layout choices session.display.words.width) ∨ session.LeftOpen acts menu := by
      rw [leftOpen_snoc]
      simp [hload, hpresents]
    constructor
    · exact fun _ hsome => nomatch hvm.symm.trans hsome
    · intro _ menu
      rw [hstage, hleft]
      cases hbefore : (session.afterActs acts).vm.menu? with
      | some choices =>
        obtain ⟨hmenu, hnot⟩ := h.waiting choices hbefore
        rw [hmenu]
        simp [hnot, eq_comm]
      | none => simpa using h.otherwise hbefore menu

theorem Stands.after (h : session.Stands acts) (more : List Act) :
    session.Stands (acts ++ more) := by
  induction more generalizing acts with
  | nil => rwa [List.append_nil]
  | cons act more ih =>
    rw [List.append_cons]
    exact ih (h.snoc act)

theorem stands_start (options : Options) (config : Config) (files : Files) :
    (start options (Stage.ofConfig config files)).Stands [] :=
  ⟨nofun, fun _ menu => iff_of_false nofun (not_leftOpen_nil _ menu)⟩

/-- Only what a load had left before is still there after acts that load nothing, and only
as long as they offer nothing. -/
theorem leftOpen_of_append (hlater : ∀ act ∈ later, ¬act.IsLoad)
    (h : session.LeftOpen (acts ++ later) menu) :
    session.LeftOpen acts menu ∧
      ∀ choices, .presentChoices choices ∉ (session.afterActs acts).commands later := by
  induction later generalizing acts with
  | nil => exact ⟨by rwa [List.append_nil] at h, fun _ => List.not_mem_nil⟩
  | cons act later ih =>
    obtain ⟨hact, hlater⟩ := List.forall_mem_cons.mp hlater
    rw [List.append_cons] at h
    obtain ⟨hsnoc, hrest⟩ := ih hlater h
    rw [afterActs_append] at hrest
    obtain ⟨hleft, hpresents⟩ := (session.leftOpen_snoc_of_not_load acts hact menu).mp hsnoc
    refine ⟨hleft, fun choices => ?_⟩
    rw [commands, List.mem_append, not_or]
    exact ⟨hpresents choices, hrest choices⟩

/-- A load leaves no menu if there is none on the stage, and none is left once another has been
offered. -/
theorem Stands.not_leftOpen (h : session.Stands acts) (hlater : ∀ act ∈ later, ¬act.IsLoad)
    (hopen : (session.afterActs acts).display.words.menu = none ∨
      ∃ choices, .presentChoices choices ∈
        (session.afterActs acts).commands (.host (.load program) :: later)) (menu : Menu) :
    ¬session.LeftOpen (acts ++ .host (.load program) :: later) menu := by
  intro hleft
  rw [List.append_cons] at hleft
  obtain ⟨hloaded, hnot⟩ := leftOpen_of_append hlater hleft
  rw [afterActs_append] at hnot
  obtain hnone | ⟨choices, hpresent⟩ := hopen
  · -- The load can have left no menu that was not on the stage.
    obtain ⟨choices, -, hchoices, -⟩ | ⟨hbefore, -⟩ := (session.leftOpen_snoc ..).mp hloaded
    · exact nomatch hnone.symm.trans (h.waiting choices hchoices).1
    · cases hmenu : (session.afterActs acts).vm.menu? with
      | some choices => exact (h.waiting choices hmenu).2 menu hbefore
      | none => exact nomatch hnone.symm.trans ((h.otherwise hmenu menu).mpr hbefore)
  · exact hnot choices hpresent

end

/-- Where the story waits for a pick, its menu stands on the stage. Where it does not, there
is just the menu that a load has left, if one has. So a load that finds no menu on the stage
leaves none, and none is left once the new program has offered one: from then on a menu
stands on the stage just while the story waits for a pick. -/
theorem menus_left_by_loads (options : Options) (config : Config) (files : Files)
    (acts : List Act) :
    let first := start options (Stage.ofConfig config files)
    let session := first.afterActs acts
    (session.vm.suspend = .waitingForChoice →
      session.display.scene.menu =
        some (.layout session.vm.offer.choices config.window.width)) ∧
    (session.vm.suspend ≠ .waitingForChoice → ∀ menu,
      session.display.scene.menu = some menu ↔ first.LeftOpen acts menu) ∧
    ∀ program later, (∀ act ∈ later, ¬act.IsLoad) →
      let loading := .host (.load program) :: later
      session.display.scene.menu = none ∨
        (∃ choices, .presentChoices choices ∈ session.commands loading) →
      let now := session.afterActs loading
      (now.display.scene.menu.isSome = true ↔ now.vm.suspend = .waitingForChoice) := by
  intro first session
  have hstands : first.Stands acts := (stands_start options config files).after acts
  refine ⟨fun hwaiting => (hstands.waiting _ (Interpreter.menu?_of_choosing hwaiting)).1,
    fun hnot => hstands.otherwise (Interpreter.menu?_of_not_choosing hnot), ?_⟩
  intro program later hlater loading hopen now
  have hnow : first.afterActs (acts ++ loading) = now := first.afterActs_append acts loading
  have hstandsNow : first.Stands (acts ++ loading) := hstands.after loading
  have hleft (menu : Menu) : ¬first.LeftOpen (acts ++ loading) menu :=
    hstands.not_leftOpen hlater hopen menu
  by_cases hwaiting : now.vm.suspend = .waitingForChoice
  · have hmenu := (hstandsNow.waiting _ (hnow ▸ Interpreter.menu?_of_choosing hwaiting)).1
    rw [hnow] at hmenu
    exact iff_of_true (Option.isSome_iff_exists.mpr ⟨_, hmenu⟩) hwaiting
  · have hmenu := hstandsNow.otherwise (hnow ▸ Interpreter.menu?_of_not_choosing hwaiting)
    rw [hnow] at hmenu
    refine iff_of_false (fun hsome => ?_) hwaiting
    obtain ⟨menu, hstage⟩ := Option.isSome_iff_exists.mp hsome
    exact hleft menu ((hmenu menu).mp hstage)

/-- A program with a menu of its own is loaded in the place of one whose menu is on the stage. -/
theorem menus_left_by_loads_secondMenu :
    let acts : List Act := [.host (.load ⟨[⟨1, "@choice 走 -> a"⟩, ⟨2, ":a"⟩]⟩), .host .step]
    let later : List Act := [.host .step, .host .step]
    let program : Program := ⟨[⟨1, ":b"⟩, ⟨2, "@choice 留 -> b 去 -> c"⟩]⟩
    let first := start {} (Stage.ofConfig {} {})
    let loaded := acts ++ [.host (.load program)]
    let now := (first.afterActs acts).afterActs (.host (.load program) :: later)
    (first.afterActs acts).vm.suspend = .waitingForChoice ∧
      first.LeftOpen loaded (.layout [⟨"走", "a"⟩] 1280) ∧
      now.vm.suspend = .waitingForChoice ∧ now.display.scene.menu.isSome = true := by
  intro acts later program first loaded now
  have hwaiting : (first.afterActs acts).vm.suspend = .waitingForChoice := by decide +kernel
  have hmenu : (first.afterActs loaded).display.scene.menu =
      some (.layout [⟨"走", "a"⟩] 1280) := by decide +kernel
  have hoffered : .presentChoices [⟨"留", "b"⟩, ⟨"去", "c"⟩] ∈
      (first.afterActs acts).commands (.host (.load program) :: later) := by decide +kernel
  have hnow : now.vm.suspend = .waitingForChoice := by decide +kernel
  obtain ⟨-, hleft, -⟩ := menus_left_by_loads {} {} {} loaded
  obtain ⟨-, -, hloads⟩ := menus_left_by_loads {} {} {} acts
  have hlater : ∀ act ∈ later, ¬act.IsLoad := by
    rintro act hact
    simp only [later, List.mem_cons, List.not_mem_nil, or_false, or_self] at hact
    subst hact
    exact nofun
  exact ⟨hwaiting, (hleft nofun _).mp hmenu, hnow,
    (hloads program later hlater (.inr ⟨_, hoffered⟩)).mpr hnow⟩

/-- A program is loaded while the story waits for a pick, and goes on to its first line: the
menu still stands on the stage, and the story waits for a click. -/
theorem menu_outlives_story :
    let acts : List Act := [.host (.load ⟨[⟨1, "@choice 走 -> a"⟩, ⟨2, ":a"⟩]⟩), .host .step,
      .host (.load ⟨[⟨1, "新的开始"⟩]⟩), .host .step]
    let session := (start {} (Stage.ofConfig {} {})).afterActs acts
    session.vm.suspend = .waitingForInput ∧
      session.display.scene.menu = some (.layout [⟨"走", "a"⟩] 1280) := by
  decide +kernel

end Session

end VisualNovel
