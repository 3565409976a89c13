import VisualNovel.Proofs.Text.Literals
import VisualNovel.Script.Reading

/-!
# The grammar of commands

Which words are a command, and what a command that is not well written is taken for,
both as rules apart from the readers. A command is read as the rules say
(`Command.read_grammar`): each rule is one case of a reader, and a reader has no case
for which there is no rule.
-/

namespace VisualNovel

-- ---------------------------------------------------------------------------
-- Conditions
-- ---------------------------------------------------------------------------

/-- The operators and what they mean. -/
def Comparison.operators : List (String × Comparison) :=
  [(">=", .ge), ("<=", .le), (">", .gt), ("<", .lt), ("==", .eq), ("!=", .ne)]

/-- Conditions as they are written. What comes after the number is not read. -/
inductive WrittenCondition : List String → Condition → Prop
  | affection (hoperator : (operator, comparison) ∈ Comparison.operators)
      (hvalue : Text.AmountLiteral word value) :
      WrittenCondition ("affection" :: character :: operator :: word :: extra)
        (.affection character comparison value)

/-- What other words are taken for where there should be a condition. -/
inductive RecoveredCondition : List String → Reading Condition → Prop
  | incomplete (h : args.length < 4) :
      RecoveredCondition args
        ⟨.invalid (" ".intercalate args), [.incompleteCondition (" ".intercalate args)]⟩
  | subject (hsubject : subject ≠ "affection")
      (hwords : args = subject :: character :: operator :: word :: extra) :
      RecoveredCondition args
        ⟨.invalid (" ".intercalate args), [.unknownConditionSubject subject]⟩
  | operator (hoperator : ∀ comparison, (operator, comparison) ∉ Comparison.operators)
      (hvalue : Text.AmountLiteral word value) :
      RecoveredCondition ("affection" :: character :: operator :: word :: extra)
        ⟨.affection character (.unknown operator) value, [.unknownOperator operator]⟩
  | value (hoperator : (operator, comparison) ∈ Comparison.operators)
      (hvalue : ∀ value, ¬ Text.AmountLiteral word value) :
      RecoveredCondition ("affection" :: character :: operator :: word :: extra)
        ⟨.affection character comparison 0, [.invalidInteger "value" word]⟩
  | operatorAndValue (hoperator : ∀ comparison, (operator, comparison) ∉ Comparison.operators)
      (hvalue : ∀ value, ¬ Text.AmountLiteral word value) :
      RecoveredCondition ("affection" :: character :: operator :: word :: extra)
        ⟨.affection character (.unknown operator) 0,
          [.unknownOperator operator, .invalidInteger "value" word]⟩

-- ---------------------------------------------------------------------------
-- Commands
-- ---------------------------------------------------------------------------

/-- An option as it is written. -/
def Choice.words (choice : Choice) : List String := [choice.text, "->", choice.target]

/-- Words that do not begin with an option, and what is said of them. -/
inductive MalformedChoice : List String → String → Prop
  | short (hwords : chunk ≠ []) (hshort : chunk.length < 3) :
      MalformedChoice chunk ("不完整的选项: " ++ " ".intercalate chunk)
  | arrow (h : arrow ≠ "->") :
      MalformedChoice (text :: arrow :: label :: rest) s!"缺少 '->'，实际为 '{arrow}'"

/-- The names of commands. -/
def Command.names : List String :=
  ["bg", "chara", "choice", "affection", "if", "elseif", "else", "endif", "jump", "clear"]

/-- Commands as they are written. Most do not read what comes after their arguments. -/
inductive WrittenCommand : List String → Command → Prop
  | background (hlayer : Text.IndexLiteral word layer) :
      WrittenCommand ["bg", word, path] (.background layer path none)
  | transition (hlayer : Text.IndexLiteral word layer) :
      WrittenCommand ("bg" :: word :: path :: mask :: name :: extra)
        (.background layer path (some ⟨name, mask :: extra⟩))
  | character (hlayer : Text.IndexLiteral word layer) :
      WrittenCommand ("chara" :: word :: position :: path :: extra)
        (.character layer position path)
  | choice (options : List Choice) :
      WrittenCommand ("choice" :: options.flatMap Choice.words) (.choice options)
  | affection (hdelta : Text.AmountLiteral word delta) :
      WrittenCommand ("affection" :: character :: word :: extra) (.affection character delta)
  | ifHolds (h : WrittenCondition args condition) :
      WrittenCommand ("if" :: args) (.ifHolds condition)
  | elseIf (h : WrittenCondition args condition) :
      WrittenCommand ("elseif" :: args) (.elseIf condition)
  | otherwise : WrittenCommand ("else" :: extra) .otherwise
  | endIf : WrittenCommand ("endif" :: extra) .endIf
  | jump : WrittenCommand ("jump" :: label :: extra) (.jump label)
  | clear (hlayer : Text.IndexLiteral word layer) :
      WrittenCommand ("clear" :: word :: extra) (.clear layer)

/-- What commands that are not well written are taken for. -/
inductive RecoveredCommand : List String → Reading Command → Prop
  | noLayer (hname : name ∈ ["bg", "chara", "clear"]) :
      RecoveredCommand [name] ⟨.invalid name, [.missingArgument name "layer"]⟩
  | badLayer (hname : name ∈ ["bg", "chara", "clear"])
      (hlayer : ∀ layer, ¬ Text.IndexLiteral word layer) :
      RecoveredCommand (name :: word :: extra) ⟨.invalid name, [.invalidLayer name word]⟩
  | noImage (hlayer : Text.IndexLiteral word layer) :
      RecoveredCommand ["bg", word] ⟨.invalid "bg", [.missingArgument "bg" "image"]⟩
  | noTransition (hlayer : Text.IndexLiteral word layer) :
      RecoveredCommand ["bg", word, path, mask]
        ⟨.background layer path none, [.missingArgument "bg" "transition"]⟩
  | noPosition (hlayer : Text.IndexLiteral word layer) :
      RecoveredCommand ["chara", word]
        ⟨.invalid "chara", [.missingArgument "chara" "position"]⟩
  | noSprite (hlayer : Text.IndexLiteral word layer) :
      RecoveredCommand ["chara", word, position]
        ⟨.invalid "chara", [.missingArgument "chara" "image"]⟩
  | choice (options : List Choice) (hrest : MalformedChoice rest message) :
      RecoveredCommand ("choice" :: (options.flatMap Choice.words ++ rest))
        ⟨.choice options, [.malformedChoice (options.length + 1) message]⟩
  | noCharacter :
      RecoveredCommand ["affection"]
        ⟨.invalid "affection", [.missingArgument "affection" "character"]⟩
  | noDelta :
      RecoveredCommand ["affection", character]
        ⟨.invalid "affection", [.missingArgument "affection" "delta"]⟩
  | badDelta (hdelta : ∀ delta, ¬ Text.AmountLiteral word delta) :
      RecoveredCommand ("affection" :: character :: word :: extra)
        ⟨.affection character 0, [.invalidInteger "delta" word]⟩
  | ifHolds (h : RecoveredCondition args ⟨condition, errors⟩) :
      RecoveredCommand ("if" :: args) ⟨.ifHolds condition, errors⟩
  | elseIf (h : RecoveredCondition args ⟨condition, errors⟩) :
      RecoveredCommand ("elseif" :: args) ⟨.elseIf condition, errors⟩
  | noLabel : RecoveredCommand ["jump"] ⟨.invalid "jump", [.missingArgument "jump" "label"]⟩

-- ---------------------------------------------------------------------------
-- Readers of arguments
-- ---------------------------------------------------------------------------

namespace Reading

theorem layer_of_literal (h : Text.IndexLiteral word index) (command : String) :
    layer command (some word) = .ok index := by
  simp [layer, Text.index?_eq_some_iff.mpr h]

theorem layer_of_not_literal (h : ∀ index, ¬ Text.IndexLiteral word index) (command : String) :
    layer command (some word) = .error (.invalidLayer command word) := by
  simp [layer, Text.index?_eq_none_iff.mpr h]

theorem amount_of_literal (h : Text.AmountLiteral word number) (param : String) :
    amount param word = ⟨number, []⟩ := by
  simp [amount, Text.amount?_eq_some_iff.mpr h]

theorem amount_of_not_literal (h : ∀ number, ¬ Text.AmountLiteral word number) (param : String) :
    amount param word = ⟨0, [.invalidInteger param word]⟩ := by
  simp [amount, Text.amount?_eq_none_iff.mpr h]

end Reading

-- ---------------------------------------------------------------------------
-- Readers of conditions
-- ---------------------------------------------------------------------------

theorem Comparison.ofText_of_not_mem (h : ∀ comparison, (operator, comparison) ∉ operators) :
    ofText operator = .unknown operator := by
  unfold ofText
  split
  case h_7 => rfl
  all_goals simp [operators] at h

namespace Reading

theorem condition_of_operator (h : (operator, comparison) ∈ Comparison.operators) :
    condition ("affection" :: person :: operator :: word :: extra) =
      (amount "value" word).map (.affection person comparison) := by
  simp only [Comparison.operators, List.mem_cons, Prod.mk.injEq, List.not_mem_nil,
    or_false] at h
  rcases h with ⟨rfl, rfl⟩ | ⟨rfl, rfl⟩ | ⟨rfl, rfl⟩ | ⟨rfl, rfl⟩ | ⟨rfl, rfl⟩ | ⟨rfl, rfl⟩ <;> rfl

theorem condition_of_not_operator
    (h : ∀ comparison, (operator, comparison) ∉ Comparison.operators) :
    condition ("affection" :: person :: operator :: word :: extra) =
      ⟨.affection person (.unknown operator) (amount "value" word).value,
        .unknownOperator operator :: (amount "value" word).errors⟩ := by
  simp [condition, Comparison.ofText_of_not_mem h]

theorem condition_of_short (h : args.length < 4) : condition args =
    ⟨.invalid (" ".intercalate args), [.incompleteCondition (" ".intercalate args)]⟩ := by
  match args with
  | [] | [_] | [_, _] | [_, _, _] => rfl
  | _ :: _ :: _ :: _ :: _ => exact absurd h (by simp)

end Reading

theorem WrittenCondition.reads (h : WrittenCondition args condition) :
    Reading.condition args = ⟨condition, []⟩ := by
  obtain ⟨hoperator, hvalue⟩ := h
  rw [Reading.condition_of_operator hoperator, Reading.amount_of_literal hvalue, Reading.map]

theorem RecoveredCondition.reads (h : RecoveredCondition args reading) :
    Reading.condition args = reading := by
  cases h with
  | incomplete h => exact Reading.condition_of_short h
  | subject hsubject hwords => simp [hwords, Reading.condition, hsubject]
  | operator hoperator hvalue =>
    rw [Reading.condition_of_not_operator hoperator, Reading.amount_of_literal hvalue]
  | value hoperator hvalue =>
    rw [Reading.condition_of_operator hoperator, Reading.amount_of_not_literal hvalue,
      Reading.map]
  | operatorAndValue hoperator hvalue =>
    rw [Reading.condition_of_not_operator hoperator, Reading.amount_of_not_literal hvalue]

theorem RecoveredCondition.errors_ne_nil (h : RecoveredCondition args reading) :
    reading.errors ≠ [] := by
  cases h <;> simp

theorem condition_written_or_recovered (args : List String) :
    (∃ condition, WrittenCondition args condition) ∨
      ∃ reading, RecoveredCondition args reading := by
  match args with
  | [] | [_] | [_, _] | [_, _, _] => exact .inr ⟨_, .incomplete (by simp)⟩
  | subject :: character :: operator :: word :: extra =>
    by_cases hsubject : subject = "affection"
    · subst hsubject
      by_cases hoperator : ∃ comparison, (operator, comparison) ∈ Comparison.operators <;>
        by_cases hvalue : ∃ value, Text.AmountLiteral word value
      · obtain ⟨comparison, hoperator⟩ := hoperator
        obtain ⟨value, hvalue⟩ := hvalue
        exact .inl ⟨_, .affection hoperator hvalue⟩
      · obtain ⟨comparison, hoperator⟩ := hoperator
        exact .inr ⟨_, .value hoperator (not_exists.mp hvalue)⟩
      · obtain ⟨value, hvalue⟩ := hvalue
        exact .inr ⟨_, .operator (not_exists.mp hoperator) hvalue⟩
      · exact .inr ⟨_, .operatorAndValue (not_exists.mp hoperator) (not_exists.mp hvalue)⟩
    · exact .inr ⟨_, .subject hsubject rfl⟩

-- ---------------------------------------------------------------------------
-- Readers of options
-- ---------------------------------------------------------------------------

namespace Reading

theorem options_cons (choice : Choice) (group : Nat) (rest : List String) :
    options group (choice.words ++ rest) = (options (group + 1) rest).map (choice :: ·) := by
  simp [Choice.words, options]

theorem options_append (written : List Choice) (group : Nat) (rest : List String) :
    options group (written.flatMap Choice.words ++ rest) =
      (options (group + written.length) rest).map (written ++ ·) := by
  induction written generalizing group with
  | nil => rfl
  | cons choice written ih =>
    rw [List.flatMap_cons, List.append_assoc, options_cons, ih, List.length_cons,
      Nat.add_assoc, Nat.add_comm 1]
    rfl

theorem options_malformed (h : MalformedChoice rest message) (group : Nat) :
    options group rest = ⟨[], [.malformedChoice group message]⟩ := by
  cases h with
  | arrow harrow => simp [options, harrow]
  | short hwords hshort =>
    match rest with
    | [] => exact absurd rfl hwords
    | [_] | [_, _] => rfl
    | _ :: _ :: _ :: _ => exact absurd hshort (by simp)

end Reading

/-- Where the options end there is nothing left, or what is not one. -/
theorem exists_options : ∀ args : List String, ∃ (options : List Choice) (rest : List String),
    args = options.flatMap Choice.words ++ rest ∧
      (rest = [] ∨ ∃ message, MalformedChoice rest message)
  | [] => ⟨[], [], rfl, .inl rfl⟩
  | [word] => ⟨[], [word], rfl, .inr ⟨_, .short (by simp) (by simp)⟩⟩
  | [word, next] => ⟨[], [word, next], rfl, .inr ⟨_, .short (by simp) (by simp)⟩⟩
  | text :: arrow :: label :: more => by
    by_cases harrow : arrow = "->"
    · obtain ⟨options, rest, rfl, hrest⟩ := exists_options more
      exact ⟨⟨text, label⟩ :: options, rest, by simp [Choice.words, harrow], hrest⟩
    · exact ⟨[], _, rfl, .inr ⟨_, .arrow harrow⟩⟩

-- ---------------------------------------------------------------------------
-- Readers of commands
-- ---------------------------------------------------------------------------

theorem WrittenCommand.reads (h : WrittenCommand words command) :
    Reading.ofWords words = ⟨command, []⟩ := by
  cases h with
  | background hlayer =>
    simp [Reading.ofWords, Reading.background, Reading.layer_of_literal hlayer]
  | transition hlayer =>
    simp [Reading.ofWords, Reading.background, Reading.layer_of_literal hlayer]
  | character hlayer =>
    simp [Reading.ofWords, Reading.character, Reading.layer_of_literal hlayer]
  | choice options =>
    have hread := Reading.options_append options 1 []
    simp only [List.append_nil] at hread
    simp [Reading.ofWords, hread, Reading.options, Reading.map]
  | affection hdelta =>
    simp [Reading.ofWords, Reading.affection, Reading.amount_of_literal hdelta, Reading.map]
  | ifHolds h => simp [Reading.ofWords, h.reads, Reading.map]
  | elseIf h => simp [Reading.ofWords, h.reads, Reading.map]
  | otherwise => rfl
  | endIf => rfl
  | jump => rfl
  | clear hlayer => simp [Reading.ofWords, Reading.clear, Reading.layer_of_literal hlayer]

theorem WrittenCommand.ne_unknown (h : WrittenCommand words command) (name : String) :
    command ≠ .unknown name := by
  cases h <;> simp

theorem RecoveredCommand.reads (h : RecoveredCommand words reading) :
    Reading.ofWords words = reading := by
  cases h with
  | noLayer hname =>
    simp only [List.mem_cons, List.not_mem_nil, or_false] at hname
    rcases hname with rfl | rfl | rfl <;> rfl
  | badLayer hname hlayer =>
    simp only [List.mem_cons, List.not_mem_nil, or_false] at hname
    rcases hname with rfl | rfl | rfl <;>
      simp [Reading.ofWords, Reading.background, Reading.character, Reading.clear,
        Reading.layer_of_not_literal hlayer, Reading.refused]
  | noImage hlayer =>
    simp [Reading.ofWords, Reading.background, Reading.layer_of_literal hlayer, Reading.refused]
  | noTransition hlayer =>
    simp [Reading.ofWords, Reading.background, Reading.layer_of_literal hlayer]
  | noPosition hlayer =>
    simp [Reading.ofWords, Reading.character, Reading.layer_of_literal hlayer, Reading.refused]
  | noSprite hlayer =>
    simp [Reading.ofWords, Reading.character, Reading.layer_of_literal hlayer, Reading.refused]
  | choice options hrest =>
    simp [Reading.ofWords, Reading.options_append, Reading.options_malformed hrest, Reading.map,
      Nat.add_comm]
  | noCharacter => rfl
  | noDelta => rfl
  | badDelta hdelta =>
    simp [Reading.ofWords, Reading.affection, Reading.amount_of_not_literal hdelta, Reading.map]
  | ifHolds h => simp [Reading.ofWords, h.reads, Reading.map]
  | elseIf h => simp [Reading.ofWords, h.reads, Reading.map]
  | noLabel => rfl

theorem RecoveredCommand.errors_ne_nil (h : RecoveredCommand words reading) :
    reading.errors ≠ [] := by
  cases h with
  | ifHolds h | elseIf h => exact h.errors_ne_nil
  | _ => simp

theorem RecoveredCommand.named (h : RecoveredCommand words reading) :
    ∃ name ∈ Command.names, words.head? = some name := by
  cases h with
  | noLayer hname | badLayer hname =>
    refine ⟨_, ?_, rfl⟩
    simp only [List.mem_cons, List.not_mem_nil, or_false] at hname
    rcases hname with rfl | rfl | rfl <;> simp [Command.names]
  | _ => exact ⟨_, by simp [Command.names], rfl⟩

-- ---------------------------------------------------------------------------
-- There is a rule for every command
-- ---------------------------------------------------------------------------

/-- There is a rule for the words. -/
def HasRule (words : List String) : Prop :=
  (∃ command, WrittenCommand words command) ∨ ∃ reading, RecoveredCommand words reading

theorem WrittenCommand.hasRule (h : WrittenCommand words command) : HasRule words :=
  .inl ⟨command, h⟩

theorem RecoveredCommand.hasRule (h : RecoveredCommand words reading) : HasRule words :=
  .inr ⟨reading, h⟩

/-- Commands that name a layer first all recover alike if they do not. -/
theorem hasRule_of_layer (hname : name ∈ ["bg", "chara", "clear"])
    (h : ∀ word layer, Text.IndexLiteral word layer → ∀ extra, HasRule (name :: word :: extra)) :
    ∀ args, HasRule (name :: args)
  | [] => (RecoveredCommand.noLayer hname).hasRule
  | word :: extra => by
    by_cases hlayer : ∃ layer, Text.IndexLiteral word layer
    · obtain ⟨layer, hlayer⟩ := hlayer
      exact h word layer hlayer extra
    · exact (RecoveredCommand.badLayer hname (not_exists.mp hlayer)).hasRule

theorem hasRule_background : ∀ args, HasRule ("bg" :: args) := by
  refine hasRule_of_layer (by simp) fun word layer hlayer extra => ?_
  match extra with
  | [] => exact (RecoveredCommand.noImage hlayer).hasRule
  | [path] => exact (WrittenCommand.background hlayer).hasRule
  | [path, mask] => exact (RecoveredCommand.noTransition hlayer).hasRule
  | path :: mask :: name :: more => exact (WrittenCommand.transition hlayer).hasRule

theorem hasRule_character : ∀ args, HasRule ("chara" :: args) := by
  refine hasRule_of_layer (by simp) fun word layer hlayer extra => ?_
  match extra with
  | [] => exact (RecoveredCommand.noPosition hlayer).hasRule
  | [position] => exact (RecoveredCommand.noSprite hlayer).hasRule
  | position :: path :: more => exact (WrittenCommand.character hlayer).hasRule

theorem hasRule_choice (args : List String) : HasRule ("choice" :: args) := by
  obtain ⟨options, rest, rfl, rfl | ⟨message, hrest⟩⟩ := exists_options args
  · rw [List.append_nil]
    exact (WrittenCommand.choice options).hasRule
  · exact (RecoveredCommand.choice options hrest).hasRule

theorem hasRule_affection : ∀ args, HasRule ("affection" :: args)
  | [] => RecoveredCommand.noCharacter.hasRule
  | [_] => RecoveredCommand.noDelta.hasRule
  | character :: word :: extra => by
    by_cases hdelta : ∃ delta, Text.AmountLiteral word delta
    · obtain ⟨delta, hdelta⟩ := hdelta
      exact (WrittenCommand.affection hdelta).hasRule
    · exact (RecoveredCommand.badDelta (not_exists.mp hdelta)).hasRule

theorem hasRule_jump : ∀ args, HasRule ("jump" :: args)
  | [] => RecoveredCommand.noLabel.hasRule
  | _ :: _ => WrittenCommand.jump.hasRule

theorem hasRule_of_name (hname : name ∈ Command.names) (args : List String) :
    HasRule (name :: args) := by
  simp only [Command.names, List.mem_cons, List.not_mem_nil, or_false] at hname
  rcases hname with rfl | rfl | rfl | rfl | rfl | rfl | rfl | rfl | rfl | rfl
  · exact hasRule_background args
  · exact hasRule_character args
  · exact hasRule_choice args
  · exact hasRule_affection args
  · rcases condition_written_or_recovered args with ⟨_, h⟩ | ⟨_, h⟩
    · exact (WrittenCommand.ifHolds h).hasRule
    · exact (RecoveredCommand.ifHolds h).hasRule
  · rcases condition_written_or_recovered args with ⟨_, h⟩ | ⟨_, h⟩
    · exact (WrittenCommand.elseIf h).hasRule
    · exact (RecoveredCommand.elseIf h).hasRule
  · exact WrittenCommand.otherwise.hasRule
  · exact WrittenCommand.endIf.hasRule
  · exact hasRule_jump args
  · exact hasRule_of_layer (by simp) (fun _ _ hlayer _ => (WrittenCommand.clear hlayer).hasRule) args

theorem Reading.ofWords_of_not_named (h : name ∉ Command.names) (args : List String) :
    ofWords (name :: args) = ⟨.unknown name, []⟩ := by
  unfold ofWords
  split <;> simp_all [Command.names]

theorem WrittenCommand.of_reads (h : Reading.ofWords words = ⟨command, []⟩)
    (hknown : ∀ name, command ≠ .unknown name) : WrittenCommand words command := by
  match words with
  | [] => simp [Reading.ofWords, Reading.refused] at h
  | name :: args =>
    by_cases hname : name ∈ Command.names
    · rcases hasRule_of_name hname args with ⟨other, hother⟩ | ⟨reading, hrecovered⟩
      · cases hother.reads.symm.trans h
        exact hother
      · rw [hrecovered.reads] at h
        exact absurd (congrArg Reading.errors h) hrecovered.errors_ne_nil
    · cases (Reading.ofWords_of_not_named hname args).symm.trans h
      exact absurd rfl (hknown name)

theorem RecoveredCommand.of_not_written (hname : name ∈ Command.names)
    (hhead : words.head? = some name) (h : ¬ ∃ command, WrittenCommand words command) :
    RecoveredCommand words (Reading.ofWords words) := by
  obtain ⟨args, rfl⟩ := List.head?_eq_some_iff.mp hhead
  obtain ⟨reading, hrecovered⟩ := (hasRule_of_name hname args).resolve_left h
  exact hrecovered.reads ▸ hrecovered

/-- A command is not both well written and recovered. -/
theorem RecoveredCommand.not_written (h : RecoveredCommand words reading) :
    ¬ WrittenCommand words command := by
  intro hwritten
  cases h.reads.symm.trans hwritten.reads
  exact h.errors_ne_nil rfl

/-- The words of a body are read without a fault, and as a command that is known, if and
only if they are that command as it is written. If they are not and yet begin with the
name of a command, they are read as the rules of recovery say, with a fault or more. -/
theorem Command.read_grammar (body : String) :
    let words := Text.words body
    (∀ command, WrittenCommand words command ↔
        read body = ⟨command, []⟩ ∧ ∀ name, command ≠ .unknown name) ∧
      (∀ reading, RecoveredCommand words reading ↔
        (∃ name ∈ names, words.head? = some name) ∧
          (¬ ∃ command, WrittenCommand words command) ∧ read body = reading) ∧
      ∀ reading, RecoveredCommand words reading → reading.errors ≠ [] := by
  intro words
  refine ⟨fun command => ?_, fun reading => ?_, fun _ h => h.errors_ne_nil⟩
  · constructor
    · intro h
      exact ⟨h.reads, h.ne_unknown⟩
    · rintro ⟨h, hknown⟩
      exact .of_reads h hknown
  · constructor
    · intro h
      refine ⟨h.named, ?_, h.reads⟩
      rintro ⟨command, hwritten⟩
      exact h.not_written hwritten
    · rintro ⟨⟨name, hname, hhead⟩, hbad, rfl⟩
      exact .of_not_written hname hhead hbad

end VisualNovel
