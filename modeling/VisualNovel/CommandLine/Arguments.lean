/-!
# Command-line arguments

Options are long, `--name value` or `--name=value`, or short, `-n value`,
`-nvalue` or `-n=value`. What follows a short option that takes no value is not
looked at; only options that end the reading are of that kind. A word that
begins with a dash is never taken for the value of the option before it, the
single dash excepted. After `--` all words are positional. Arguments are judged
from left to right, so the first that cannot stand decides.
-/

namespace VisualNovel.CommandLine

inductive OptionKind where
  /-- Present or not. -/
  | switch
  /-- With a value, which has to be acceptable. -/
  | value (accepts : String → Bool)
  /-- Ends the reading: the version, or the help text, is asked for. -/
  | version
  | help

structure OptionSpec where
  long : String
  short : Option Char := none
  kind : OptionKind
  /-- Whether it may be given more than once. -/
  repeatable : Bool := false

structure Spec where
  options : List OptionSpec
  /-- How many positional words there may be, and which are acceptable. -/
  positionals : Nat := 0
  acceptsPositional : String → Bool := fun _ => true

/-- The options given, by long name, and the positional words, in order. -/
structure Arguments where
  options : List (String × String) := []
  positionals : List String := []
  deriving Repr

inductive Parse where
  | arguments (arguments : Arguments)
  | version
  | help
  | rejected
  deriving Repr

namespace Arguments

def values (arguments : Arguments) (long : String) : List String :=
  arguments.options.filterMap fun (name, value) => if name = long then some value else none

def value? (arguments : Arguments) (long : String) : Option String :=
  (arguments.values long).head?

def has (arguments : Arguments) (long : String) : Bool :=
  (arguments.value? long).isSome

def addOption (arguments : Arguments) (long value : String) : Arguments :=
  { arguments with options := arguments.options ++ [(long, value)] }

def addPositional (arguments : Arguments) (word : String) : Arguments :=
  { arguments with positionals := arguments.positionals ++ [word] }

end Arguments

/-- An option as written: its description, and the value written in the same word. -/
structure Written where
  option : OptionSpec
  attached : Option String

/-- Cuts a long option's word at its first equals sign. -/
def splitLong (word : List Char) : String × Option String :=
  match word.dropWhile (· ≠ '=') with
  | '=' :: value => (String.ofList (word.takeWhile (· ≠ '=')), some (String.ofList value))
  | _ => (String.ofList word, none)

inductive Word where
  /-- `--`, after which no option follows. -/
  | escape
  | option (written : Written)
  | unknownOption
  | plain

def Spec.word (spec : Spec) (text : String) : Word :=
  match text.toList with
  | ['-', '-'] => .escape
  | '-' :: '-' :: rest =>
    let (name, attached) := splitLong rest
    match spec.options.find? (·.long = name) with
    | some option => .option ⟨option, attached⟩
    | none => .unknownOption
  | '-' :: letter :: rest =>
    match spec.options.find? (·.short = some letter) with
    | none => .unknownOption
    | some option =>
      match option.kind, rest with
      | .value _, '=' :: value => .option ⟨option, some (String.ofList value)⟩
      | .value _, c :: value => .option ⟨option, some (String.ofList (c :: value))⟩
      | _, _ => .option ⟨option, none⟩
  | _ => .plain

def Spec.takePositional (spec : Spec) (found : Arguments) (word : String) : Option Arguments :=
  if found.positionals.length < spec.positionals ∧ spec.acceptsPositional word then
    some (found.addPositional word)
  else none

def Spec.takeValue (option : OptionSpec) (accepts : String → Bool) (found : Arguments)
    (value : String) : Option Arguments :=
  if accepts value ∧ (option.repeatable ∨ !found.has option.long) then
    some (found.addOption option.long value)
  else none

/-- All words positional. -/
def Spec.parsePlain (spec : Spec) (found : Arguments) : List String → Parse
  | [] => .arguments found
  | word :: words =>
    match spec.takePositional found word with
    | some found => spec.parsePlain found words
    | none => .rejected

def Spec.parseFrom (spec : Spec) (found : Arguments) : List String → Parse
  | [] => .arguments found
  | word :: words =>
    match spec.word word with
    | .escape => spec.parsePlain found words
    | .unknownOption => .rejected
    | .plain =>
      match spec.takePositional found word with
      | some found => spec.parseFrom found words
      | none => .rejected
    | .option ⟨option, attached⟩ =>
      match option.kind, attached with
      | .version, none => .version
      | .help, none => .help
      | .switch, none =>
        if found.has option.long then .rejected
        else spec.parseFrom (found.addOption option.long "") words
      | .value accepts, some value =>
        match Spec.takeValue option accepts found value with
        | some found => spec.parseFrom found words
        | none => .rejected
      | .value accepts, none =>
        match words with
        | [] => .rejected
        | value :: words =>
          match spec.word value with
          | .plain =>
            match Spec.takeValue option accepts found value with
            | some found => spec.parseFrom found words
            | none => .rejected
          | _ => .rejected
      | _, some _ => .rejected

def Spec.parse (spec : Spec) (words : List String) : Parse :=
  spec.parseFrom {} words

/-- How a program ends. -/
inductive Exit where
  | done (code : Nat) (stdout stderr : String)
  /-- The command line cannot be understood. -/
  | usage
  | help
  deriving Repr

end VisualNovel.CommandLine
