import LintReport.Number.Numeral
import LintReport.Text.Digit
import LintReport.Text.Quoted

/-!
# Command line grammars

A command takes options, which start with a dash, and operands, which stand by themselves. A grammar
says which ones there are and how each changes the values that are read.

## Main definitions

* `OptionRule`, `Operand`, `Grammar`.
* `UsageFault`: why arguments do not follow a grammar, with its words.
* `Grammar.pieces`: the arguments, each by what it is.

## Conventions

An option has a long name, which starts with two dashes, or a short name of one dash and one
character, or both. A long name may be cut short where only one name begins so. An option to whose
name two dashes are attached as its value is there, but has no value.
-/

namespace LintReport.CommandLine

/-- What an option does. -/
inductive Effect (σ : Type)
  /-- It shows the help and ends the command. -/
  | help
  /-- It shows the version and ends the command. -/
  | version (number : String)
  | flag (set : σ → σ)
  /-- It takes a text, which may be missing. -/
  | text (set : Option String → σ → σ)
  /-- It takes an integer, which may be missing. -/
  | integer (set : Option Int → σ → σ)

/-- Whether an option takes a value. -/
def Effect.takesValue {σ : Type} : Effect σ → Bool
  | text _ | integer _ => true
  | _ => false

/-- An option. -/
structure OptionRule (σ : Type) where
  names : List String
  about : String
  effect : Effect σ
  required : Bool := false

/-- What an option is called in messages. -/
def OptionRule.title {σ : Type} (rule : OptionRule σ) : String := "/".intercalate rule.names

/-- The option that every command has. -/
def OptionRule.helpRule {σ : Type} : OptionRule σ where
  names := ["-h", "--help"]
  about := "show this help message and exit"
  effect := .help

/-- An operand. Those that are required come before the others. -/
structure Operand (σ : Type) where
  name : String
  about : String
  set : String → σ → σ
  required : Bool := true

/-- What a command takes. -/
structure Grammar (σ : Type) where
  program : String
  about : String
  epilogue : Option String := none
  options : List (OptionRule σ)
  operands : List (Operand σ) := []
  /-- The values before any argument is read. -/
  initial : σ

/-- Why arguments do not follow a grammar. -/
inductive UsageFault
  /-- An option is cut too short. -/
  | ambiguous (text : String) (names : List String)
  /-- An option has no value. -/
  | noValue (option : String)
  /-- An option that takes no value has one. -/
  | extraValue (option value : String)
  | notInteger (option value : String)
  | missing (names : List String)
  | unrecognized (texts : List String)
deriving DecidableEq, Repr

/-- The words for a fault. -/
def UsageFault.message : UsageFault → String
  | ambiguous text names => s!"ambiguous option: {text} could match " ++ ", ".intercalate names
  | noValue option => s!"argument {option}: expected one argument"
  | extraValue option value =>
    s!"argument {option}: ignored explicit argument {Text.quote value}"
  | notInteger option value => s!"argument {option}: invalid int value: {Text.quote value}"
  | missing names => "the following arguments are required: " ++ ", ".intercalate names
  | unrecognized texts => "unrecognized arguments: " ++ " ".intercalate texts

/-! ### Arguments by what they are -/

/-- An argument, by what it is. -/
inductive Piece (σ : Type)
  | word (text : String)
  /-- The two dashes after which there are only words. -/
  | divider
  /-- An option, the name by which it is called, and the value that is attached to the name. -/
  | option (rule : OptionRule σ) (name : String) (attached : Option String)
  /-- What looks like an option and is none. -/
  | unknown (text : String)

/-- The argument that a piece stands for, unless that is an option. -/
def Piece.text? {σ : Type} : Piece σ → Option String
  | word text => some text
  | divider => some "--"
  | _ => none

/-- The parts of an argument before and after its first equals sign. -/
def splitAtEquals (text : String) : String × Option String :=
  let cs := text.toList
  let name := cs.takeWhile (· != '=')
  (String.ofList name,
    match cs.drop name.length with
    | [] => none
    | _ :: value => some (String.ofList value))

/-- Whether an argument is written like a negative number, perhaps with a line feed behind it. -/
def isNegativeNumber (text : String) : Bool :=
  match text.toList with
  | '-' :: cs =>
    let cs := if cs.getLast? == some '\n' then cs.dropLast else cs
    let isDigit := fun c => (Text.digitValue? c).isSome
    let fraction :=
      match cs.dropWhile isDigit with
      | [] => cs
      | '.' :: digits => digits
      | _ => []
    !fraction.isEmpty && fraction.all isDigit
  | _ => false

namespace Grammar

variable {σ : Type} (g : Grammar σ)

/-- All options, by each of their names. -/
def named : List (String × OptionRule σ) :=
  g.options.flatMap fun rule => rule.names.map fun name => (name, rule)

/-- The options that an argument without an exact name can stand for, each with the value that is
then attached to it. -/
def candidates (text : String) : List (String × OptionRule σ × Option String) :=
  match text.toList with
  | _ :: '-' :: _ =>
    let (start, value) := splitAtEquals text
    g.named.filterMap fun (name, rule) =>
      if start.toList.isPrefixOf name.toList then some (name, rule, value) else none
  | cs =>
    g.named.filterMap fun (name, rule) =>
      if name.toList == cs.take 2 then some (name, rule, some (String.ofList (cs.drop 2)))
      else if cs.isPrefixOf name.toList then some (name, rule, none)
      else none

/-- What an argument is. -/
def piece (text : String) : Except UsageFault (Piece σ) :=
  match text.toList with
  | '-' :: _ :: _ =>
    let (start, value) := splitAtEquals text
    match g.named.lookup text, g.named.lookup start with
    | some rule, _ => .ok (.option rule text none)
    | none, some rule => .ok (.option rule start value)
    | none, none =>
      match g.candidates text with
      | [(name, rule, value)] => .ok (.option rule name value)
      | [] =>
        if isNegativeNumber text || text.contains ' ' then .ok (.word text)
        else .ok (.unknown text)
      | several => .error (.ambiguous text (several.map (·.1)))
  | _ => .ok (.word text)

/-- What the arguments are. -/
def pieces : List String → Except UsageFault (List (Piece σ))
  | [] => .ok []
  | text :: rest =>
    if text == "--" then .ok (.divider :: rest.map .word)
    else do return (← g.piece text) :: (← pieces rest)

end Grammar

end LintReport.CommandLine
