import LintReport.CommandLine.Grammar

/-!
# Reading a command line

The arguments are read from the left. The words between two options go to the operands that are
still without a value, and an option that takes a value takes it from the next word unless one is
attached. What belongs to nothing is left over.

## Main definitions

* `Grammar.read`: the values that arguments give.
* `Stop`: why there are none.

## Conventions

An operand that need not be there counts as read when the words that could give its value have been
passed, also if none was left for it.
-/

namespace LintReport.CommandLine

/-- Why a command line gives no values. -/
inductive Stop
  /-- The help is asked for. -/
  | help
  /-- The version is asked for. -/
  | version (number : String)
  | misuse (fault : UsageFault)
deriving DecidableEq, Repr

/-- What has been read so far. -/
structure Progress (σ : Type) where
  values : σ
  /-- The options that were there, by their titles. -/
  seen : List String := []
  /-- The operands without a value. -/
  operands : List (Operand σ)
  leftOver : List String := []

/-- Whether a piece is a divider. -/
def Piece.isDivider {σ : Type} : Piece σ → Bool
  | divider => true
  | _ => false

/-- The pieces that give an operand its value, as texts, and those after them. -/
def Operand.take? {σ : Type} (operand : Operand σ) (run : List (Piece σ)) :
    Option (List String × List (Piece σ)) :=
  let (front, rest) := run.span Piece.isDivider
  match rest with
  | .word text :: rest =>
    let (back, rest) := rest.span Piece.isDivider
    some (front.filterMap Piece.text? ++ [text] ++ back.filterMap Piece.text?, rest)
  | _ => if operand.required then none else some (front.filterMap Piece.text?, rest)

namespace Progress

variable {σ : Type}

/-- Gives operands their values from a run of words. Returns the operands that get none, and the
rest of the run. The first two dashes in front of a value or behind it are dropped. -/
def assign (values : σ) : List (Operand σ) → List (Piece σ) → σ × List (Operand σ) × List (Piece σ)
  | [], run => (values, [], run)
  | operand :: operands, run =>
    match operand.take? run with
    | none => (values, operand :: operands, run)
    | some (texts, rest) =>
      let values :=
        match texts.erase "--" with
        | text :: _ => operand.set text values
        | [] => values
      assign values operands rest

/-- Reads a run of words. -/
def settle (p : Progress σ) (run : List (Piece σ)) : Progress σ :=
  if run.isEmpty then p
  else
    let (values, operands, rest) := assign p.values p.operands run
    { p with
      values := values
      operands := operands
      leftOver := p.leftOver ++ rest.filterMap Piece.text? }

/-- Reads an option without a value. -/
def applyBare (p : Progress σ) (rule : OptionRule σ) : Except Stop (Progress σ) :=
  match rule.effect with
  | .help => .error .help
  | .version number => .error (.version number)
  | .flag set => .ok { p with values := set p.values, seen := p.seen ++ [rule.title] }
  | _ => .error (.misuse (.noValue rule.title))

/-- The value that a text gives: none if it is only two dashes. -/
def valueOf (text : String) : Option String := if text == "--" then none else some text

/-- Reads an option with its value. -/
def applyValue (p : Progress σ) (rule : OptionRule σ) (text : String) :
    Except Stop (Progress σ) :=
  let p := { p with seen := p.seen ++ [rule.title] }
  match rule.effect, valueOf text with
  | .text set, value => .ok { p with values := set value p.values }
  | .integer set, none => .ok { p with values := set none p.values }
  | .integer set, some value =>
    match Numeral.int? 10 value with
    | some n => .ok { p with values := set (some n) p.values }
    | none => .error (.misuse (.notInteger rule.title value))
  | _, _ => .error (.misuse (.extraValue rule.title text))

end Progress

namespace Grammar

variable {σ : Type} (g : Grammar σ)

/-- What one argument says: options without a value, and the last option with what is attached to
it. Behind the short name of an option without a value there may be more short names, each of one
character. -/
def spread (rule : OptionRule σ) (isShort : Bool) :
    List Char → Except UsageFault (List (OptionRule σ) × OptionRule σ × Option String)
  | [] =>
    if rule.effect.takesValue then .ok ([], rule, some "") else .error (.extraValue rule.title "")
  | c :: cs =>
    if rule.effect.takesValue then .ok ([], rule, some (String.ofList (c :: cs)))
    else if isShort then
      match g.named.lookup (String.ofList ['-', c]) with
      | none => .error (.extraValue rule.title (String.ofList (c :: cs)))
      | some next =>
        if cs.isEmpty then .ok ([rule], next, none)
        else do
          let (before, last, value) ← spread next true cs
          return (rule :: before, last, value)
    else .error (.extraValue rule.title (String.ofList (c :: cs)))

/-- The options that one argument stands for. -/
def called (rule : OptionRule σ) (name : String) (attached : Option String) :
    Except UsageFault (List (OptionRule σ) × OptionRule σ × Option String) :=
  match attached with
  | none => .ok ([], rule, none)
  | some value => g.spread rule (name.toList.length == 2) value.toList

/-- Reads an argument that calls options, with the word that follows it, if one does. Says whether
that word is a value. -/
def readOption (p : Progress σ) (rule : OptionRule σ) (name : String) (attached : Option String)
    (next : Option String) : Except Stop (Progress σ × Bool) := do
  let (before, last, value) ← (g.called rule name attached).mapError Stop.misuse
  if last.effect.takesValue then
    match value <|> next with
    | none => throw (.misuse (.noValue last.title))
    | some text =>
      return (← (← before.foldlM Progress.applyBare p).applyValue last text, value.isNone)
  else return (← (before ++ [last]).foldlM Progress.applyBare p, false)

/-- Reads pieces. `run` holds the words since the last option. -/
def readPieces : List (Piece σ) → List (Piece σ) → Progress σ → Except Stop (Progress σ)
  | [], run, p => .ok (p.settle run)
  | .word text :: rest, run, p => readPieces rest (run ++ [.word text]) p
  | .divider :: rest, run, p => readPieces rest (run ++ [.divider]) p
  | .unknown text :: rest, run, p =>
    let p := p.settle run
    readPieces rest [] { p with leftOver := p.leftOver ++ [text] }
  | .option rule name attached :: .word next :: rest, run, p => do
    let (p, isValue) ← g.readOption (p.settle run) rule name attached (some next)
    if isValue then readPieces rest [] p else readPieces rest [.word next] p
  | .option rule name attached :: rest, run, p => do
    let (p, _) ← g.readOption (p.settle run) rule name attached none
    readPieces rest [] p

/-- The required options and operands that were not there. -/
def missing (p : Progress σ) : List String :=
  ((p.operands.filter Operand.required).map Operand.name) ++
    ((g.options.filter OptionRule.required).map OptionRule.title).filter fun title =>
      !p.seen.contains title

/-- The values that arguments give. -/
def read (arguments : List String) : Except Stop σ := do
  let pieces ← (g.pieces arguments).mapError Stop.misuse
  let p ← g.readPieces pieces [] { values := g.initial, operands := g.operands }
  if !(g.missing p).isEmpty then throw (.misuse (.missing (g.missing p)))
  if !p.leftOver.isEmpty then throw (.misuse (.unrecognized p.leftOver))
  return p.values

end Grammar

end LintReport.CommandLine
