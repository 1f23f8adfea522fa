import LintReport.CommandLine.Grammar
import LintReport.Text.Case

/-!
# Usage and help

The usage of a command shows its options and operands in brackets where they need not be there. The
help adds what each of them is for. Both are laid out for a screen of 80 columns.

## Main definitions

* `Grammar.usage`, `Grammar.help`: the texts.
* `fillLines`: lines that hold as many words as fit.
-/

namespace LintReport.CommandLine

/-- The columns that a line may take. -/
def lineWidth : Nat := 78

/-- A text of blanks. -/
def blanks (count : Nat) : String := String.ofList (List.replicate count ' ')

/-- Lines that hold as many of the words as fit after `line`. -/
def fillFrom (room : Nat) (line : String) : List String → List String
  | [] => [line]
  | word :: words =>
    if line.length + 1 + word.length ≤ room then fillFrom room (line ++ " " ++ word) words
    else line :: fillFrom room word words

/-- Lines that hold as many of the words as fit. A word that is too long has a line of its own. -/
def fillLines (room : Nat) : List String → List String
  | [] => []
  | word :: words => fillFrom room word words

/-- What stands for the value of an option: its long name in capital letters. -/
def OptionRule.placeholder {σ : Type} (rule : OptionRule σ) : String :=
  let name := (rule.names.getLast?.getD "").toList.dropWhile (· == '-')
  String.ofList (name.map fun c => if c == '-' then '_' else c.toUpper)

/-- A name of an option with what stands for its value. -/
def OptionRule.called {σ : Type} (rule : OptionRule σ) (name : String) : String :=
  if rule.effect.takesValue then name ++ " " ++ rule.placeholder else name

/-- An option in the usage. -/
def OptionRule.usage {σ : Type} (rule : OptionRule σ) : String :=
  let shown := rule.called (rule.names.headD "")
  if rule.required then shown else "[" ++ shown ++ "]"

/-- An operand in the usage. -/
def Operand.usage {σ : Type} (operand : Operand σ) : String :=
  if operand.required then operand.name else "[" ++ operand.name ++ "]"

namespace Grammar

variable {σ : Type} (g : Grammar σ)

/-- The usage: on one line if it fits there, and else with the operands on lines of their own. -/
def usage : List String :=
  let start := "usage: " ++ g.program
  let options := g.options.map OptionRule.usage
  let operands := g.operands.map Operand.usage
  let whole := " ".intercalate (start :: options ++ operands)
  if whole.length ≤ lineWidth then [whole]
  else
    let indent := blanks (start.length + 1)
    let room := lineWidth - indent.length
    let optionLines := fillLines room options
    match optionLines ++ fillLines room operands with
    | [] => [start]
    | first :: rest => (start ++ " " ++ first) :: rest.map (indent ++ ·)

/-- The rows of the operands and of the options: what is shown, and what it is for. -/
def operandRows : List (String × String) := g.operands.map fun o => (o.name, o.about)

/-- The rows of the options. -/
def optionRows : List (String × String) :=
  g.options.map fun rule => (", ".intercalate (rule.names.map rule.called), rule.about)

/-- Rows under a title, aligned at a column. -/
def rowsUnder (column : Nat) (title : String) (rows : List (String × String)) : List String :=
  if rows.isEmpty then []
  else
    ["", title ++ ":"] ++ rows.map fun (shown, about) =>
      "  " ++ shown ++ blanks (column - 2 - shown.length) ++ about

/-- The lines of a paragraph. -/
def paragraph (text : String) : List String := fillLines lineWidth (text.splitOn " ")

/-- The help. -/
def help : String :=
  let widths := (g.operandRows ++ g.optionRows).map fun row => row.1.length
  let column := widths.foldl max 0 + 4
  "\n".intercalate (g.usage ++ [""] ++ paragraph g.about ++
    rowsUnder column "positional arguments" g.operandRows ++
    rowsUnder column "options" g.optionRows ++
    match g.epilogue with
    | none => []
    | some text => "" :: paragraph text)

end Grammar

end LintReport.CommandLine
