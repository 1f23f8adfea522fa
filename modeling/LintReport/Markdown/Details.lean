/-!
# Collapsible blocks

## Main definitions

* `Details`: a summary and the lines that unfold below it.
* `Details.lines`: the block as lines of Markdown.
-/

namespace LintReport

/-- A collapsible block: a summary, and the lines that unfold below it. -/
structure Details where
  body : List String
  summary : String := "Details"
  indent : String := ""
deriving DecidableEq, Repr

namespace Details

/-- A line behind an indentation; an empty line stays empty. -/
def indented (indent line : String) : String := if line.isEmpty then "" else indent ++ line

/-- The lines of a block. A block without a body has none. -/
def lines (d : Details) : List String :=
  if d.body.isEmpty then []
  else
    [d.indent ++ "<details>", d.indent ++ "<summary>" ++ d.summary ++ "</summary>", ""] ++
      d.body.map (indented d.indent) ++ ["", d.indent ++ "</details>"]

end Details

end LintReport
