import LintReport.Issue.Normalize
import LintReport.Json.Parser

/-!
# The output of the engine

The engine writes one JSON array with an object for each match. The keys of the first five elements
tell whether the array holds matches at all; a later element that is no object counts as a match of
which nothing is known.

## Main definitions

* `OutputFault`: why no issues were read from an output.
* `Warning`: what a reader or a filter has to say about the issues it dropped.
* `Issue.readOutput`: the issues of an output, and warnings about those of rules that are not
  wanted.
-/

namespace LintReport

/-- Why no issues were read from an output. -/
inductive OutputFault
  /-- It is not JSON. -/
  | notJson (fault : Json.SyntaxFault)
  /-- It is JSON, but no array of matches. -/
  | notMatches
  /-- The reader has no room for it, so that it may hold issues or not. -/
  | beyond (limit : Json.Limit)
deriving DecidableEq, Repr

/-- The words for a fault. -/
def OutputFault.message : OutputFault → String
  | .notJson fault => s!"Failed to parse JSON: {fault.message}"
  | .notMatches => "Expected JSON array of lint results"
  | .beyond limit => limit.message

/-- What is said about rules that do not fit the issues. -/
inductive Warning
  /-- An issue of a rule that is not among the allowed ones. -/
  | notAllowed (issue : Issue)
  /-- An excluded rule that no issue belongs to. -/
  | notFound (ruleId : String)
deriving DecidableEq, Repr

/-- The words of a warning. -/
def Warning.message : Warning → String
  | .notAllowed issue =>
    s!"Filtered out non-tempo lint issue: {issue.ruleId} in {issue.file}:{issue.line}"
  | .notFound ruleId =>
    s!"Excluded rule \"{ruleId}\" was not found in results (possible typo?)"

/-- Issues that were kept, and warnings about those that were not. -/
structure Selection where
  issues : List Issue
  warnings : List Warning
deriving DecidableEq, Repr

namespace Issue

/-- Whether a value looks like a match: an object with a rule id. -/
def looksLikeMatch (v : Json) : Bool := (v.field? "ruleId").isSome

/-- The elements of an array of matches. The first five elements are looked at. -/
def matches? : Json → Option (List Json)
  | .arr items => if (items.take 5).all looksLikeMatch then some items else none
  | _ => none

/-- The issue of an element. -/
def ofMatch : Json → Issue
  | .obj members => (normalize members).issue
  | _ => (normalize []).issue

/-- All issues of an output, whatever their rules. -/
def ofOutput (text : String) : Except OutputFault (List Issue) :=
  match Json.parse text with
  | .error (.notJson fault) => .error (.notJson fault)
  | .error (.beyond limit) => .error (.beyond limit)
  | .ok v =>
    match matches? v with
    | none => .error .notMatches
    | some items => .ok (items.map ofMatch)

/-- Keeps the issues of allowed rules and warns about each of the others. Without a list of rules,
every rule is allowed. -/
def selectAllowed (allowed : Option (List String)) (issues : List Issue) : Selection :=
  match allowed with
  | none => ⟨issues, []⟩
  | some ids =>
    { issues := issues.filter fun issue => ids.contains issue.ruleId
      warnings := (issues.filter fun issue => !ids.contains issue.ruleId).map Warning.notAllowed }

/-- The issues of allowed rules in an output, with a warning about each other issue. -/
def readOutput (text : String) (allowed : Option (List String)) : Except OutputFault Selection :=
  (ofOutput text).map (selectAllowed allowed)

end Issue

end LintReport
