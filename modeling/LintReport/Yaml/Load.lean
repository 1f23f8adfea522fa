import LintReport.Yaml.Document
import LintReport.Yaml.Value

/-!
# Reading YAML texts

Main definitions:

* `Yaml.loadOne`: the value of a text with at most one document.
* `Yaml.loadAll`: the values of all documents of a text, made one after another.
-/

namespace LintReport.Yaml

/-- The state before the first document of a text. -/
def Composer.ofText (text : String) : Composer :=
  let stream := Lexer.tokens text.toList
  { tokens := stream.tokens, fault := stream.fault }

/-- The next document, if there is one, with the state after it. -/
def nextDocument (s : Composer) : Except Fault (Option NodeId × Composer) :=
  (do match ← Composer.startDocument with
      | none => return none
      | some opening => return some (← Composer.content opening) : Composer.Step _).run s

/-- The value of a text with at most one document. A second one is refused as soon as it starts. -/
def loadOne (text : String) : Except Fault (Option Value) := do
  let (root, s) ← nextDocument (Composer.ofText text)
  match root with
  | none => return none
  | some root =>
    let (more, _) ← Composer.startDocument.run s
    if more.isSome then throw .malformed
    return some (← Value.ofGraph s.graph root)

/-- The values of the documents from a state on. -/
def loadFrom : Nat → Composer → Except Fault (List Value)
  | 0, _ => .ok []
  | budget + 1, s => do
    match ← nextDocument s with
    | (none, _) => return []
    | (some root, s) =>
      let v ← Value.ofGraph s.graph root
      return v :: (← loadFrom budget s)

/-- The values of all documents of a text. The value of each is made before the next is looked at.
-/
def loadAll (text : String) : Except Fault (List Value) :=
  let s := Composer.ofText text
  loadFrom (s.tokens.length + 1) s

end LintReport.Yaml
