import LintReport.FileTree.Make
import LintReport.Text.Utf8

/-!
# The rules that come with the program

## Main definitions

* `Packaged.rules`: the rule files by the names that lead to them.
* `Packaged.root`: the path of the rule trees.
* `Packaged.install`: files together with the rule files.
-/

namespace LintReport.Packaged

/-- A text of whole lines. -/
def textOf (lines : List String) : String := String.join (lines.map (· ++ "\n"))

/-- The rule `no-dbg-macro` for Rust. -/
def rustNoDebug : String :=
  textOf [
    "id: no-dbg-macro",
    "language: rust",
    "severity: error",
    "message: Remove dbg! macro before committing",
    "note: |",
    "  dbg! writes to stderr and is meant for local debugging only.",
    "  Use tracing or log macros for diagnostics that should ship.",
    "rule:",
    "  kind: macro_invocation",
    "  has:",
    "    field: macro",
    "    regex: ^dbg$"]

/-- The rule `no-todo-macro` for Rust. -/
def rustNoTodo : String :=
  textOf [
    "id: no-todo-macro",
    "language: rust",
    "severity: warning",
    "message: Replace todo!/unimplemented! with a real implementation or an error",
    "note: |",
    "  Both macros panic at runtime.",
    "rule:",
    "  kind: macro_invocation",
    "  has:",
    "    field: macro",
    "    regex: ^(todo|unimplemented)$"]

/-- The rule `no-unwrap-in-lib` for Rust. -/
def rustNoUnwrap : String :=
  textOf [
    "id: no-unwrap-in-lib",
    "language: rust",
    "severity: warning",
    "message: Avoid using unwrap() in library code",
    "note: |",
    "  unwrap() panics on None/Err. Propagate the error with `?` or use expect()",
    "  with a message that explains why the value is always present.",
    "rule:",
    "  pattern: $RECV.unwrap()"]

/-- The rule `no-fixme-comment` for Rust, shared. -/
def sharedRustNoFixmeComment : String :=
  textOf [
    "id: no-fixme-comment-rust",
    "language: rust",
    "severity: hint",
    "message: FIXME comment left in code",
    "note: |",
    "  Open an issue and reference it, or fix the code before merging.",
    "rule:",
    "  any:",
    "    - kind: line_comment",
    "    - kind: block_comment",
    "  regex: FIXME"]

/-- The rule `no-private-key-literal` for Rust, shared. -/
def sharedRustNoPrivateKeyLiteral : String :=
  textOf [
    "id: no-private-key-literal-rust",
    "language: rust",
    "severity: error",
    "message: Private key material embedded in source",
    "note: |",
    "  Load keys from a secret store or the environment.",
    "rule:",
    "  kind: string_literal",
    "  regex: \"-----BEGIN [A-Z ]*PRIVATE KEY-----\""]

/-- The rule `no-fixme-comment` for TypeScript, shared. -/
def sharedTypescriptNoFixmeComment : String :=
  textOf [
    "id: no-fixme-comment-ts",
    "language: typescript",
    "severity: hint",
    "message: FIXME comment left in code",
    "note: |",
    "  Open an issue and reference it, or fix the code before merging.",
    "rule:",
    "  kind: comment",
    "  regex: FIXME"]

/-- The rule `no-private-key-literal` for TypeScript, shared. -/
def sharedTypescriptNoPrivateKeyLiteral : String :=
  textOf [
    "id: no-private-key-literal-ts",
    "language: typescript",
    "severity: error",
    "message: Private key material embedded in source",
    "note: |",
    "  Load keys from a secret store or the environment.",
    "rule:",
    "  any:",
    "    - kind: string",
    "    - kind: template_string",
    "  regex: \"-----BEGIN [A-Z ]*PRIVATE KEY-----\""]

/-- The rule `no-console-log` for TypeScript. -/
def typescriptNoConsoleLog : String :=
  textOf [
    "id: no-console-log",
    "language: typescript",
    "severity: warning",
    "message: Avoid using console.log in production code",
    "note: |",
    "  Use the project logger so output can be filtered and routed.",
    "rule:",
    "  pattern: console.log($$$ARGS)"]

/-- The rule `no-debugger` for TypeScript. -/
def typescriptNoDebugger : String :=
  textOf [
    "id: no-debugger",
    "language: typescript",
    "severity: error",
    "message: Remove debugger statement",
    "rule:",
    "  kind: debugger_statement"]

/-- The rule `no-explicit-any` for TypeScript. -/
def typescriptNoExplicitAny : String :=
  textOf [
    "id: no-explicit-any",
    "language: typescript",
    "severity: error",
    "message: No explicit any",
    "note: |",
    "  Prefer `unknown` and narrow, or describe the shape with a type.",
    "rule:",
    "  kind: predefined_type",
    "  regex: ^any$"]

/-- The rule files by the names that lead to them. -/
def rules : List (List String × String) :=
  [(["rust", "no-dbg-macro.yml"], rustNoDebug),
    (["rust", "no-todo-macro.yml"], rustNoTodo),
    (["rust", "no-unwrap-in-lib.yml"], rustNoUnwrap),
    (["shared", "rust", "no-fixme-comment.yml"], sharedRustNoFixmeComment),
    (["shared", "rust", "no-private-key-literal.yml"], sharedRustNoPrivateKeyLiteral),
    (["shared", "typescript", "no-fixme-comment.yml"], sharedTypescriptNoFixmeComment),
    (["shared", "typescript", "no-private-key-literal.yml"], sharedTypescriptNoPrivateKeyLiteral),
    (["typescript", "no-console-log.yml"], typescriptNoConsoleLog),
    (["typescript", "no-debugger.yml"], typescriptNoDebugger),
    (["typescript", "no-explicit-any.yml"], typescriptNoExplicitAny)]

/-- The path of the rule trees. -/
def root : Path := ⟨.package, ["rules"]⟩

/-- Files together with the rule files. -/
def install (t : FileTree) : FileTree :=
  rules.foldl (fun t (names, text) =>
    t.place (root.descend names) (.file (Text.Utf8.encode text) false)) t

end LintReport.Packaged
