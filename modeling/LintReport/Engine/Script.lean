import LintReport.Text.Blank
import LintReport.Text.Quoted
import LintReport.Text.Utf8

/-!
# Small shell scripts

The engine may be a shell script. This is the part of the shell that such stubs use: simple commands
with quoted words and parameters, lists and groups of commands, loops over words, and output that
goes to the diagnostics or nowhere. A script has no input.

## Main definitions

* `Script.tokens?`: the words and marks of a text.
* `Script.parse?`: the commands.
* `Script.run`: what they write and how they end.
-/

namespace LintReport.Script

/-- A part of a word. -/
inductive Part
  | text (cs : List Char)
  /-- The value of a parameter; only one in quotes stays a single word. -/
  | parameter (name : String) (inQuotes : Bool)
deriving DecidableEq, Repr

/-- A word or a mark. -/
inductive Token
  | word (parts : List Part)
  | separator
  | andThen
  | orElse
  | opening
  | closing
  /-- Output that does not go to the output of the script; the flag says whether it is the output of
  the command, and not its diagnostics. -/
  | divert (isOutput : Bool)
deriving DecidableEq, Repr

/-! ### Words -/

/-- Whether a character may stand in the name of a parameter. -/
def isNameChar (c : Char) : Bool := c.isAlphanum || c == '_'

/-- The name of the parameter after a dollar sign, and what follows it. -/
def parameterName? : List Char → Option (String × List Char)
  | [] => none
  | c :: rest =>
    if c == '\x7b' then
      let name := rest.takeWhile (· != '\x7d')
      some (String.ofList name, rest.drop (name.length + 1))
    else if c.isDigit || ['@', '*', '#', '?', '$'].contains c then some (String.singleton c, rest)
    else if isNameChar c then
      let name := (c :: rest).takeWhile isNameChar
      some (String.ofList name, (c :: rest).drop name.length)
    else none

/-- Whether a character ends a word outside quotes. -/
def endsWord (c : Char) : Bool := [' ', '\t', '\n', ';', '&', '|', '<', '>', '(', ')'].contains c

/-- The text between double quotes, after `done`, and what follows the closing quote. -/
def doubleQuoted : Nat → List Part → List Char → Option (List Part × List Char)
  | 0, _, _ => none
  | _ + 1, _, [] => none
  | budget + 1, done, c :: rest =>
    if c == Text.doubleQuote then some (done, rest)
    else if c == Text.backslash then
      match rest with
      | [] => none
      | e :: more =>
        if [Text.doubleQuote, Text.backslash, '$', '\x60'].contains e then
          doubleQuoted budget (done ++ [.text [e]]) more
        else doubleQuoted budget (done ++ [.text [c, e]]) more
    else if c == '$' then
      match parameterName? rest with
      | some (name, more) => doubleQuoted budget (done ++ [.parameter name true]) more
      | none => doubleQuoted budget (done ++ [.text [c]]) rest
    else doubleQuoted budget (done ++ [.text [c]]) rest

/-- The parts of a word, after `done`, and what follows it. -/
def wordParts : Nat → List Part → List Char → Option (List Part × List Char)
  | 0, _, _ => none
  | _ + 1, done, [] => some (done, [])
  | budget + 1, done, c :: rest =>
    if endsWord c then some (done, c :: rest)
    else if c == Text.apostrophe then
      let inner := rest.takeWhile (· != Text.apostrophe)
      if inner.length == rest.length then none
      else wordParts budget (done ++ [.text inner]) (rest.drop (inner.length + 1))
    else if c == Text.doubleQuote then
      match doubleQuoted budget [.text []] rest with
      | none => none
      | some (parts, rest) => wordParts budget (done ++ parts) rest
    else if c == Text.backslash then
      match rest with
      | [] => some (done ++ [.text [c]], [])
      | e :: more => wordParts budget (if e == '\n' then done else done ++ [.text [e]]) more
    else if c == '$' then
      match parameterName? rest with
      | some (name, more) => wordParts budget (done ++ [.parameter name false]) more
      | none => wordParts budget (done ++ [.text [c]]) rest
    else wordParts budget (done ++ [.text [c]]) rest

/-- The mark of diverted output at the start of some characters, and what follows it. Diagnostics
are never kept, so where they go does not matter; output is kept unless it goes elsewhere. -/
def divert? (cs : List Char) : Option (Token × List Char) :=
  let marks : List (String × Bool) :=
    [("2>&1", false), ("2>/dev/null", false), (">&2", true), ("1>&2", true), (">/dev/null", true)]
  marks.findSome? fun (mark, isOutput) =>
    if mark.toList.isPrefixOf cs then some (.divert isOutput, cs.drop mark.length) else none

/-- The words and marks of a script. Only what stubs use is known; `none` for anything else. -/
def tokens? : Nat → List Char → Option (List Token)
  | 0, _ => none
  | _ + 1, [] => some []
  | budget + 1, c :: rest =>
    if c == ' ' || c == '\t' then tokens? budget rest
    else if c == '#' then tokens? budget (rest.dropWhile (· != '\n'))
    else if c == '\n' || c == ';' then (tokens? budget rest).map (.separator :: ·)
    else if c == '(' then (tokens? budget rest).map (.opening :: ·)
    else if c == ')' then (tokens? budget rest).map (.closing :: ·)
    else if ['&', '&'].isPrefixOf (c :: rest) then
      (tokens? budget (rest.drop 1)).map (.andThen :: ·)
    else if ['|', '|'].isPrefixOf (c :: rest) then
      (tokens? budget (rest.drop 1)).map (.orElse :: ·)
    else
      match divert? (c :: rest) with
      | some (t, rest) => (tokens? budget rest).map (t :: ·)
      | none =>
        if endsWord c then none
        else
          match wordParts (rest.length + 2) [] (c :: rest) with
          | none => none
          | some (parts, rest) => (tokens? budget rest).map (.word parts :: ·)

/-! ### Commands -/

/-- When a command of a list is run: always, or by how the one before it ended. -/
inductive Link
  | always
  | ifOk
  | ifFailed
deriving DecidableEq, Repr

/-- A command. -/
inductive Command
  /-- Words, and whether their output goes elsewhere. -/
  | simple (words : List (List Part)) (diverted : Bool)
  /-- A list of commands for each of some words. -/
  | forEach (name : String) (words : List (List Part)) (body : List (Link × Command))
  /-- A list of commands, whether it leaves the state alone, and whether its output goes elsewhere.
  -/
  | group (body : List (Link × Command)) (isolated diverted : Bool)

/-- A word without quotes and parameters. -/
def plainWord? (parts : List Part) : Option String :=
  let text? : Part → Option (List Char)
    | .text cs => some cs
    | .parameter .. => none
  (parts.mapM text?).map fun css => String.ofList css.flatten

/-- The tokens of a simple command: its words, whether its output goes elsewhere, and the rest. -/
def simpleWords (diverted : Bool) : List Token → List (List Part) × Bool × List Token
  | .word w :: rest =>
    let (ws, d, rest) := simpleWords diverted rest
    (w :: ws, d, rest)
  | .divert isOutput :: rest => simpleWords (diverted || isOutput) rest
  | rest => ([], diverted, rest)

/-- Commands up to the end, or up to what closes a loop or a group, with the rest after that. -/
def commands? : Nat → Link → List Token → Option (List (Link × Command) × List Token)
  | 0, _, _ => none
  | _ + 1, _, [] => some ([], [])
  | budget + 1, _, .separator :: rest => commands? budget .always rest
  | budget + 1, _, .andThen :: rest => commands? budget .ifOk rest
  | budget + 1, _, .orElse :: rest => commands? budget .ifFailed rest
  | _ + 1, _, .closing :: rest => some ([], rest)
  | budget + 1, link, .opening :: rest => do
    let (body, rest) ← commands? budget .always rest
    let (_, diverted, rest) := simpleWords false rest
    let (more, rest) ← commands? budget .always rest
    return ((link, .group body true diverted) :: more, rest)
  | budget + 1, link, .word w :: rest =>
    match plainWord? w with
    | some "done" => some ([], rest)
    | some "\x7d" => some ([], rest)
    | some "do" => commands? budget .always rest
    | some "\x7b" => do
      let (body, rest) ← commands? budget .always rest
      let (_, diverted, rest) := simpleWords false rest
      let (more, rest) ← commands? budget .always rest
      return ((link, .group body false diverted) :: more, rest)
    | some "for" =>
      let (words, _, rest) := simpleWords false rest
      match words with
      | loopWord :: _ :: items =>
        match plainWord? loopWord, commands? budget .always rest with
        | some name, some (body, rest) =>
          (commands? budget .always rest).map fun (more, rest) =>
            ((link, .forEach name items body) :: more, rest)
        | _, _ => none
      | _ => none
    | _ =>
      let (words, diverted, rest) := simpleWords false (.word w :: rest)
      (commands? budget .always rest).map fun (more, rest) =>
        ((link, .simple words diverted) :: more, rest)
  | budget + 1, link, .divert _ :: rest => commands? budget link rest

/-- The commands of a script. -/
def parse? (text : List Char) : Option (List (Link × Command)) := do
  let tokens ← tokens? (text.length + 1) text
  let (commands, _) ← commands? (2 * tokens.length + 2) .always tokens
  return commands

/-! ### Running -/

/-- What is known while a script runs. -/
structure State where
  arguments : List String
  bindings : List (String × String) := []
  output : List UInt8 := []
  status : Int := 0
  /-- Whether a command that fails ends the script. -/
  stopsAtFailure : Bool := false
  /-- How the script ended, if it has. -/
  ended : Option Int := none

/-- The values of a parameter. All but the list of arguments have one. -/
def State.values (s : State) (name : String) : List String :=
  if name == "@" then s.arguments.drop 1
  else if name == "*" then [" ".intercalate (s.arguments.drop 1)]
  else if name == "#" then [toString (s.arguments.length - 1)]
  else if name == "?" then [toString s.status]
  else if name == "$" then ["1"]
  else
    match name.toNat? with
    | some n => [s.arguments.getD n ""]
    | none => [(s.bindings.lookup name).getD ""]

/-- The words after one more part: the last word grows, and a list of values starts new words. -/
def State.expandPart (s : State) (words : List (List Char)) (part : Part) : List (List Char) :=
  let join (words : List (List Char)) (values : List (List Char)) :=
    match words.reverse, values with
    | _, [] => words
    | [], vs => vs
    | last :: before, v :: vs => before.reverse ++ (last ++ v) :: vs
  match part with
  | .text cs => join words [cs]
  | .parameter name true => join words ((s.values name).map String.toList)
  | .parameter name false =>
    join words ((s.values name).flatMap fun v =>
      (Text.splitChars ' ' (v.toList.map fun c => if Text.isBlank c then ' ' else c)).filter
        fun w => !w.isEmpty)

/-- The words that a word stands for. -/
def State.expand (s : State) (parts : List Part) : List String :=
  if parts == [.text [], .parameter "@" true] then s.values "@"
  else (parts.foldl s.expandPart []).map String.ofList

/-- The octets of a format or of a shown text, with its escapes read. -/
def unescape : Nat → List Char → List UInt8
  | 0, _ => []
  | _ + 1, [] => []
  | budget + 1, c :: rest =>
    if c == Text.backslash then
      match rest with
      | [] => [UInt8.ofNat c.toNat]
      | e :: more =>
        let isOctal (c : Char) := '0' ≤ c && c ≤ '7'
        if isOctal e then
          let digits := (rest.take 3).takeWhile isOctal
          let n := digits.foldl (fun n d => 8 * n + (d.toNat - 48)) 0
          UInt8.ofNat n :: unescape budget (rest.drop digits.length)
        else
          let table : List (Char × Nat) :=
            [('n', 10), ('t', 9), ('r', 13), ('a', 7), ('b', 8), ('f', 12), ('v', 11),
              (Text.backslash, 92)]
          match table.lookup e with
          | some n => UInt8.ofNat n :: unescape budget more
          | none => UInt8.ofNat 92 :: Text.Utf8.encodeChar e ++ unescape budget more
    else Text.Utf8.encodeChar c ++ unescape budget rest

/-- One pass over a format: what it writes, and the arguments that are left. -/
def formatOnce : Nat → List Char → List Char → List String → List UInt8 × List String
  | 0, _, _, args => ([], args)
  | _ + 1, run, [], args => (unescape (run.length + 1) run, args)
  | budget + 1, run, '%' :: c :: rest, args =>
    let before := unescape (run.length + 1) run
    let (shown, args) :=
      if c == '%' then ([UInt8.ofNat 37], args)
      else if c == 'b' then
        let arg := (args.headD "").toList
        (unescape (arg.length + 1) arg, args.tail)
      else if c == 'd' then
        (Text.Utf8.encode (let arg := args.headD ""; if arg.isEmpty then "0" else arg), args.tail)
      else (Text.Utf8.encode (args.headD ""), args.tail)
    let (more, args) := formatOnce budget [] rest args
    (before ++ shown ++ more, args)
  | budget + 1, run, c :: rest, args => formatOnce budget (run ++ [c]) rest args

/-- A format that is used again until all arguments have been shown. -/
def format : Nat → List Char → List String → List UInt8
  | 0, _, _ => []
  | budget + 1, cs, args =>
    let (shown, left) := formatOnce (cs.length + 1) [] cs args
    if left.isEmpty || left.length == args.length then shown
    else shown ++ format budget cs left

/-- The number of a signal. -/
def signalNumber? (s : String) : Option Nat :=
  let names := [("HUP", 1), ("INT", 2), ("QUIT", 3), ("KILL", 9), ("TERM", 15)]
  match s.toNat? with
  | some n => some n
  | none => (names.find? fun (name, _) => name == s || "SIG" ++ name == s).map (·.2)

/-- The state after a command has written something and ended with a status. -/
def State.finish (s : State) (diverted : Bool) (shown : List UInt8) (status : Int) : State :=
  { s with output := if diverted then s.output else s.output ++ shown, status := status }

/-- The name and the value of an assignment. -/
def assignment? (word : String) : Option (String × String) :=
  let cs := word.toList
  let name := cs.takeWhile isNameChar
  match cs.drop name.length with
  | '=' :: value =>
    if name.isEmpty || (name.headD '0').isDigit then none
    else some (String.ofList name, String.ofList value)
  | _ => none

/-- The state after a simple command. `readFile` is the content of a file. -/
def State.simple (readFile : String → Option (List UInt8)) (s : State) (diverted : Bool) :
    List String → State
  | [] => { s with status := 0 }
  | name :: args =>
    match name with
    | ":" => s.finish diverted [] 0
    | "true" => s.finish diverted [] 0
    | "false" => s.finish diverted [] 1
    | "printf" => s.finish diverted (format (args.length + 1) (args.headD "").toList args.tail) 0
    | "echo" =>
      let (args, ending) := if args.head? == some "-n" then (args.tail, []) else (args, [10])
      let cs := (" ".intercalate args).toList
      s.finish diverted (unescape (cs.length + 1) cs ++ ending) 0
    | "cat" =>
      let contents := args.map readFile
      s.finish diverted (contents.filterMap id).flatten
        (if contents.all Option.isSome then 0 else 1)
    | "exit" =>
      let code := match args with
        | [] => s.status
        | code :: _ => ((code.toNat?.getD 2) % 256 : Nat)
      { s with status := code, ended := some code }
    | "return" =>
      let code := ((args.head?.bind String.toNat?).map Int.ofNat).getD s.status
      { s with status := code, ended := some code }
    | "kill" =>
      let signal := match args with
        | "-s" :: name :: _ => (signalNumber? name).getD 15
        | flag :: _ :: _ => (signalNumber? (String.ofList (flag.toList.drop 1))).getD 15
        | _ => 15
      if signal == 0 then s.finish diverted [] 0 else { s with ended := some (-(signal : Int)) }
    | "shift" =>
      if s.arguments.length < 2 then { s with status := 2, ended := some 2 }
      else { s with arguments := s.arguments.take 1 ++ s.arguments.drop 2, status := 0 }
    | "set" =>
      match args with
      | "--" :: values => { s with arguments := s.arguments.take 1 ++ values, status := 0 }
      | flags :: _ =>
        { s with stopsAtFailure := s.stopsAtFailure || flags.toList.contains 'e', status := 0 }
      | [] => { s with status := 0 }
    | "sleep" => s.finish diverted [] 0
    | "exec" =>
      let s := s.simple readFile diverted args
      if args.isEmpty then s else { s with ended := some (s.ended.getD s.status) }
    | _ =>
      match assignment? name with
      | some (name, value) => { s with bindings := (name, value) :: s.bindings, status := 0 }
      | none => s.finish diverted [] 127

mutual

/-- The state after some commands. -/
def runAll (readFile : String → Option (List UInt8)) :
    Nat → List (Link × Command) → State → State
  | 0, _, s => s
  | _ + 1, [], s => s
  | budget + 1, (link, command) :: rest, s =>
    if s.ended.isSome then s
    else
      let due := match link with
        | .always => true
        | .ifOk => s.status == 0
        | .ifFailed => s.status != 0
      if due then
        let s := runOne readFile budget command s
        let decides := match rest with
          | (.ifOk, _) :: _ | (.ifFailed, _) :: _ => false
          | _ => true
        if s.stopsAtFailure && decides && s.status != 0 && s.ended.isNone then
          { s with ended := some s.status }
        else runAll readFile budget rest s
      else runAll readFile budget rest s

/-- The state after a command. -/
def runOne (readFile : String → Option (List UInt8)) : Nat → Command → State → State
  | 0, _, s => s
  | _ + 1, .simple words diverted, s => s.simple readFile diverted (words.flatMap s.expand)
  | budget + 1, .forEach name words body, s =>
    (words.flatMap s.expand).foldl (fun s value =>
      runAll readFile budget body { s with bindings := (name, value) :: s.bindings }) s
  | budget + 1, .group body isolated diverted, s =>
    let done := runAll readFile budget body s
    let done := if diverted then { done with output := s.output } else done
    if isolated then { s with output := done.output, status := done.ended.getD done.status }
    else done

end

/-- What a script writes to its output, and the code that it ends with: negative if a signal ended
it. `none` if it is not one of the scripts that are known here. -/
def run (readFile : String → Option (List UInt8)) (text : List Char) (arguments : List String)
    (stopsAtFailure : Bool := false) : Option (List UInt8 × Int) := do
  let commands ← parse? text
  let s := runAll readFile (text.length + 2) commands
    { arguments := arguments, stopsAtFailure := stopsAtFailure }
  return (s.output, s.ended.getD s.status)

end LintReport.Script
