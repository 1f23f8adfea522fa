import LintReport.Proofs.Json.Integer
import LintReport.Proofs.Text.Lines
import LintReport.WorkflowCommand

/-!
# Reading Workflow Commands

A workflow run cuts a command into its parts at colons, spaces, commas and equals signs, and undoes
the escapes in each part. No text can confuse it: an escaped text holds none of the marks that end
the part it stands in, and every escape starts with a percent sign, which is escaped itself.

## Main definitions

* `Text.cutAt?`: what stands before and behind the first occurrence of a mark.
* `WorkflowCommand.parts?`: the parts of a line, as they stand in it.
* `WorkflowCommand.decodeMessage`, `WorkflowCommand.decodeProperty`: a part without its escapes.

## Main results

* `escapeMessage_eq_replace`, `escapeProperty_eq_replace`: escaping is replacing one mark after the
  other, **the percent sign first**.
* `decodeMessage_escapeMessage`, `decodeProperty_escapeProperty`: escapes can be undone.
* `parts?_render`: **the parts of a command are read back from its line**.
* `Issue.commandLine_decodes`: so is all that the command of an issue shows.
-/

namespace LintReport

/-! ### Cutting a text -/

namespace Text

/-- What stands before and behind the first occurrence of a mark in a list of characters. -/
def cutChars? (mark : List Char) : List Char → Option (List Char × List Char)
  | [] => if mark.isEmpty then some ([], []) else none
  | c :: rest =>
    if mark.isPrefixOf (c :: rest) then some ([], (c :: rest).drop mark.length)
    else (cutChars? mark rest).map fun (before, after) => (c :: before, after)

/-- What stands before and behind the first occurrence of a mark in a text. -/
def cutAt? (mark s : String) : Option (String × String) :=
  (cutChars? mark.toList s.toList).map fun (before, after) =>
    (String.ofList before, String.ofList after)

/-- A mark is found behind characters that hold none of its beginning. -/
theorem cutChars?_append {m : Char} {ms before : List Char} (hbefore : m ∉ before)
    (after : List Char) :
    cutChars? (m :: ms) (before ++ (m :: ms ++ after)) = some (before, after) := by
  induction before with
  | nil =>
    have hmark : (m :: ms).isPrefixOf (m :: (ms ++ after)) = true :=
      List.isPrefixOf_iff_prefix.2 (List.prefix_append (m :: ms) after)
    rw [List.nil_append, List.cons_append, cutChars?, if_pos hmark, ← List.cons_append,
      List.drop_left]
  | cons c before ih =>
    rw [List.mem_cons, not_or] at hbefore
    have hother : ¬ (m :: ms).isPrefixOf (c :: (before ++ (m :: ms ++ after))) = true := by
      rw [List.isPrefixOf_iff_prefix, List.cons_prefix_cons]
      exact fun h => hbefore.1 h.1
    rw [List.cons_append, cutChars?, if_neg hother, ih hbefore.2]
    rfl

/-- **A text is cut at the first mark**, which stands behind a text that holds none of its
beginning. -/
theorem cutAt?_append {mark before : String} {m : Char} {ms : List Char}
    (hmark : mark.toList = m :: ms) (hbefore : m ∉ before.toList) (after : String) :
    cutAt? mark (before ++ mark ++ after) = some (before, after) := by
  rw [cutAt?, String.toList_append, String.toList_append, List.append_assoc, hmark,
    cutChars?_append hbefore, Option.map_some]
  dsimp only
  rw [String.ofList_toList, String.ofList_toList]

/-- Texts that are put together hold no more characters than they do and what is put between
them. -/
theorem notMem_intercalate {mark : Char} {between : String} (hbetween : mark ∉ between.toList)
    {texts : List String} (h : ∀ text ∈ texts, mark ∉ text.toList) :
    mark ∉ (between.intercalate texts).toList := by
  induction texts with
  | nil => simp
  | cons text rest ih =>
    rw [List.forall_mem_cons] at h
    cases rest with
    | nil =>
      rw [String.intercalate_singleton]
      exact h.1
    | cons next rest =>
      rw [String.intercalate_cons_cons, String.toList_append, String.toList_append]
      simp only [List.mem_append, not_or]
      exact ⟨⟨h.1, hbetween⟩, ih h.2⟩

/-- A list of characters in which each occurrence of a mark is replaced. -/
def replaceMark (mark : Char) (replacement : String) (cs : List Char) : List Char :=
  cs.flatMap fun c => if c == mark then replacement.toList else [c]

/-- Replacing changes nothing where the mark does not occur. -/
theorem replaceMark_of_notMem {mark : Char} {cs : List Char} (h : mark ∉ cs)
    (replacement : String) : replaceMark mark replacement cs = cs := by
  induction cs with
  | nil => rfl
  | cons c cs ih =>
    rw [List.mem_cons, not_or] at h
    have hc : ¬ (c == mark) = true := by simpa using Ne.symm h.1
    rw [replaceMark, List.flatMap_cons, if_neg hc, List.singleton_append]
    exact congrArg (c :: ·) (ih h.2)

end Text

namespace WorkflowCommand

/-! ### Escapes -/

/-- An escaped character of a message is written with a percent sign and two digits, or it is the
character itself and no line break. -/
theorem mem_escapeMessageChar {c d : Char} (h : d ∈ escapeMessageChar c) :
    d ∈ "%250DA".toList ∨ d = c ∧ c ∉ ['\r', '\n'] := by
  have hpercent : "%25".toList ⊆ "%250DA".toList := by decide
  have hreturn : "%0D".toList ⊆ "%250DA".toList := by decide
  have hfeed : "%0A".toList ⊆ "%250DA".toList := by decide
  rw [escapeMessageChar] at h
  split at h
  · exact .inl (hpercent h)
  · split at h
    · exact .inl (hreturn h)
    · split at h
      · exact .inl (hfeed h)
      · next hreturn hfeed =>
        exact .inr ⟨List.mem_singleton.1 h, by simpa using And.intro hreturn hfeed⟩

/-- An escaped character of a property is written with a percent sign and two digits, or it is the
character itself and neither a line break nor a colon or comma. -/
theorem mem_escapePropertyChar {c d : Char} (h : d ∈ escapePropertyChar c) :
    d ∈ "%250DA3C".toList ∨ d = c ∧ c ∉ ['\r', '\n', ':', ','] := by
  have hcolon : "%3A".toList ⊆ "%250DA3C".toList := by decide
  have hcomma : "%2C".toList ⊆ "%250DA3C".toList := by decide
  have hdigits : "%250DA".toList ⊆ "%250DA3C".toList := by decide
  rw [escapePropertyChar] at h
  split at h
  · exact .inl (hcolon h)
  · split at h
    · exact .inl (hcomma h)
    · next hcolon hcomma =>
      rcases mem_escapeMessageChar h with h | ⟨rfl, hbreak⟩
      · exact .inl (hdigits h)
      · right
        simp_all

/-- **An escaped message holds no line break.** -/
theorem notMem_escapeMessage {mark : Char} (hmark : mark ∈ ['\r', '\n']) (s : String) :
    mark ∉ (escapeMessage s).toList := by
  have hdigits : ∀ mark ∈ ['\r', '\n'], mark ∉ "%250DA".toList := by
    simp only [List.forall_mem_cons, List.not_mem_nil, false_imp_iff, implies_true]
    decide
  rw [escapeMessage, String.toList_ofList, List.mem_flatMap]
  rintro ⟨c, -, hc⟩
  rcases mem_escapeMessageChar hc with hdigit | ⟨rfl, hbreak⟩
  · exact hdigits mark hmark hdigit
  · exact hbreak hmark

/-- **An escaped property holds no line break, colon or comma.** -/
theorem notMem_escapeProperty {mark : Char} (hmark : mark ∈ ['\r', '\n', ':', ','])
    (s : String) : mark ∉ (escapeProperty s).toList := by
  have hdigits : ∀ mark ∈ ['\r', '\n', ':', ','], mark ∉ "%250DA3C".toList := by
    simp only [List.forall_mem_cons, List.not_mem_nil, false_imp_iff, implies_true]
    decide
  rw [escapeProperty, String.toList_ofList, List.mem_flatMap]
  rintro ⟨c, -, hc⟩
  rcases mem_escapePropertyChar hc with hdigit | ⟨rfl, hbreak⟩
  · exact hdigits mark hmark hdigit
  · exact hbreak hmark

/-- An integer is written without marks. -/
theorem escapeProperty_intText (i : Int) : escapeProperty (toString i) = toString i := by
  have hmarks : ∀ mark ∈ ['%', '\r', '\n', ':', ','], mark ≠ '-' ∧ mark.isDigit = false := by
    simp only [List.forall_mem_cons, List.not_mem_nil, false_imp_iff, implies_true]
    decide
  have hchar : ∀ c ∈ (toString i).toList, escapePropertyChar c = [c] := by
    intro c hc
    have hne : ∀ mark ∈ ['%', '\r', '\n', ':', ','], ¬ (c == mark) = true := by
      intro mark hmark
      rw [beq_iff_eq]
      exact Json.ne_of_signOrDigit (Json.signOrDigit_of_mem_intChars hc) (hmarks mark hmark)
    simp only [List.forall_mem_cons] at hne
    obtain ⟨hpercent, hreturn, hfeed, hcolon, hcomma, -⟩ := hne
    rw [escapePropertyChar, if_neg hcolon, if_neg hcomma, escapeMessageChar, if_neg hpercent,
      if_neg hreturn, if_neg hfeed]
  rw [escapeProperty, List.flatMap_congr hchar, List.flatMap_singleton', String.ofList_toList]

/-- Escaping a message is replacing one mark after the other, **the percent sign first**. -/
theorem escapeMessage_eq_replace (s : String) :
    (escapeMessage s).toList = Text.replaceMark '\n' "%0A"
      (Text.replaceMark '\r' "%0D" (Text.replaceMark '%' "%25" s.toList)) := by
  simp only [escapeMessage, Text.replaceMark, String.toList_ofList, List.flatMap_assoc]
  refine List.flatMap_congr fun c _ => ?_
  rw [escapeMessageChar]
  split
  · rfl
  · split
    · next h =>
      rw [eq_of_beq h]
      rfl
    · next hreturn =>
      rw [List.flatMap_singleton, if_neg hreturn, List.flatMap_singleton]

/-- Escaping a property is escaping a message and then replacing colons and commas. -/
theorem escapeProperty_eq_replace (s : String) :
    (escapeProperty s).toList = Text.replaceMark ',' "%2C"
      (Text.replaceMark ':' "%3A" (escapeMessage s).toList) := by
  have hchar : escapePropertyChar = fun c => Text.replaceMark ',' "%2C"
      (Text.replaceMark ':' "%3A" (escapeMessageChar c)) := by
    funext c
    rw [escapePropertyChar]
    split
    · next h =>
      rw [eq_of_beq h]
      rfl
    · next hcolon =>
      split
      · next h =>
        rw [eq_of_beq h]
        rfl
      · next hcomma =>
        have hother {mark : Char} (hmark : mark ∉ "%250DA".toList) (hc : ¬ (c == mark) = true) :
            mark ∉ escapeMessageChar c := by
          intro hmem
          rcases mem_escapeMessageChar hmem with hdigit | ⟨rfl, -⟩
          · exact hmark hdigit
          · exact hc (beq_self_eq_true mark)
        rw [Text.replaceMark_of_notMem (hother (by decide) hcolon),
          Text.replaceMark_of_notMem (hother (by decide) hcomma)]
  rw [escapeProperty, hchar]
  simp only [escapeMessage, String.toList_ofList, Text.replaceMark, List.flatMap_assoc]

/-! ### Escapes undone -/

/-- The character that two digits behind a percent sign stand for in a message. -/
def messageCode? : Char → Char → Option Char
  | '2', '5' => some '%'
  | '0', 'D' => some '\r'
  | '0', 'A' => some '\n'
  | _, _ => none

/-- The character that two digits behind a percent sign stand for in a property. -/
def propertyCode? : Char → Char → Option Char
  | '3', 'A' => some ':'
  | '2', 'C' => some ','
  | a, b => messageCode? a b

/-- Characters in which each percent sign with two known digits is what they stand for. -/
def decodeChars (code? : Char → Char → Option Char) : List Char → List Char
  | '%' :: a :: b :: rest =>
    match code? a b with
    | some c => c :: decodeChars code? rest
    | none => '%' :: decodeChars code? (a :: b :: rest)
  | c :: rest => c :: decodeChars code? rest
  | [] => []

/-- A message without its escapes. -/
def decodeMessage (s : String) : String := String.ofList (decodeChars messageCode? s.toList)

/-- A property without its escapes. -/
def decodeProperty (s : String) : String := String.ofList (decodeChars propertyCode? s.toList)

variable {code? : Char → Char → Option Char}

/-- Known digits are undone. -/
theorem decodeChars_code {a b c : Char} (h : code? a b = some c) (rest : List Char) :
    decodeChars code? ('%' :: a :: b :: rest) = c :: decodeChars code? rest := by
  rw [decodeChars, h]

/-- Any other character than a percent sign stands for itself. -/
theorem decodeChars_cons {c : Char} (hc : c ≠ '%') (rest : List Char) :
    decodeChars code? (c :: rest) = c :: decodeChars code? rest := by
  rw [decodeChars.eq_def]
  split
  · next heq =>
    obtain ⟨rfl, -⟩ := List.cons.inj heq
    exact absurd rfl hc
  · next heq =>
    obtain ⟨rfl, rfl⟩ := List.cons.inj heq
    rfl
  · next heq => cases heq

/-- An escaped character of a message is undone, whatever else can be. -/
theorem decodeChars_escapeMessageChar (hpercent : code? '2' '5' = some '%')
    (hreturn : code? '0' 'D' = some '\r') (hfeed : code? '0' 'A' = some '\n') (c : Char)
    (rest : List Char) :
    decodeChars code? (escapeMessageChar c ++ rest) = c :: decodeChars code? rest := by
  rw [escapeMessageChar]
  split
  · next h =>
    rw [eq_of_beq h]
    exact decodeChars_code hpercent rest
  · next hother =>
    split
    · next h =>
      rw [eq_of_beq h]
      exact decodeChars_code hreturn rest
    · split
      · next h =>
        rw [eq_of_beq h]
        exact decodeChars_code hfeed rest
      · exact decodeChars_cons (by simpa using hother) rest

/-- An escaped character of a property is undone. -/
theorem decodeChars_escapePropertyChar (c : Char) (rest : List Char) :
    decodeChars propertyCode? (escapePropertyChar c ++ rest) =
      c :: decodeChars propertyCode? rest := by
  rw [escapePropertyChar]
  split
  · next h =>
    rw [eq_of_beq h]
    exact decodeChars_code rfl rest
  · split
    · next h =>
      rw [eq_of_beq h]
      exact decodeChars_code rfl rest
    · exact decodeChars_escapeMessageChar rfl rfl rfl c rest

/-- Escapes are undone in a whole text when they are at each character. -/
theorem decodeChars_flatMap {escape : Char → List Char}
    (h : ∀ c rest, decodeChars code? (escape c ++ rest) = c :: decodeChars code? rest)
    (cs : List Char) : decodeChars code? (cs.flatMap escape) = cs := by
  induction cs with
  | nil => rfl
  | cons c cs ih => rw [List.flatMap_cons, h, ih]

/-- **The escapes of a message can be undone.** -/
theorem decodeMessage_escapeMessage (s : String) : decodeMessage (escapeMessage s) = s := by
  rw [decodeMessage, escapeMessage, String.toList_ofList,
    decodeChars_flatMap (decodeChars_escapeMessageChar rfl rfl rfl), String.ofList_toList]

/-- **The escapes of a property can be undone.** -/
theorem decodeProperty_escapeProperty (s : String) : decodeProperty (escapeProperty s) = s := by
  rw [decodeProperty, escapeProperty, String.toList_ofList,
    decodeChars_flatMap decodeChars_escapePropertyChar, String.ofList_toList]

/-! ### The parts of a line -/

/-- The parts of a line, as they stand in it: a level up to the first space, names with values
between commas, and what stands behind the next two colons. -/
def parts? (line : String) : Option WorkflowCommand := do
  let (start, rest) ← Text.cutAt? "::" line
  guard start.isEmpty
  let (header, message) ← Text.cutAt? "::" rest
  let (level, properties) ← Text.cutAt? " " header
  let properties ← (Text.splitAt ',' properties).mapM (Text.cutAt? "=")
  return ⟨level, properties, message⟩

/-- A command with its texts as they stand in its line. -/
def escaped (command : WorkflowCommand) : WorkflowCommand where
  level := command.level
  properties := command.properties.map fun (name, value) => (name, escapeProperty value)
  message := escapeMessage command.message

/-- Whether the fixed texts of a command hold none of the marks that end them. -/
structure IsPlain (command : WorkflowCommand) : Prop where
  level : ∀ mark ∈ [':', ' '], mark ∉ command.level.toList
  names : ∀ property ∈ command.properties, ∀ mark ∈ [':', ',', '='], mark ∉ property.1.toList
  properties : command.properties ≠ []

/-- A property as it stands in a line. -/
def propertyText (property : String × String) : String :=
  property.1 ++ "=" ++ escapeProperty property.2

/-- The line of a command, piece by piece. -/
theorem render_eq (command : WorkflowCommand) :
    command.render = "" ++ "::" ++ (command.level ++ " " ++
      ",".intercalate (command.properties.map propertyText) ++ "::" ++
        escapeMessage command.message) := by
  change "::" ++ command.level ++ " " ++ ",".intercalate (command.properties.map propertyText) ++
    "::" ++ escapeMessage command.message = _
  simp only [String.append_assoc, String.empty_append]

namespace IsPlain

variable {command : WorkflowCommand}

/-- A property holds no colon and no comma. -/
theorem notMem_propertyText (h : command.IsPlain) {property : String × String}
    (hproperty : property ∈ command.properties) {mark : Char} (hmark : mark ∈ [':', ',']) :
    mark ∉ (propertyText property).toList := by
  have hmarks : ∀ mark ∈ [':', ','], mark ∈ [':', ',', '='] ∧ mark ∉ "=".toList ∧
      mark ∈ ['\r', '\n', ':', ','] := by
    simp only [List.forall_mem_cons, List.not_mem_nil, false_imp_iff, implies_true]
    decide
  obtain ⟨hname, hequals, hvalue⟩ := hmarks mark hmark
  rw [propertyText, String.toList_append, String.toList_append, List.mem_append, List.mem_append,
    not_or, not_or]
  exact ⟨⟨h.names property hproperty mark hname, hequals⟩, notMem_escapeProperty hvalue _⟩

/-- What stands before the message holds no colon. -/
theorem notMem_header (h : command.IsPlain) :
    ':' ∉ (command.level ++ " " ++
      ",".intercalate (command.properties.map propertyText)).toList := by
  rw [String.toList_append, String.toList_append, List.mem_append, List.mem_append, not_or, not_or]
  refine ⟨⟨h.level ':' (by decide), by decide⟩, Text.notMem_intercalate (by decide) ?_⟩
  simp only [List.forall_mem_map]
  exact fun property hproperty => h.notMem_propertyText hproperty (by decide)

/-- The properties are cut at their first equals signs. -/
theorem mapM_cutAt? (h : command.IsPlain) :
    (command.properties.map propertyText).mapM (Text.cutAt? "=") =
      some command.escaped.properties := by
  have hnames : ∀ property ∈ command.properties, '=' ∉ property.1.toList :=
    fun property hproperty => h.names property hproperty '=' (by decide)
  rw [escaped]
  dsimp only
  generalize command.properties = properties at hnames
  induction properties with
  | nil => rfl
  | cons property rest ih =>
    rw [List.forall_mem_cons] at hnames
    have hcut : Text.cutAt? "=" (propertyText property) =
        some (property.1, escapeProperty property.2) := Text.cutAt?_append rfl hnames.1 _
    rw [List.map_cons, List.mapM_cons, hcut, ih hnames.2]
    rfl

/-- **The parts of a command are read back from its line**, if its fixed texts hold no marks. -/
theorem parts?_render (h : command.IsPlain) : parts? command.render = some command.escaped := by
  have hcommas : ∀ text ∈ command.properties.map propertyText, ',' ∉ text.toList := by
    simp only [List.forall_mem_map]
    exact fun property hproperty => h.notMem_propertyText hproperty (by decide)
  have hproperties : command.properties.map propertyText ≠ [] := by simpa using h.properties
  have hline : Text.cutAt? "::" command.render = some ("", command.level ++ " " ++
      ",".intercalate (command.properties.map propertyText) ++ "::" ++
        escapeMessage command.message) := by
    rw [render_eq]
    exact Text.cutAt?_append rfl (by decide) _
  have hheader := Text.cutAt?_append (show "::".toList = [':', ':'] from rfl) h.notMem_header
    (escapeMessage command.message)
  have hlevel := Text.cutAt?_append (show " ".toList = [' '] from rfl) (h.level ' ' (by decide))
    (",".intercalate (command.properties.map propertyText))
  have hpieces : Text.splitAt ',' (",".intercalate (command.properties.map propertyText)) =
      command.properties.map propertyText :=
    Text.splitAt_intercalate rfl hproperties hcommas
  simp only [parts?, Option.bind_eq_bind, hline, Option.bind_some, hheader, hlevel, hpieces,
    h.mapM_cutAt?]
  rfl

end IsPlain

end WorkflowCommand

namespace Issue

open WorkflowCommand

/-- The line of the command of an issue, piece by piece. -/
theorem commandLine_eq (issue : Issue) :
    issue.commandLine = "::" ++ issue.level.commandLevel ++ " " ++
      ("file=" ++ escapeProperty issue.file ++ ("," ++
        ("line=" ++ escapeProperty (toString issue.line) ++ ("," ++
          ("col=" ++ escapeProperty (toString issue.column)))))) ++ "::" ++
      escapeMessage (issue.ruleId ++ ": " ++ issue.message) := by
  rw [commandLine, render, command]
  simp only [List.map_cons, List.map_nil, String.intercalate_cons_cons,
    String.intercalate_singleton, String.append_assoc]
  rfl

/-- **The command of an issue is one line**: it holds neither of the characters that end one. -/
theorem notMem_commandLine {mark : Char} (hmark : mark ∈ ['\r', '\n']) (issue : Issue) :
    mark ∉ issue.commandLine.toList := by
  have hlevel : ∀ mark ∈ ['\r', '\n'], mark ∉ issue.level.commandLevel.toList := by
    simp only [List.forall_mem_cons, List.not_mem_nil, false_imp_iff, implies_true]
    cases issue.level <;> decide
  have hfixed : ∀ mark ∈ ['\r', '\n'], mark ∈ ['\r', '\n', ':', ','] ∧ mark ∉ "::".toList ∧
      mark ∉ " ".toList ∧ mark ∉ "file=".toList ∧ mark ∉ ",".toList ∧ mark ∉ "line=".toList ∧
      mark ∉ "col=".toList := by
    simp only [List.forall_mem_cons, List.not_mem_nil, false_imp_iff, implies_true]
    decide
  obtain ⟨hvalue, hcolons, hspace, hfile, hcomma, hline, hcolumn⟩ := hfixed mark hmark
  rw [commandLine_eq]
  simp only [String.toList_append, List.mem_append, not_or]
  exact ⟨⟨⟨⟨⟨hcolons, hlevel mark hmark⟩, hspace⟩, ⟨hfile, notMem_escapeProperty hvalue _⟩, hcomma,
    ⟨hline, notMem_escapeProperty hvalue _⟩, hcomma, hcolumn, notMem_escapeProperty hvalue _⟩,
    hcolons⟩, notMem_escapeMessage hmark _⟩

/-- The fixed texts of the command of an issue hold no marks. -/
theorem isPlain_command (issue : Issue) : issue.command.IsPlain where
  level := by
    change ∀ mark ∈ [':', ' '], mark ∉ issue.level.commandLevel.toList
    simp only [List.forall_mem_cons, List.not_mem_nil, false_imp_iff, implies_true]
    cases issue.level <;> decide
  names := by
    simp only [command, List.forall_mem_cons, List.not_mem_nil, false_imp_iff, implies_true]
    decide
  properties := List.cons_ne_nil _ _

/-- The level of the command of an issue is error where its severity is, and warning elsewhere. -/
theorem commandLevel_level (issue : Issue) :
    issue.level.commandLevel = if issue.severity = "error" then "error" else "warning" := by
  rw [level, Severity.ofText]
  by_cases herror : issue.severity = "error"
  · simp [herror, Severity.commandLevel]
  · rw [if_neg (by simpa using herror), if_neg herror]
    split <;> rfl

/-- The parts of the line of an issue. -/
theorem parts?_commandLine (issue : Issue) :
    parts? issue.commandLine = some {
      level := issue.level.commandLevel
      properties := [("file", escapeProperty issue.file), ("line", toString issue.line),
        ("col", toString issue.column)]
      message := escapeMessage (issue.ruleId ++ ": " ++ issue.message) } := by
  rw [commandLine, issue.isPlain_command.parts?_render, escaped, command]
  simp only [List.map_cons, List.map_nil, escapeProperty_intText]

/-- **The command of an issue is decoded to what it was made from.** Whatever an issue holds, its
command is one line. A reader that cuts the line at its marks finds the level, exactly the
properties file, line and column, and the message; the file and the message without their escapes
are those of the issue, and the other two are its numbers in decimal. So two issues have the same
command exactly when all of these are the same. -/
theorem commandLine_decodes (issue : Issue) :
    '\r' ∉ issue.commandLine.toList ∧ '\n' ∉ issue.commandLine.toList ∧
    (∃ file line column message,
      parts? issue.commandLine = some {
        level := if issue.severity = "error" then "error" else "warning"
        properties := [("file", file), ("line", line), ("col", column)]
        message := message } ∧
      decodeProperty file = issue.file ∧
      line = toString issue.line ∧ column = toString issue.column ∧
      decodeMessage message = issue.ruleId ++ ": " ++ issue.message) ∧
    ∀ other : Issue, other.commandLine = issue.commandLine ↔
      other.level.commandLevel = issue.level.commandLevel ∧ other.file = issue.file ∧
      other.line = issue.line ∧ other.column = issue.column ∧
      other.ruleId ++ ": " ++ other.message = issue.ruleId ++ ": " ++ issue.message := by
  refine ⟨issue.notMem_commandLine (by decide), issue.notMem_commandLine (by decide),
    ⟨_, _, _, _, ?_, decodeProperty_escapeProperty _, rfl, rfl, decodeMessage_escapeMessage _⟩,
    fun other => ⟨fun h => ?_, ?_⟩⟩
  · rw [parts?_commandLine, commandLevel_level]
  · have hparts := other.parts?_commandLine
    rw [h, parts?_commandLine] at hparts
    simp only [Option.some.injEq, WorkflowCommand.mk.injEq, List.cons.injEq, Prod.mk.injEq,
      true_and, and_true] at hparts
    obtain ⟨hlevel, ⟨hfile, hline, hcolumn⟩, htext⟩ := hparts
    refine ⟨hlevel.symm, ?_, ?_, ?_, ?_⟩
    · rw [← decodeProperty_escapeProperty other.file, ← hfile, decodeProperty_escapeProperty]
    · exact Json.eq_of_intChars_eq (congrArg String.toList hline.symm)
    · exact Json.eq_of_intChars_eq (congrArg String.toList hcolumn.symm)
    · rw [← decodeMessage_escapeMessage (other.ruleId ++ ": " ++ other.message), ← htext,
        decodeMessage_escapeMessage]
  · rintro ⟨hlevel, hfile, hline, hcolumn, htext⟩
    rw [commandLine_eq, commandLine_eq, hlevel, hfile, hline, hcolumn, htext]

end Issue

end LintReport
