import LintReport.Proofs.Json.Integer
import LintReport.Yaml.Display

/-!
# First Characters

A plain text that begins with a slash is a string: numbers, dates and the words for other values
begin otherwise. The other way round, what a value other than a string is shown as begins with a
digit, a sign, a bracket or one of a few letters. So a text that begins with none of these is never
what another value is shown as.

## Main definitions

* `isValueStart`: the characters with which other values than strings are shown.

## Main results

* `Tag.ofPlain_slash`: **a text that begins with a slash is a string**.
* `Value.beginsAsValue_text?`: **what another value is shown as** begins in one of few ways.
-/

namespace LintReport.Yaml

/-! ### Forms -/

namespace Tag

variable {rest : List Char}

theorem isBoolForm_slash : isBoolForm ('/' :: rest) = false := by
  simp [isBoolForm, boolWords, spellings]

theorem isFloatForm_slash : isFloatForm ('/' :: rest) = false := by
  simp [isFloatForm, afterSign, isDecimalForm, leadingDigits?]

theorem isIntForm_slash : isIntForm ('/' :: rest) = false := by
  simp [isIntForm, afterSign, leadingDigits?]

theorem isNullForm_slash : isNullForm ('/' :: rest) = false := by
  simp [isNullForm, spellings]

theorem isTimestampForm_slash : isTimestampForm ('/' :: rest) = false := by
  simp [isTimestampForm, Timestamp.read?, readDigits?]

/-- A line feed at the end is not the first character. -/
theorem head?_withoutFinalBreak {cs : List Char} : (withoutFinalBreak cs).head? = cs.head? := by
  rw [withoutFinalBreak]
  split
  · next h =>
    rw [Bool.and_eq_true, decide_eq_true_eq] at h
    cases cs with
    | nil => rfl
    | cons c rest =>
      cases rest with
      | nil => exact absurd h.2 (Nat.lt_irrefl 1)
      | cons d rest => rfl
  · rfl

/-- **A text that begins with a slash is a string.** -/
theorem ofPlain_slash {s : String} (h : s.toList.head? = some '/') : ofPlain s = .str := by
  obtain ⟨rest, hcs⟩ : ∃ rest, withoutFinalBreak s.toList = '/' :: rest :=
    List.head?_eq_some_iff.1 (head?_withoutFinalBreak.trans h)
  rw [ofPlain, hcs, isBoolForm_slash, isFloatForm_slash, isIntForm_slash, isNullForm_slash,
    isTimestampForm_slash]
  simp

end Tag

/-! ### Values -/

/-- The characters with which values begin that are no strings, where they are shown as text. -/
def isValueStart (c : Char) : Bool :=
  c.isDigit || ['-', 'N', 'T', 'F', 'i', 'n', 'b', 's', '[', '(', '\x7b'].contains c

/-- Whether characters begin as a value does that is no string, or are none at all. -/
def BeginsAsValue (cs : List Char) : Prop := ∀ c ∈ cs.head?, isValueStart c = true

namespace BeginsAsValue

theorem cons {c : Char} {rest : List Char} (h : isValueStart c = true) :
    BeginsAsValue (c :: rest) := by
  intro d hd
  rwa [← Option.some.inj hd]

theorem append {cs rest : List Char} (h : BeginsAsValue cs) (hne : cs ≠ []) :
    BeginsAsValue (cs ++ rest) := by
  obtain ⟨c, cs, rfl⟩ := List.exists_cons_of_ne_nil hne
  exact h

theorem of_isDigit {c : Char} {rest : List Char} (h : c.isDigit = true) :
    BeginsAsValue (c :: rest) :=
  cons (by rw [isValueStart, h, Bool.true_or])

/-- Characters that begin with a digit, perhaps behind a sign. -/
theorem signed {negative : Bool} {cs : List Char} (h : BeginsAsValue cs) :
    BeginsAsValue ((if negative then ['-'] else []) ++ cs) := by
  cases negative with
  | false => exact h
  | true => exact cons (by decide)

end BeginsAsValue

theorem beginsAsValue_digits (n : Nat) : BeginsAsValue (Nat.toDigits 10 n) := by
  obtain ⟨d, ds, hds, hdigit⟩ := Json.exists_digits_cons n
  rw [hds]
  exact BeginsAsValue.of_isDigit hdigit

theorem beginsAsValue_int (i : Int) : BeginsAsValue (toString i).toList := by
  rw [Json.intChars_eq]
  split
  · exact BeginsAsValue.cons (by decide)
  · exact beginsAsValue_digits _

/-- A number is shown with a digit first where its digits are. -/
theorem beginsAsValue_padded (width n : Nat) : BeginsAsValue (Binary64.padded width n) := by
  rw [Binary64.padded]
  cases width - (Nat.toDigits 10 n).length with
  | zero => exact beginsAsValue_digits n
  | succ k => exact BeginsAsValue.cons (by decide)

theorem padded_ne_nil (width n : Nat) : Binary64.padded width n ≠ [] :=
  List.append_ne_nil_of_right_ne_nil _ Nat.toDigits_ne_nil

/-- A date begins with its year. -/
theorem beginsAsValue_timestamp (t : Timestamp) : BeginsAsValue t.text.toList := by
  obtain ⟨rest, hrest⟩ : ∃ rest, t.text.toList = Binary64.padded 4 t.year ++ rest := by
    rw [Timestamp.text]
    split <;>
      simp only [Timestamp.dateText, paddedText, String.toList_append, String.toList_ofList,
        List.append_assoc] <;>
      exact ⟨_, rfl⟩
  rw [hrest]
  exact (beginsAsValue_padded 4 t.year).append (padded_ne_nil 4 t.year)

theorem beginsAsValue_bool (b : Bool) : BeginsAsValue (Text.boolWord b).toList := by
  cases b with
  | false => exact BeginsAsValue.cons (by decide : isValueStart 'F' = true)
  | true => exact BeginsAsValue.cons (by decide : isValueStart 'T' = true)

theorem beginsAsValue_bytes (octets : List UInt8) :
    BeginsAsValue (Text.quoteBytes octets).toList := by
  change BeginsAsValue (String.ofList ('b' :: _)).toList
  rw [String.toList_ofList]
  exact BeginsAsValue.cons (by decide)

/-! ### Numbers in binary64 -/

/-- The first digit of a decimal is a digit. -/
theorem exists_digits_ofScaled (digits : Nat) (power : Int) :
    ∃ d ds, (Binary64.Decimal.ofScaled digits power).digits = d :: ds ∧ d.isDigit = true := by
  rw [Binary64.Decimal.ofScaled]
  dsimp only
  split
  · exact ⟨'0', [], rfl, by decide⟩
  · next hkept =>
    obtain ⟨d, ds, hds⟩ := List.exists_cons_of_ne_nil
      fun h => hkept (List.isEmpty_iff.2 h)
    refine ⟨d, ds, hds, ?_⟩
    have hmem : d ∈ ((Nat.toDigits 10 digits).reverse.dropWhile (· == '0')).reverse := by
      rw [hds]
      exact List.mem_cons_self
    rw [List.mem_reverse] at hmem
    exact Json.isDigit_of_mem_digits (List.mem_reverse.1 ((List.dropWhile_sublist _).subset hmem))

section Layout

variable {layout : Binary64.Layout} {d : Binary64.Decimal} {c : Char} {cs : List Char}

theorem beginsAsValue_plainDigits (h : d.digits = c :: cs) (hdigit : c.isDigit = true) :
    BeginsAsValue (Binary64.plainDigits d) := by
  rw [Binary64.plainDigits, h]
  split
  · exact BeginsAsValue.cons (by decide)
  · next hpoint =>
    obtain ⟨n, hn⟩ : ∃ n, d.point.toNat = n + 1 := ⟨d.point.toNat - 1, by omega⟩
    dsimp only
    split
    · exact BeginsAsValue.of_isDigit hdigit
    · rw [hn]
      exact BeginsAsValue.of_isDigit hdigit

theorem beginsAsValue_exponentDigits (h : d.digits = c :: cs) (hdigit : c.isDigit = true) :
    BeginsAsValue (Binary64.exponentDigits layout d) := by
  rw [Binary64.exponentDigits, h]
  cases cs with
  | nil => exact BeginsAsValue.of_isDigit hdigit
  | cons e cs => exact BeginsAsValue.of_isDigit hdigit

end Layout

theorem beginsAsValue_float (x : Binary64) :
    BeginsAsValue (x.toText Binary64.Layout.plain).toList := by
  rw [Binary64.toText, String.toList_ofList]
  cases x with
  | nan => exact BeginsAsValue.cons (by decide : isValueStart 'n' = true)
  | infinity s =>
    exact BeginsAsValue.signed (BeginsAsValue.cons (by decide : isValueStart 'i' = true))
  | finite s m e =>
    refine BeginsAsValue.signed ?_
    obtain ⟨c, cs, hdigits, hdigit⟩ : ∃ c cs,
        (Binary64.shortest m e).digits = c :: cs ∧ c.isDigit = true :=
      exists_digits_ofScaled _ _
    split
    · exact BeginsAsValue.cons (by decide)
    · dsimp only
      split
      · exact beginsAsValue_plainDigits hdigits hdigit
      · exact beginsAsValue_exponentDigits hdigits hdigit

/-- A scalar that is no string is shown as a value. -/
theorem Scalar.beginsAsValue_text? {s : Scalar} {shown : String} (h : ∀ text, s ≠ .str text)
    (hshown : s.text? = some shown) : BeginsAsValue shown.toList := by
  cases s with
  | null =>
    obtain rfl := Option.some.inj hshown
    exact BeginsAsValue.cons (by decide : isValueStart 'N' = true)
  | bool b =>
    obtain rfl := Option.some.inj hshown
    exact beginsAsValue_bool b
  | int i =>
    rw [Scalar.text?, Scalar.quoted?] at hshown
    · split at hshown
      · obtain rfl := Option.some.inj hshown
        exact beginsAsValue_int i
      · cases hshown
    all_goals
      intro _ hother
      cases hother
  | float x =>
    obtain rfl := Option.some.inj hshown
    exact beginsAsValue_float x
  | str text => exact absurd rfl (h text)
  | bytes octets =>
    obtain rfl := Option.some.inj hshown
    exact beginsAsValue_bytes octets
  | timestamp t =>
    obtain rfl := Option.some.inj hshown
    exact beginsAsValue_timestamp t

/-- Only integers with too many digits cannot be shown. -/
theorem Scalar.text?_eq_none_iff {s : Scalar} :
    s.text? = none ↔ ∃ i, s = .int i ∧ Numeral.isShort i = false := by
  cases s with
  | int i => simp [Scalar.text?, Scalar.quoted?]
  | _ => simp [Scalar.text?, Scalar.quoted?]

theorem beginsAsValue_listText (items : List String) :
    BeginsAsValue (Text.listText items).toList := by
  rw [Text.listText, String.append_assoc, String.toList_append]
  exact BeginsAsValue.cons (by decide : isValueStart '[' = true)

theorem beginsAsValue_mapText (members : List (String × String)) :
    BeginsAsValue (Text.mapText members).toList := by
  rw [Text.mapText, String.append_assoc, String.toList_append]
  exact BeginsAsValue.cons (by decide : isValueStart '\x7b' = true)

theorem beginsAsValue_setText (members : List String) :
    BeginsAsValue (Text.setText members).toList := by
  rw [Text.setText]
  split
  · exact BeginsAsValue.cons (by decide : isValueStart 's' = true)
  · rw [String.append_assoc, String.toList_append]
    exact BeginsAsValue.cons (by decide : isValueStart '\x7b' = true)

theorem beginsAsValue_pairText (a b : String) : BeginsAsValue (Text.pairText a b).toList := by
  rw [Text.pairText, String.append_assoc, String.append_assoc, String.append_assoc,
    String.toList_append]
  exact BeginsAsValue.cons (by decide : isValueStart '(' = true)

/-- **What another value than a string is shown as** begins in one of few ways. -/
theorem Value.beginsAsValue_text? {v : Value} {id : NodeId} {shown : String}
    (h : v.str? id = none) (hshown : v.text? id = some shown) : BeginsAsValue shown.toList := by
  rw [Value.text?] at hshown
  split at hshown
  · next s hs =>
    refine Scalar.beginsAsValue_text? (fun text htext => ?_) hshown
    rw [Value.str?, hs, htext] at h
    cases h
  next hother =>
  rw [Value.quoted?, Value.quotedWithin?] at hshown
  simp only [List.contains_nil, Bool.false_eq_true, if_false] at hshown
  split at hshown
  · obtain rfl := Option.some.inj hshown
    exact fun c hc => absurd hc (by simp)
  · next s hs => exact absurd hs (hother s)
  all_goals obtain ⟨parts, -, rfl⟩ := Option.map_eq_some_iff.1 hshown
  · exact beginsAsValue_listText _
  · exact beginsAsValue_listText _
  · exact beginsAsValue_mapText _
  · exact beginsAsValue_setText _

end LintReport.Yaml
