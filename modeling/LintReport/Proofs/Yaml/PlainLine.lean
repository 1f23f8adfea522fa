import LintReport.Yaml.Token.Plain
import Mathlib.Tactic.Common

/-!
# Plain Scalars on One Line

A text without marks of its own, written on one line, is read as one plain scalar: as whole as it
was written, with the spaces between its words. It ends with the line if the next line is not
indented as deep as the scalar would have to be.

## Main definitions

* `PlainWord`: characters without a blank that stay together.
* `PlainLine`: words with spaces between them.
* `isPlainChar`: characters that are never a mark.

## Main results

* `Cursor.drop_append`, `Cursor.span_append`: places after characters that stay on a line.
* `plainRun_append`: a word is one run.
* `PlainLine.of_chars`: plain characters and spaces make a plain line.
* `PlainLine.plainScalar_eq`: **a plain line is one plain scalar**.
-/

namespace LintReport.Yaml

/-! ### Places on a line -/

/-- A character that takes one column and leaves the line as it is. -/
def isInline (c : Char) : Bool := !isBreak c && c != '\uFEFF'

namespace Cursor

variable {cs rest : List Char} {index line column : Nat} {p : Char → Bool}

theorem advance_cons {c : Char} (h : isInline c = true) :
    (⟨c :: rest, index, line, column⟩ : Cursor).advance = ⟨rest, index + 1, line, column + 1⟩ := by
  rw [isInline, Bool.and_eq_true, Bool.not_eq_true', bne_iff_ne] at h
  simp [advance, h.1, h.2]

/-- **The place after characters that stay on the line.** -/
theorem drop_append (h : ∀ c ∈ cs, isInline c = true) :
    (⟨cs ++ rest, index, line, column⟩ : Cursor).drop cs.length =
      ⟨rest, index + cs.length, line, column + cs.length⟩ := by
  induction cs generalizing index column with
  | nil => rfl
  | cons c cs ih =>
    rw [List.forall_mem_cons] at h
    rw [List.length_cons, drop, List.cons_append, advance_cons h.1, ih h.2, Nat.add_right_comm,
      Nat.add_right_comm column, Nat.add_assoc, Nat.add_assoc column]

/-- **Characters of a class up to the first that is none of them.** -/
theorem span_append (h : ∀ c ∈ cs, isInline c = true) (hclass : ∀ c ∈ cs, p c = true)
    (hrest : ∀ c ∈ rest.head?, p c = false) :
    (⟨cs ++ rest, index, line, column⟩ : Cursor).span p =
      (cs, ⟨rest, index + cs.length, line, column + cs.length⟩) := by
  have htaken : (cs ++ rest).takeWhile p = cs := by
    rw [List.takeWhile_append_of_pos hclass]
    cases rest with
    | nil => rw [List.takeWhile_nil, List.append_nil]
    | cons c rest =>
      rw [List.takeWhile_cons_of_neg (by simpa using hrest c rfl), List.append_nil]
  rw [span, htaken, drop_append h]

theorem skipSpaces_append (h : ∀ c ∈ cs, c = ' ') (hrest : rest.head? ≠ some ' ') :
    (⟨cs ++ rest, index, line, column⟩ : Cursor).skipSpaces =
      ⟨rest, index + cs.length, line, column + cs.length⟩ := by
  rw [skipSpaces, skip, span_append]
  · intro c hc
    rw [h c hc]
    decide
  · intro c hc
    simp [h c hc]
  · intro c hc
    rw [beq_eq_false_iff_ne]
    rintro rfl
    exact hrest hc

/-- A line feed ends the line. -/
theorem lineBreak?_feed :
    (⟨'\n' :: rest, index, line, column⟩ : Cursor).lineBreak? =
      some ('\n', ⟨rest, index + 1, line + 1, 0⟩) := by
  rfl

/-- What is no break ends no line. -/
theorem lineBreak?_of_head (h : ∀ c ∈ rest.head?, isBreak c = false) :
    (⟨rest, index, line, column⟩ : Cursor).lineBreak? = none := by
  cases rest with
  | nil => rfl
  | cons c rest =>
    have hc := h c rfl
    have hreturn : c ≠ '\r' := by
      rintro rfl
      exact absurd hc (by decide)
    have hfeed : c ≠ '\n' := by
      rintro rfl
      exact absurd hc (by decide)
    have hnext : c.toNat ≠ 0x85 := by
      intro hcode
      simp [isBreak, hcode] at hc
    simp [lineBreak?, hreturn, hfeed, hnext, hc]

/-- An indented line is no separator of documents, nor is the end of the text. -/
theorem not_atSeparator (h : ∀ c ∈ rest.head?, c = ' ') :
    (⟨rest, index, line, column⟩ : Cursor).atSeparator = false := by
  cases rest with
  | nil => rfl
  | cons c rest =>
    rw [h c rfl]
    rfl

end Cursor

/-! ### Words -/

/-- Whether characters stay together in a plain scalar: none is a blank, and a colon stands beside no
blank. -/
structure PlainWord (cs : List Char) : Prop where
  ne_nil : cs ≠ []
  inline : ∀ c ∈ cs, isInline c = true
  together : plainRun false (cs ++ [' ']) = cs

/-- A word is read up to the blank behind it. -/
theorem plainRun_append {cs : List Char} (h : plainRun false (cs ++ [' ']) = cs) {gap : Char}
    (hgap : isGap gap = true) (rest : List Char) : plainRun false (cs ++ gap :: rest) = cs := by
  induction cs with
  | nil => simp [plainRun, endsPlain, hgap]
  | cons c cs ih =>
    have hnext : isGap ((cs ++ gap :: rest).headD endMark) =
        isGap ((cs ++ [' ']).headD endMark) := by
      cases cs with
      | nil =>
        rw [List.nil_append, List.headD_cons, hgap]
        rfl
      | cons d cs => rfl
    rw [List.cons_append, plainRun] at h ⊢
    simp only [endsPlain, Bool.false_and, Bool.or_false, hnext] at h ⊢
    split at h
    · cases h
    · next hstays =>
      rw [if_neg hstays, ih (List.cons.inj h).2]

/-- **Words with spaces between them**, of which none but the first may begin with a number sign. -/
inductive PlainLine : List Char → Prop
  | word {cs : List Char} : PlainWord cs → PlainLine cs
  | more {cs spaces rest : List Char} : PlainWord cs → spaces ≠ [] → (∀ c ∈ spaces, c = ' ') →
    rest.head? ≠ some '#' → PlainLine rest → PlainLine (cs ++ (spaces ++ rest))

/-- What begins with a word begins as the word does. -/
theorem head?_append_word {cs : List Char} (h : cs ≠ []) (rest : List Char) :
    (cs ++ rest).head? = cs.head? := by
  obtain ⟨c, cs, rfl⟩ := List.exists_cons_of_ne_nil h
  rfl

namespace PlainWord

variable {cs : List Char}

/-- A word does not begin with a blank. -/
theorem head_notGap (h : PlainWord cs) : ∀ c ∈ cs.head?, isGap c = false := by
  intro c hc
  obtain ⟨rest, rfl⟩ : ∃ rest, cs = c :: rest := by
    cases cs with
    | nil => cases hc
    | cons d rest => exact ⟨rest, by rw [Option.some.inj hc]⟩
  have htogether := h.together
  rw [List.cons_append, plainRun] at htogether
  split at htogether
  · cases htogether
  · next hstays =>
    rw [endsPlain, Bool.or_eq_true, Bool.or_eq_true, not_or, not_or] at hstays
    exact Bool.eq_false_iff.2 hstays.1.1

end PlainWord

/-! ### Lines -/

namespace PlainLine

variable {cs : List Char}

theorem head_notGap (h : PlainLine cs) : ∀ c ∈ cs.head?, isGap c = false := by
  cases h with
  | word hword => exact hword.head_notGap
  | more hword =>
    rw [head?_append_word hword.ne_nil]
    exact hword.head_notGap

theorem ne_nil (h : PlainLine cs) : cs ≠ [] := by
  cases h with
  | word hword => exact hword.ne_nil
  | more hword => exact List.append_ne_nil_of_left_ne_nil hword.ne_nil _

theorem inline (h : PlainLine cs) : ∀ c ∈ cs, isInline c = true := by
  induction h with
  | word hword => exact hword.inline
  | more hword _ hspaces _ _ ih =>
    intro c hc
    rw [List.mem_append, List.mem_append] at hc
    obtain hc | hc | hc := hc
    · exact hword.inline c hc
    · rw [hspaces c hc]
      decide
    · exact ih c hc

end PlainLine

/-! ### Lines from characters -/

/-- Whether a character stands for itself wherever it is in a plain line. -/
def isPlainChar (c : Char) : Bool := isInline c && !isGap c && c != ':' && c != '#'

theorem isPlainChar_iff {c : Char} :
    isPlainChar c = true ↔ isInline c = true ∧ isGap c = false ∧ c ≠ ':' ∧ c ≠ '#' := by
  simp [isPlainChar, and_assoc]

namespace PlainWord

variable {cs : List Char} {c : Char}

theorem together_cons (hc : isPlainChar c = true) (h : plainRun false (cs ++ [' ']) = cs) :
    plainRun false (c :: cs ++ [' ']) = c :: cs := by
  obtain ⟨-, hgap, hcolon, -⟩ := isPlainChar_iff.1 hc
  rw [List.cons_append, plainRun, if_neg (by simp [endsPlain, hgap, hcolon]), h]

/-- Such a character is a word. -/
theorem singleton (hc : isPlainChar c = true) : PlainWord [c] :=
  ⟨List.cons_ne_nil c [], List.forall_mem_singleton.2 (isPlainChar_iff.1 hc).1,
    together_cons hc rfl⟩

/-- A word goes on in front with such a character. -/
theorem cons (hc : isPlainChar c = true) (h : PlainWord cs) : PlainWord (c :: cs) :=
  ⟨List.cons_ne_nil c cs, List.forall_mem_cons.2 ⟨(isPlainChar_iff.1 hc).1, h.inline⟩,
    together_cons hc h.together⟩

end PlainWord

namespace PlainLine

variable {cs : List Char} {c : Char}

/-- A line goes on in front with a character of its first word. -/
theorem cons (hc : isPlainChar c = true) (h : PlainLine cs) : PlainLine (c :: cs) := by
  cases h with
  | word h => exact .word (h.cons hc)
  | more h hne hspaces hsign hrest => exact .more (h.cons hc) hne hspaces hsign hrest

/-- Spaces and characters that stand for themselves are a line behind some spaces, unless they end
in a space. -/
theorem exists_spaces_append (hne : cs ≠ [])
    (hchars : ∀ c ∈ cs, isPlainChar c = true ∨ c = ' ') (hlast : cs.getLast? ≠ some ' ') :
    ∃ spaces line, cs = spaces ++ line ∧ (∀ c ∈ spaces, c = ' ') ∧ PlainLine line ∧
      line.head? ≠ some '#' := by
  induction cs with
  | nil => exact absurd rfl hne
  | cons c cs ih =>
    rw [List.forall_mem_cons] at hchars
    have hsign (h : isPlainChar c = true) (rest : List Char) : (c :: rest).head? ≠ some '#' :=
      fun hhead => (isPlainChar_iff.1 h).2.2.2 (Option.some.inj hhead)
    by_cases hnil : cs = []
    · subst hnil
      have hc : isPlainChar c = true := hchars.1.resolve_right fun h => hlast (by rw [h]; rfl)
      exact ⟨[], [c], rfl, List.forall_mem_nil _, .word (.singleton hc), hsign hc []⟩
    · obtain ⟨spaces, line, rfl, hspaces, hline, hhead⟩ := ih hnil hchars.2 (by
        obtain ⟨d, rest, rfl⟩ := List.exists_cons_of_ne_nil hnil
        exact hlast)
      obtain hc | rfl := hchars.1
      · refine ⟨[], _, rfl, List.forall_mem_nil _, ?_, hsign hc _⟩
        cases spaces with
        | nil => exact cons hc hline
        | cons d spaces =>
          exact .more (.singleton hc) (List.cons_ne_nil d spaces) hspaces hhead hline
      · exact ⟨' ' :: spaces, line, rfl, List.forall_mem_cons.2 ⟨rfl, hspaces⟩, hline, hhead⟩

/-- **Spaces and characters that stand for themselves are a plain line**, unless they begin or end
with a space. -/
theorem of_chars (hne : cs ≠ []) (hchars : ∀ c ∈ cs, isPlainChar c = true ∨ c = ' ')
    (hhead : cs.head? ≠ some ' ')
    (hlast : cs.getLast? ≠ some ' ') : PlainLine cs := by
  obtain ⟨spaces, line, rfl, hspaces, hline, -⟩ := exists_spaces_append hne hchars hlast
  cases spaces with
  | nil => exact hline
  | cons c spaces => exact absurd (by rw [hspaces c List.mem_cons_self]; rfl) hhead

end PlainLine

theorem isBreak_of_notGap {c : Char} (h : isGap c = false) : isBreak c = false := by
  simp only [isGap, isSpaceOrEnd, isLineEnd, Bool.or_eq_false_iff] at h
  exact h.2.2.2

section Scalar

variable {index line column : Nat} {spaces rest : List Char}

/-- Spaces before a word are what stands between two runs. -/
theorem plainGap_spaces (hspaces : ∀ c ∈ spaces, c = ' ')
    (hrest : ∀ c ∈ rest.head?, isGap c = false) :
    plainGap ⟨spaces ++ rest, index, line, column⟩ =
      ⟨spaces, false, ⟨rest, index + spaces.length, line, column + spaces.length⟩⟩ := by
  have hspan : (⟨spaces ++ rest, index, line, column⟩ : Cursor).span (· == ' ') =
      (spaces, ⟨rest, index + spaces.length, line, column + spaces.length⟩) := by
    refine Cursor.span_append ?_ (fun c hc => by simp [hspaces c hc]) fun c hc => ?_
    · intro c hc
      rw [hspaces c hc]
      decide
    · rw [beq_eq_false_iff_ne]
      rintro rfl
      exact absurd (hrest ' ' hc) (by decide)
  rw [plainGap, hspan]
  dsimp only
  rw [Cursor.lineBreak?_of_head fun c hc => isBreak_of_notGap (hrest c hc)]

/-- A line break before an indented line counts as a space. -/
theorem plainGap_feed (hspaces : ∀ c ∈ spaces, c = ' ') (hrest : ∀ c ∈ rest.head?, isGap c = false)
    (hindented : spaces = [] → rest = []) :
    plainGap ⟨'\n' :: (spaces ++ rest), index, line, column⟩ =
      ⟨[' '], true, ⟨rest, index + 1 + spaces.length, line + 1, spaces.length⟩⟩ := by
  have hseparator : (⟨spaces ++ rest, index + 1, line + 1, 0⟩ : Cursor).atSeparator = false := by
    refine Cursor.not_atSeparator fun c hc => ?_
    cases spaces with
    | nil =>
      rw [hindented rfl] at hc
      cases hc
    | cons d spaces =>
      obtain rfl : d = c := Option.some.inj hc
      exact hspaces d List.mem_cons_self
  have hskip : (⟨spaces ++ rest, index + 1, line + 1, 0⟩ : Cursor).skipSpaces =
      ⟨rest, index + 1 + spaces.length, line + 1, 0 + spaces.length⟩ := by
    refine Cursor.skipSpaces_append hspaces fun hspace => ?_
    exact absurd (hrest ' ' hspace) (by decide)
  rw [Nat.zero_add] at hskip
  have hspan : (⟨'\n' :: (spaces ++ rest), index, line, column⟩ : Cursor).span (· == ' ') =
      ([], ⟨'\n' :: (spaces ++ rest), index, line, column⟩) := rfl
  rw [plainGap, hspan]
  dsimp only
  rw [Cursor.lineBreak?_feed]
  dsimp only
  rw [hseparator, if_neg Bool.false_ne_true, emptyLines, hskip,
    Cursor.lineBreak?_of_head fun c hc => isBreak_of_notGap (hrest c hc)]
  rfl

/-- No number sign is seen where none stands. -/
theorem peek_ne_sign (hsign : rest.head? ≠ some '#') :
    ((⟨rest, index, line, column⟩ : Cursor).peek == '#') = false := by
  rw [beq_eq_false_iff_ne]
  cases rest with
  | nil => exact (by decide : endMark ≠ '#')
  | cons c rest =>
    rintro rfl
    exact hsign rfl

/-- The rest of a plain scalar on a line is the rest of the line. -/
theorem PlainLine.plainRest_eq {cs : List Char} {indent : Int} (h : PlainLine cs)
    (hsign : cs.head? ≠ some '#') (hspaces : ∀ c ∈ spaces, c = ' ')
    (hrest : ∀ c ∈ rest.head?, isGap c = false) (hindented : spaces = [] → rest = [])
    (hshallow : (spaces.length : Int) < indent) (hindent : indent ≤ column) {budget : Nat}
    (hbudget : cs.length ≤ budget) (done gap : List Char) (broken : Bool) :
    plainRest false indent budget done gap broken
        ⟨cs ++ '\n' :: (spaces ++ rest), index, line, column⟩ =
      ⟨done ++ gap ++ cs, true,
        ⟨rest, index + cs.length + 1 + spaces.length, line + 1, spaces.length⟩⟩ := by
  induction h generalizing index column budget done gap broken with
  | @word cs hword =>
    have hpositive := List.length_pos_iff.2 hword.ne_nil
    obtain ⟨budget, rfl⟩ : ∃ b, budget = b + 1 := ⟨budget - 1, by omega⟩
    rw [plainRest, peek_ne_sign (by rwa [head?_append_word hword.ne_nil]), if_neg Bool.false_ne_true]
    dsimp only
    rw [plainRun_append hword.together (by decide), List.isEmpty_eq_false_iff.2 hword.ne_nil,
      if_neg Bool.false_ne_true, Cursor.drop_append hword.inline,
      plainGap_feed hspaces hrest hindented]
    simp [hshallow]
  | @more cs between tail hword hne hbetween htail hline ih =>
    have hpositive := List.length_pos_iff.2 hword.ne_nil
    obtain ⟨budget, rfl⟩ : ∃ b, budget = b + 1 := ⟨budget - 1, by
      rw [List.length_append] at hbudget
      omega⟩
    obtain ⟨c, between, rfl⟩ := List.exists_cons_of_ne_nil hne
    obtain rfl : c = ' ' := hbetween c List.mem_cons_self
    rw [head?_append_word hword.ne_nil] at hsign
    have hhead : ∀ c ∈ (tail ++ '\n' :: (spaces ++ rest)).head?, isGap c = false := by
      rw [head?_append_word hline.ne_nil]
      exact hline.head_notGap
    have hdeep : decide (((column + cs.length + (' ' :: between).length : Nat) : Int) < indent) =
        false := by
      rw [decide_eq_false_iff_not]
      omega
    rw [List.append_assoc, List.append_assoc, plainRest,
      peek_ne_sign (by rwa [head?_append_word hword.ne_nil]), if_neg Bool.false_ne_true]
    dsimp only
    rw [List.cons_append, plainRun_append hword.together (by decide),
      List.isEmpty_eq_false_iff.2 hword.ne_nil, if_neg Bool.false_ne_true,
      Cursor.drop_append hword.inline, ← List.cons_append, plainGap_spaces hbetween hhead]
    dsimp only
    rw [peek_ne_sign (by rwa [head?_append_word hline.ne_nil]), hdeep, List.isEmpty_cons,
      Bool.false_or, Bool.and_false, Bool.false_or, if_neg Bool.false_ne_true, ih htail (by omega)]
    · simp only [List.append_assoc, List.length_append, PlainScalar.mk.injEq, Cursor.mk.injEq,
        true_and, and_true]
      omega
    · simp only [List.length_append, List.length_cons] at hbudget
      omega

/-- **A plain line is one plain scalar**, which ends with the line if the next one is not indented
as deep as the scalar would have to be. -/
theorem PlainLine.plainScalar_eq {cs : List Char} {indent : Int} (h : PlainLine cs)
    (hsign : cs.head? ≠ some '#') (hspaces : ∀ c ∈ spaces, c = ' ')
    (hrest : ∀ c ∈ rest.head?, isGap c = false) (hindented : spaces = [] → rest = [])
    (hshallow : (spaces.length : Int) < indent) (hindent : indent ≤ column) :
    plainScalar false indent ⟨cs ++ '\n' :: (spaces ++ rest), index, line, column⟩ =
      ⟨cs, true, ⟨rest, index + cs.length + 1 + spaces.length, line + 1, spaces.length⟩⟩ := by
  rw [plainScalar, h.plainRest_eq hsign hspaces hrest hindented hshallow hindent]
  · rfl
  · rw [List.length_append]
    omega

end Scalar

end LintReport.Yaml
