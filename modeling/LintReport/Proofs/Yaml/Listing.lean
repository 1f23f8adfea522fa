import LintReport.Proofs.Yaml.PlainLine
import LintReport.Yaml.Token.Lexer

/-!
# The Tokens of a Listing

A listing is a mapping with one key, under which plain lines stand one below the other, each behind
a dash. Every line gives two tokens, and after both the state is what it was in front of the dash:
that is what carries the induction over the lines.

Only the forms that a listing has are followed here: no quotes, no brackets, no comments.

## Main definitions

* `PlainItem`: a plain line that may stand behind a dash.
* `marked`: the text of a listing from its first dash on.
* `Lexer.atMark`: the state in front of a dash.

## Main results

* `Lexer.run_item`: one line gives two tokens and leads back in front of a dash.
* `Lexer.run_marked`: **the tokens of the lines of a listing**.
* `Lexer.run_afterKey`: those of a listing from behind its key on.
-/

namespace LintReport.Yaml

/-- A plain line that can be read and begins as a plain scalar may. -/
structure PlainItem (cs : List Char) : Prop where
  line : PlainLine cs
  readable : ∀ c ∈ cs, isReadable c = true
  starts : Lexer.startsPlain false (cs.headD endMark) ((cs ++ ['\n']).getD 1 endMark) = true

/-- What lines of a listing begin with. -/
def margin : List (List Char) → List Char
  | [] => []
  | _ :: _ => [' ', ' ']

/-- The lines of a listing from the first dash on. -/
def marked : List (List Char) → List Char
  | [] => []
  | cs :: more => '-' :: ' ' :: (cs ++ '\n' :: (margin more ++ marked more))

/-- The tokens of the lines of a listing. -/
def itemTokens (texts : List String) : List Token :=
  texts.flatMap fun text => [.blockEntry, .scalar text true]

theorem itemTokens_length (texts : List String) : (itemTokens texts).length = 2 * texts.length := by
  induction texts with
  | nil => rfl
  | cons text texts ih =>
    rw [itemTokens, List.flatMap_cons, List.length_append, ← itemTokens, ih, List.length_cons]
    simp only [List.length_cons, List.length_nil]
    omega

/-! ### Margins -/

theorem eq_space_of_mem_margin {items : List (List Char)} : ∀ c ∈ margin items, c = ' ' := by
  cases items with
  | nil => simp [margin]
  | cons cs more => simp [margin]

theorem marked_head {items : List (List Char)} : ∀ c ∈ (marked items).head?, c = '-' := by
  cases items with
  | nil => simp [marked]
  | cons cs more => simp [marked]

theorem marked_eq_nil {items : List (List Char)} (h : margin items = []) : marked items = [] := by
  cases items with
  | nil => rfl
  | cons cs more => cases h

theorem margin_length_lt (items : List (List Char)) : ((margin items).length : Int) < 3 := by
  cases items with
  | nil => decide
  | cons cs more => exact (by decide : ((2 : Nat) : Int) < 3)

namespace PlainItem

variable {cs : List Char}

theorem ne_sign (h : PlainItem cs) : cs.head? ≠ some '#' := by
  intro hhead
  obtain ⟨c, rest, rfl⟩ := List.exists_cons_of_ne_nil h.line.ne_nil
  obtain rfl : c = '#' := Option.some.inj hhead
  have hstarts := h.starts
  simp [Lexer.startsPlain] at hstarts

end PlainItem

namespace Lexer

variable {l : Lexer} {index line column : Nat} {spaces rest : List Char}

/-! ### Blanks -/

/-- Spaces before a token are passed over. -/
theorem skipBlanks_spaces (hspaces : ∀ c ∈ spaces, c = ' ')
    (hrest : ∀ c ∈ rest.head?, isGap c = false) (hsign : rest.head? ≠ some '#') (budget : Nat)
    (broken : Bool) :
    skipBlanks (budget + 1) broken ⟨spaces ++ rest, index, line, column⟩ =
      (broken, ⟨rest, index + spaces.length, line, column + spaces.length⟩) := by
  have hpeek := @peek_ne_sign (index + spaces.length) line (column + spaces.length) rest hsign
  rw [skipBlanks, Cursor.skipSpaces_append hspaces fun h => absurd (hrest ' ' h) (by decide), hpeek,
    if_neg Bool.false_ne_true,
    Cursor.lineBreak?_of_head fun c hc => isBreak_of_notGap (hrest c hc)]

/-- So is a line break, which is told. -/
theorem skipBlanks_feed (hspaces : ∀ c ∈ spaces, c = ' ')
    (hrest : ∀ c ∈ rest.head?, isGap c = false) (hsign : rest.head? ≠ some '#') (budget : Nat)
    (broken : Bool) :
    skipBlanks (budget + 2) broken ⟨'\n' :: (spaces ++ rest), index, line, column⟩ =
      (true, ⟨rest, index + 1 + spaces.length, line + 1, spaces.length⟩) := by
  have hnone := @Cursor.skipSpaces_append [] ('\n' :: (spaces ++ rest)) index line column
    (List.forall_mem_nil _) (by simp)
  rw [List.nil_append] at hnone
  rw [skipBlanks, hnone, peek_ne_sign (by simp), if_neg Bool.false_ne_true, Cursor.lineBreak?_feed]
  dsimp only
  rw [skipBlanks_spaces hspaces hrest hsign, List.length_nil, Nat.add_zero, Nat.zero_add]

/-! ### One more token -/

/-- Without candidates none is dropped. -/
theorem dropStale_of_nil (h : l.candidates = []) : l.dropStale = .ok l := by
  rw [dropStale, h]
  dsimp only
  rw [List.any_nil, if_neg Bool.false_ne_true, List.filter_nil, ← h]

/-- The next token is read where the blanks before it end. -/
theorem next_eq {c : Cursor} {broken : Bool} {kept : Lexer} (hmark : l.cursor.peek ≠ '\uFEFF')
    (hskip : skipBlanks (l.cursor.rest.length + 1) false l.cursor = (broken, c))
    (hkept : dropStale { l with
      cursor := c, keyAllowed := l.keyAllowed || (broken && !l.inFlow) } = .ok kept) :
    l.next = (closeTo kept.cursor.column kept).tokenAt := by
  have hpeek : (l.cursor.peek == '\uFEFF') = false := by simpa using hmark
  have htoken : l.toToken = { l with
      cursor := c, keyAllowed := l.keyAllowed || (broken && !l.inFlow) } := by
    rw [toToken, hpeek, Bool.and_false, if_neg Bool.false_ne_true]
    dsimp only
    rw [hskip]
  rw [next, htoken, hkept]
  rfl

/-- No collection ends in front of what is indented as deep. -/
theorem closeTo_of_le {margin : Int} (h : l.indent ≤ margin) : l.closeTo margin = l := by
  rw [closeTo]
  split
  · rfl
  · rw [closeTo.go.eq_def]
    split
    · rfl
    · rw [if_neg (by omega)]

/-- A dash before a blank is the mark of an element. -/
theorem tokenAt_dash (hpeek : l.cursor.peek = '-') (hnext : isGap (l.cursor.peekAt 1) = true)
    (hcolumn : l.cursor.column ≠ 0) : l.tokenAt = l.blockEntry := by
  simp [tokenAt, hpeek, hnext, hcolumn, endMark]

/-- A colon before a blank is the mark of a value. -/
theorem tokenAt_colon (hpeek : l.cursor.peek = ':') (hnext : isGap (l.cursor.peekAt 1) = true) :
    l.tokenAt = l.valueMark := by
  simp [tokenAt, hpeek, hnext, endMark]

/-- A plain scalar is read where one may start and no separator of documents stands. -/
theorem tokenAt_plain (hflow : l.inFlow = false)
    (hmargin : (l.cursor.column == 0 && l.cursor.atSeparator) = false)
    (hstarts : startsPlain false l.cursor.peek (l.cursor.peekAt 1) = true) :
    l.tokenAt = l.plainText := by
  have hend : l.cursor.peek ≠ endMark := by
    intro hpeek
    rw [hpeek] at hstarts
    simp [startsPlain, endMark, isGap, isSpaceOrEnd, isLineEnd] at hstarts
  have hcases := hstarts
  rw [startsPlain, Bool.or_eq_true] at hcases
  obtain hplain | hmark := hcases
  · -- The character is no mark at all.
    simp at hplain
    simp [tokenAt, hflow, Bool.and_assoc, hmargin, hend, hplain, hstarts, Text.apostrophe,
      Text.doubleQuote]
  · -- It is one of three that are marks only before a blank.
    rw [Bool.not_false, Bool.true_and, Bool.and_eq_true, Bool.not_eq_true'] at hmark
    obtain ⟨hnext, hmark⟩ := hmark
    have hone : l.cursor.peek = '-' ∨ l.cursor.peek = '?' ∨ l.cursor.peek = ':' := by
      simpa using hmark
    obtain hpeek | hpeek | hpeek := hone <;>
      rw [hpeek] at hstarts <;>
      simp [tokenAt, hflow, hmargin, hpeek, hnext, hstarts, endMark, Text.apostrophe,
        Text.doubleQuote]

/-- What a plain scalar gives. -/
theorem plainText_eq {after : Lexer} {s : PlainScalar} (hadd : l.addCandidate = .ok after)
    (hread : plainScalar after.inFlow (after.indent + 1) after.cursor = s) :
    l.plainText =
      .ok (({ after with keyAllowed := s.breaksLine }.emit
        (.scalar (String.ofList s.text) true)).moveTo s.after) := by
  rw [plainText, hadd, ← hread]
  rfl

/-! ### The lines of a listing -/

variable {cs : List Char} {items : List (List Char)} {emitted : List Token}

/-- The state after the colon of a key, at the end of its line. -/
def afterKey (items : List (List Char)) (index line column : Nat) (emitted : List Token) : Lexer :=
  { cursor := ⟨'\n' :: (margin items ++ marked items), index, line, column⟩
    indent := 0
    outer := [-1]
    keyAllowed := false
    emitted := emitted }

/-- The state in front of a dash, or at the end of the text. -/
def atMark (items : List (List Char)) (index line : Nat) (emitted : List Token) : Lexer :=
  { cursor := ⟨marked items, index, line, (margin items).length⟩
    indent := 2
    outer := [0, -1]
    emitted := emitted }

/-- The state after a dash. -/
def afterMark (cs : List Char) (items : List (List Char)) (index line : Nat)
    (emitted : List Token) : Lexer :=
  { cursor := ⟨' ' :: (cs ++ '\n' :: (margin items ++ marked items)), index, line, 3⟩
    indent := 2
    outer := [0, -1]
    emitted := emitted }

/-- The state in front of the line behind a dash. -/
def atItem (cs : List Char) (items : List (List Char)) (index line : Nat)
    (emitted : List Token) : Lexer :=
  { cursor := ⟨cs ++ '\n' :: (margin items ++ marked items), index, line, 4⟩
    indent := 2
    outer := [0, -1]
    emitted := emitted }

theorem marked_notGap : ∀ c ∈ (marked items).head?, isGap c = false := by
  intro c hc
  rw [marked_head c hc]
  decide

theorem marked_ne_sign : (marked items).head? ≠ some '#' := by
  intro hhead
  exact absurd (marked_head '#' hhead) (by decide)

/-- The first dash opens the sequence of the listing. -/
theorem next_afterKey :
    (afterKey (cs :: items) index line column emitted).next =
      .ok (afterMark cs items (index + 4) (line + 1)
        (.blockEntry :: .blockSequenceStart :: emitted)) := by
  have hskip := @skipBlanks_feed index line column (margin (cs :: items)) (marked (cs :: items))
    eq_space_of_mem_margin marked_notGap marked_ne_sign
    (margin (cs :: items) ++ marked (cs :: items)).length false
  rw [next_eq (l := afterKey (cs :: items) index line column emitted)
    (show '\n' ≠ '\uFEFF' by decide) hskip (dropStale_of_nil rfl),
    closeTo_of_le (show (0 : Int) ≤ 2 by decide), tokenAt_dash rfl rfl (show 2 ≠ 0 by decide)]
  rfl

/-- A dash gives one token. -/
theorem next_atMark :
    (atMark (cs :: items) index line emitted).next =
      .ok (afterMark cs items (index + 1) line (.blockEntry :: emitted)) := by
  have hskip := @skipBlanks_spaces index line 2 [] (marked (cs :: items)) (List.forall_mem_nil _)
    marked_notGap marked_ne_sign (marked (cs :: items)).length false
  rw [next_eq (l := atMark (cs :: items) index line emitted) (show '-' ≠ '\uFEFF' by decide) hskip
    (dropStale_of_nil rfl), closeTo_of_le (show (2 : Int) ≤ 2 by decide),
    tokenAt_dash rfl rfl (show 2 ≠ 0 by decide)]
  rfl

/-- The blank behind a dash is passed over. -/
theorem next_afterMark (h : PlainItem cs) :
    (afterMark cs items index line emitted).next =
      (atItem cs items (index + 1) line emitted).tokenAt := by
  have hhead : ∀ c ∈ (cs ++ '\n' :: (margin items ++ marked items)).head?, isGap c = false := by
    rw [head?_append_word h.line.ne_nil]
    exact h.line.head_notGap
  have hsign : (cs ++ '\n' :: (margin items ++ marked items)).head? ≠ some '#' := by
    rw [head?_append_word h.line.ne_nil]
    exact h.ne_sign
  have hskip := @skipBlanks_spaces index line 3 [' '] _ (by simp) hhead hsign
    (' ' :: (cs ++ '\n' :: (margin items ++ marked items))).length false
  rw [next_eq (l := afterMark cs items index line emitted) (show ' ' ≠ '\uFEFF' by decide) hskip
    (dropStale_of_nil rfl), closeTo_of_le (show (2 : Int) ≤ 4 by decide)]
  rfl

/-- The line behind a dash is a scalar, which might have become a key. -/
theorem tokenAt_atItem (h : PlainItem cs) :
    (atItem cs items index line emitted).tokenAt =
      .ok { atMark items (index + cs.length + 1 + (margin items).length) (line + 1)
          (.scalar (String.ofList cs) true :: emitted) with
        candidates := [(0, ⟨emitted.length, false, index, line, 4⟩)] } := by
  have hstarts : startsPlain false
      ((cs ++ '\n' :: (margin items ++ marked items)).headD endMark)
      ((cs ++ '\n' :: (margin items ++ marked items)).getD 1 endMark) = true := by
    obtain ⟨c, more, rfl⟩ := List.exists_cons_of_ne_nil h.line.ne_nil
    have hcs := h.starts
    cases more with
    | nil => exact hcs
    | cons d more => exact hcs
  have hscalar := @PlainLine.plainScalar_eq index line 4 (margin items) (marked items) cs 3 h.line
    h.ne_sign eq_space_of_mem_margin marked_notGap marked_eq_nil (margin_length_lt items) (by decide)
  rw [tokenAt_plain (l := atItem cs items index line emitted) rfl rfl hstarts]
  have hadd : (atItem cs items index line emitted).addCandidate =
      .ok { atItem cs items index line emitted with
        candidates := [(0, ⟨emitted.length, false, index, line, 4⟩)] } := rfl
  exact plainText_eq hadd hscalar

/-- After a token that does not end the text, the next one is read. -/
theorem run_succ {after kept : Lexer} (hnext : l.next = .ok after)
    (hhead : after.emitted.head? ≠ some .streamEnd) (hkept : after.dropStale = .ok kept)
    (budget : Nat) : run (budget + 1) l = run budget kept := by
  have hgoes : (after.emitted.head? == some .streamEnd) = false := by simpa using hhead
  rw [run, hnext]
  dsimp only
  rw [hgoes, if_neg Bool.false_ne_true, hkept]

/-- **A line of a listing gives two tokens**, after which the next one begins as it did. -/
theorem run_item (h : PlainItem cs) (budget : Nat) :
    run (budget + 2) (atMark (cs :: items) index line emitted) =
      run budget (atMark items (index + 2 + cs.length + 1 + (margin items).length) (line + 1)
        (.scalar (String.ofList cs) true :: .blockEntry :: emitted)) := by
  have hnext := (@next_afterMark (index + 1) line cs items (.blockEntry :: emitted) h).trans
    (tokenAt_atItem h)
  have hstale : dropStale { atMark items (index + 2 + cs.length + 1 + (margin items).length)
        (line + 1) (.scalar (String.ofList cs) true :: .blockEntry :: emitted) with
      candidates := [(0, ⟨emitted.length + 1, false, index + 2, line, 4⟩)] } =
      .ok (atMark items (index + 2 + cs.length + 1 + (margin items).length) (line + 1)
        (.scalar (String.ofList cs) true :: .blockEntry :: emitted)) := by
    simp [dropStale, atMark]
  rw [run_succ next_atMark (by simp [afterMark]) (dropStale_of_nil rfl),
    run_succ hnext (by simp [atMark]) hstale]

/-- The end of the text ends both collections. -/
theorem run_end (budget : Nat) :
    run (budget + 1) (atMark [] index line emitted) =
      ⟨emitted.reverse ++ [.blockEnd, .blockEnd, .streamEnd], .malformed⟩ := by
  have hskip := @skipBlanks_spaces index line 0 [] [] (List.forall_mem_nil _) (by simp) (by simp) 0
    false
  have hnext : (atMark [] index line emitted).next =
      .ok { cursor := ⟨[], index, line, 0⟩, keyAllowed := false,
            emitted := .streamEnd :: .blockEnd :: .blockEnd :: emitted } := by
    rw [next_eq (l := atMark [] index line emitted) (show endMark ≠ '\uFEFF' by decide) hskip
      (dropStale_of_nil rfl)]
    rfl
  rw [run, hnext]
  simp

/-- **The tokens of the lines of a listing**, and of its end. -/
theorem run_marked (h : ∀ cs ∈ items, PlainItem cs) {budget : Nat}
    (hbudget : 2 * items.length < budget) :
    run budget (atMark items index line emitted) =
      ⟨emitted.reverse ++ itemTokens (items.map String.ofList) ++
        [.blockEnd, .blockEnd, .streamEnd], .malformed⟩ := by
  induction items generalizing index line emitted budget with
  | nil =>
    obtain ⟨budget, rfl⟩ : ∃ b, budget = b + 1 := ⟨budget - 1, by omega⟩
    rw [run_end, List.map_nil, itemTokens, List.flatMap_nil, List.append_nil]
  | cons cs items ih =>
    rw [List.length_cons] at hbudget
    obtain ⟨budget, rfl⟩ : ∃ b, budget = b + 2 := ⟨budget - 2, by omega⟩
    rw [List.forall_mem_cons] at h
    rw [run_item h.1, ih h.2 (by omega)]
    simp [itemTokens]

/-- The tokens from the end of the first line of a listing on. -/
theorem run_afterKey (h : ∀ cs ∈ items, PlainItem cs) (hne : items ≠ []) {budget : Nat}
    (hbudget : 2 * items.length < budget) :
    run budget (afterKey items index line column emitted) =
      ⟨emitted.reverse ++ (.blockSequenceStart :: itemTokens (items.map String.ofList)) ++
        [.blockEnd, .blockEnd, .streamEnd], .malformed⟩ := by
  obtain ⟨cs, items, rfl⟩ := List.exists_cons_of_ne_nil hne
  rw [List.length_cons] at hbudget
  obtain ⟨budget, rfl⟩ : ∃ b, budget = b + 2 := ⟨budget - 2, by omega⟩
  have hmarked := @run_marked (index + 3) (line + 1) (cs :: items) (.blockSequenceStart :: emitted)
    h (budget + 2) (by rw [List.length_cons]; omega)
  rw [run_succ next_atMark (by simp [afterMark]) (dropStale_of_nil rfl)] at hmarked
  rw [run_succ next_afterKey (by simp [afterMark]) (dropStale_of_nil rfl), hmarked]
  simp

end Lexer

end LintReport.Yaml
