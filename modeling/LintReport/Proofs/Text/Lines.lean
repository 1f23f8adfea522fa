import LintReport.Text.Blank
import Mathlib.Data.List.Infix

/-!
# The Lines of a Text

A text is cut into pieces at a separator. What is written piece by piece can be looked at piece by
piece, and a piece that is not the first one follows a separator: how it starts is decided by what
stands behind that separator, and by nothing else in the text.

## Main definitions

* `openingLine`, `laterLines`: the lines of a text.

## Main results

* `splitChars_eq_splitOn`: cutting is what the library calls `splitOn`.
* `length_splitChars`: there is one piece more than there are separators.
* `splitAt_append_append`, `splitAt_intercalate_eq_flatMap`: **what is put together with separators
  is cut into the pieces of what it was put together from**.
* `intercalate_splitAt`: **a text is put together from its pieces**, none of which holds the
  separator.
* `exists_mem_splitChars_iff`: **a piece that starts with a part is the first one or stands behind a
  separator**.
* `splitAt_eq_cons`, `laterLines_append`: a text has a first line and later ones.
* `contains_append_left`, `contains_append_append`: a part is not found across a character that it
  does not hold.
-/

namespace LintReport.Text

variable {separator : Char} {part : List Char}

/-! ### Pieces -/

/-- Cutting a text is what the library calls `splitOn`. -/
theorem splitChars_eq_splitOn (cs : List Char) :
    splitChars separator cs = cs.splitOn separator := by
  induction cs with
  | nil => rfl
  | cons c cs ih =>
    obtain ⟨piece, pieces, hpieces⟩ :=
      List.exists_cons_of_ne_nil (List.splitOn_ne_nil separator cs)
    rw [splitChars, List.splitOn_cons_eq_if_modifyHead, ih, hpieces]
    rfl

/-- There is always a first piece. -/
theorem splitChars_ne_nil (cs : List Char) : splitChars separator cs ≠ [] := by
  rw [splitChars_eq_splitOn]
  exact List.splitOn_ne_nil separator cs

/-- There is one piece more than there are separators. -/
theorem length_splitChars (cs : List Char) :
    (splitChars separator cs).length = cs.count separator + 1 := by
  rw [splitChars_eq_splitOn]
  induction cs with
  | nil => rfl
  | cons c cs ih =>
    rw [List.splitOn_cons_eq_if_modifyHead, List.count_cons]
    split
    · rw [List.length_cons, ih]
    · rw [List.length_modifyHead, ih, Nat.add_zero]

/-- No piece holds the separator. -/
theorem notMem_of_mem_splitAt {s piece : String} (h : piece ∈ splitAt separator s) :
    separator ∉ piece.toList := by
  have hpieces (cs : List Char) : ∀ piece ∈ splitChars separator cs, separator ∉ piece := by
    induction cs with
    | nil => simp [splitChars]
    | cons c cs ih =>
      obtain ⟨first, later, hcut⟩ := List.exists_cons_of_ne_nil (splitChars_ne_nil cs)
      rw [hcut, List.forall_mem_cons] at ih
      rw [splitChars, hcut]
      split
      · exact List.forall_mem_cons.2 ⟨List.not_mem_nil, List.forall_mem_cons.2 ih⟩
      · next hc =>
        refine List.forall_mem_cons.2 ⟨?_, ih.2⟩
        rw [List.mem_cons, not_or]
        exact ⟨fun heq => hc (beq_iff_eq.2 heq.symm), ih.1⟩
  obtain ⟨cs, hcs, rfl⟩ := List.mem_map.1 h
  rw [String.toList_ofList]
  exact hpieces _ cs hcs

/-- **A text is put together from its pieces.** -/
theorem intercalate_splitAt {between : String} (hbetween : between.toList = [separator])
    (s : String) : between.intercalate (splitAt separator s) = s := by
  have hchars : (splitAt separator s).map String.toList = splitChars separator s.toList := by
    rw [splitAt, List.map_map]
    exact (List.map_congr_left fun _ _ => String.toList_ofList).trans (List.map_id _)
  rw [← String.toList_inj, String.toList_intercalate, hbetween, hchars, splitChars_eq_splitOn,
    List.intercalate_splitOn]

/-- A text without the separator is one piece. -/
theorem splitAt_of_notMem {s : String} (h : separator ∉ s.toList) : splitAt separator s = [s] := by
  rw [splitAt, splitChars_eq_splitOn, List.splitOn_eq_singleton h, List.map_singleton,
    String.ofList_toList]

/-- Texts without the separator are one piece each. -/
theorem flatMap_splitAt_of_notMem {texts : List String}
    (h : ∀ text ∈ texts, separator ∉ text.toList) :
    texts.flatMap (splitAt separator) = texts := by
  induction texts with
  | nil => rfl
  | cons text rest ih =>
    rw [List.forall_mem_cons] at h
    rw [List.flatMap_cons, splitAt_of_notMem h.1, ih h.2, List.singleton_append]

/-- Texts with a separator between them have the pieces of the one and those of the other. -/
theorem splitAt_append_append {between : String} (hbetween : between.toList = [separator])
    (before after : String) :
    splitAt separator (before ++ between ++ after) =
      splitAt separator before ++ splitAt separator after := by
  have hchars : (before ++ between ++ after).toList =
      before.toList ++ separator :: after.toList := by
    rw [String.toList_append, String.toList_append, hbetween, List.append_assoc]
    rfl
  rw [splitAt, hchars, splitChars_eq_splitOn, List.splitOn_append_cons_self, List.map_append,
    ← splitChars_eq_splitOn, ← splitChars_eq_splitOn, splitAt, splitAt]

/-- **Texts that are put together with separators have the pieces of each of them**, if there are
any. -/
theorem splitAt_intercalate_eq_flatMap {between : String} (hbetween : between.toList = [separator])
    {texts : List String} (hne : texts ≠ []) :
    splitAt separator (between.intercalate texts) = texts.flatMap (splitAt separator) := by
  induction texts with
  | nil => exact absurd rfl hne
  | cons text rest ih =>
    cases rest with
    | nil => rw [String.intercalate_singleton, List.flatMap_singleton]
    | cons next rest =>
      rw [String.intercalate_cons_cons, splitAt_append_append hbetween, ih (List.cons_ne_nil _ _)]
      rfl

/-- Texts that are put together with separators are its pieces if none of them holds the
separator. -/
theorem splitAt_intercalate {between : String} (hbetween : between.toList = [separator])
    {texts : List String} (hne : texts ≠ []) (h : ∀ text ∈ texts, separator ∉ text.toList) :
    splitAt separator (between.intercalate texts) = texts := by
  rw [splitAt_intercalate_eq_flatMap hbetween hne, flatMap_splitAt_of_notMem h]

/-- The first piece starts as the text does, and a later piece starts as what stands behind a
separator, up to the next separator. -/
theorem exists_splitOn_eq_cons (separator : Char) (cs : List Char) :
    ∃ first later, cs.splitOn separator = first :: later ∧
      ∀ part : List Char, separator ∉ part →
        (part <+: first ↔ part <+: cs) ∧
        ((∃ piece ∈ later, part <+: piece) ↔ separator :: part <:+: cs) := by
  induction cs with
  | nil => exact ⟨[], [], rfl, fun part _ => ⟨Iff.rfl, by simp⟩⟩
  | cons c cs ih =>
    obtain ⟨first, later, hpieces, hstart⟩ := ih
    rw [List.splitOn_cons_eq_if_modifyHead, hpieces]
    split
    · next hc =>
      obtain rfl : c = separator := eq_of_beq hc
      refine ⟨[], first :: later, rfl, fun part hpart => ⟨?_, ?_⟩⟩
      · rw [List.prefix_nil, List.prefix_cons_iff, or_iff_left]
        rintro ⟨rest, rfl, -⟩
        exact hpart List.mem_cons_self
      · rw [List.exists_mem_cons_iff, (hstart part hpart).1, (hstart part hpart).2,
          List.infix_cons_iff, List.cons_prefix_cons, and_iff_right rfl]
    · next hc =>
      refine ⟨c :: first, later, rfl, fun part hpart => ⟨?_, ?_⟩⟩
      · cases part with
        | nil => simp
        | cons d part =>
          have hrest : separator ∉ part := fun h => hpart (List.mem_cons_of_mem d h)
          rw [List.cons_prefix_cons, List.cons_prefix_cons, (hstart part hrest).1]
      · rw [(hstart part hpart).2, List.infix_cons_iff, List.cons_prefix_cons, or_iff_right]
        rintro ⟨rfl, -⟩
        exact hc (beq_self_eq_true _)

/-- **A piece that starts with a part** is the first one, or stands behind a separator. -/
theorem exists_mem_splitChars_iff (hpart : separator ∉ part) (cs : List Char) :
    (∃ piece ∈ splitChars separator cs, part <+: piece) ↔
      part <+: cs ∨ separator :: part <:+: cs := by
  obtain ⟨first, later, hpieces, hstart⟩ := exists_splitOn_eq_cons separator cs
  rw [splitChars_eq_splitOn, hpieces, List.exists_mem_cons_iff, (hstart part hpart).1,
    (hstart part hpart).2]

/-! ### First and later lines -/

/-- The first line of a text. -/
def openingLine (s : String) : String := (splitAt '\n' s).headD ""

/-- The lines of a text behind its first one. -/
def laterLines (s : String) : List String := (splitAt '\n' s).tail

/-- A text has a first line and later ones. -/
theorem splitAt_eq_cons (s : String) : splitAt '\n' s = openingLine s :: laterLines s := by
  have hne : splitAt '\n' s ≠ [] := by
    rw [splitAt, ne_eq, List.map_eq_nil_iff]
    exact splitChars_ne_nil _
  obtain ⟨first, later, hcut⟩ := List.exists_cons_of_ne_nil hne
  rw [openingLine, laterLines, hcut]
  rfl

/-- A text has later lines exactly when it holds a line break. -/
theorem laterLines_eq_nil_iff {s : String} : laterLines s = [] ↔ '\n' ∉ s.toList := by
  rw [laterLines, ← List.length_eq_zero_iff, List.length_tail, splitAt, List.length_map,
    length_splitChars, Nat.add_sub_cancel, List.count_eq_zero]

/-- A text without a line break is its first line. -/
theorem openingLine_of_notMem {s : String} (h : '\n' ∉ s.toList) : openingLine s = s := by
  rw [openingLine, splitAt_of_notMem h]
  rfl

/-- The first line starts as the text does. -/
theorem prefix_openingLine_iff {s : String} (hpart : '\n' ∉ part) :
    part <+: (openingLine s).toList ↔ part <+: s.toList := by
  obtain ⟨first, later, hcut, hstart⟩ := exists_splitOn_eq_cons '\n' s.toList
  rw [openingLine, splitAt, splitChars_eq_splitOn, hcut, List.map_cons, List.headD_cons,
    String.toList_ofList]
  exact (hstart part hpart).1

/-- **What stands before a text on its first line adds no line.** -/
theorem laterLines_append {before : String} (h : '\n' ∉ before.toList) (after : String) :
    laterLines (before ++ after) = laterLines after := by
  have hchars (cs ds : List Char) (hcs : '\n' ∉ cs) :
      (splitChars '\n' (cs ++ ds)).tail = (splitChars '\n' ds).tail := by
    induction cs with
    | nil => rfl
    | cons c cs ih =>
      rw [List.mem_cons, not_or] at hcs
      obtain ⟨first, later, hcut⟩ := List.exists_cons_of_ne_nil (splitChars_ne_nil (cs ++ ds))
      have hc : ¬ (c == '\n') = true := by simpa using Ne.symm hcs.1
      rw [← ih hcs.2, List.cons_append, splitChars, hcut, if_neg hc]
      rfl
  rw [laterLines, laterLines, splitAt, splitAt, ← List.map_tail, ← List.map_tail,
    String.toList_append, hchars _ _ h]

/-! ### Parts of a text -/

/-- A part occurs in a text when the library calls it an infix of the text. -/
theorem occursIn_iff_isInfix (part cs : List Char) : occursIn part cs = true ↔ part <:+: cs := by
  induction cs with
  | nil => rw [occursIn, List.isEmpty_iff, List.infix_nil]
  | cons c cs ih =>
    rw [occursIn, Bool.or_eq_true, List.isPrefixOf_iff_prefix, ih, List.infix_cons_iff]

/-- A part is not found across a character that it does not hold. -/
theorem infix_append_cons_iff {c : Char} (hc : c ∉ part) (hne : part ≠ [])
    (before after : List Char) :
    part <:+: before ++ c :: after ↔ part <:+: before ∨ part <:+: after := by
  rw [List.infix_append_iff_ne_nil, List.infix_cons_iff]
  constructor
  · rintro (h | (h | h) | ⟨front, back, -, hback, rfl, -, h⟩)
    · exact .inl h
    · rcases List.prefix_cons_iff.1 h with h | ⟨rest, rfl, -⟩
      · exact absurd h hne
      · exact absurd List.mem_cons_self hc
    · exact .inr h
    · rcases List.prefix_cons_iff.1 h with h | ⟨rest, rfl, -⟩
      · exact absurd h hback
      · exact absurd (List.mem_append_right front List.mem_cons_self) hc
  · rintro (h | h)
    · exact .inl h
    · exact .inr (.inl (.inr h))

/-- A part is not found in a text that shares no character with it. -/
theorem not_infix_of_disjoint {cs : List Char} (hne : part ≠ []) (h : ∀ c ∈ cs, c ∉ part) :
    ¬ part <:+: cs := by
  obtain ⟨c, rest, rfl⟩ := List.exists_cons_of_ne_nil hne
  exact fun hpart => h c (hpart.subset List.mem_cons_self) List.mem_cons_self

/-- What is added at the end and shares no character with a part does not make it occur. -/
theorem contains_append_left {part after : String} (hne : part.toList ≠ [])
    (h : ∀ c ∈ after.toList, c ∉ part.toList) (before : String) :
    contains part (before ++ after) = contains part before := by
  rw [Bool.eq_iff_iff, contains, contains, occursIn_iff_isInfix, occursIn_iff_isInfix,
    String.toList_append]
  cases hafter : after.toList with
  | nil => rw [List.append_nil]
  | cons c rest =>
    rw [hafter] at h
    have hrest : ¬ part.toList <:+: rest :=
      not_infix_of_disjoint hne fun d hd => h d (List.mem_cons_of_mem c hd)
    rw [infix_append_cons_iff (h c List.mem_cons_self) hne, or_iff_left hrest]

/-- What is added between two texts and shares no character with a part keeps the texts apart. -/
theorem contains_append_append {part between : String} {c : Char} (hbetween : between.toList = [c])
    (hc : c ∉ part.toList) (hne : part.toList ≠ []) (before after : String) :
    contains part (before ++ between ++ after) = (contains part before || contains part after) := by
  rw [Bool.eq_iff_iff, Bool.or_eq_true, contains, contains, contains, occursIn_iff_isInfix,
    occursIn_iff_isInfix, occursIn_iff_isInfix, String.toList_append, String.toList_append,
    hbetween, List.append_assoc, List.singleton_append, infix_append_cons_iff hc hne]

end LintReport.Text
