import Mathlib.Data.Bool.AllAny
import LintReport.Proofs.Json.Integer
import LintReport.Proofs.Json.Quoted

/-!
# Layouts of JSON

A value is written on one line or over several lines. Both layouts put the same tokens in the same
order and differ in the white space between them, so they are two instances of one writer,
`spaced`, and what holds of that writer holds of both.

Two kinds of values are left out where a text is read again (`Readable`). A binary64 number is
written by its shortest decimal, and an object with a repeated key cannot be read back, since
reading keeps one value for each key.

## Main results

* `compactChars_eq`, `prettyChars_eq`: both layouts are instances of `spaced`.
* `isLineText_pretty`: a value over several lines is printable ASCII between line feeds.
-/

namespace LintReport.Json

open Text (doubleQuote)

/-! ### Values that read back -/

mutual

/-- Whether a value reads back as it was written: it holds no binary64 numbers, and no object has a
key twice. -/
def Readable : Json → Prop
  | float _ => False
  | arr items => ReadableItems items
  | obj members => (members.map (·.1)).Nodup ∧ ReadableMembers members
  | null => True
  | bool _ => True
  | int _ => True
  | str _ => True

/-- Whether every item reads back. -/
def ReadableItems : List Json → Prop
  | [] => True
  | v :: rest => Readable v ∧ ReadableItems rest

/-- Whether the value of every member reads back. -/
def ReadableMembers : List (String × Json) → Prop
  | [] => True
  | (_, v) :: rest => Readable v ∧ ReadableMembers rest

end

/-! ### One writer for both layouts -/

/-- The white space of a layout, by the depth of what follows it. -/
structure Spacing where
  /-- After an opening bracket. -/
  inside : Nat → List Char
  /-- After a comma. -/
  between : Nat → List Char
  /-- Before a closing bracket. -/
  outside : Nat → List Char
  isSpace_inside : ∀ depth, ∀ c ∈ inside depth, isSpace c = true
  isSpace_between : ∀ depth, ∀ c ∈ between depth, isSpace c = true
  isSpace_outside : ∀ depth, ∀ c ∈ outside depth, isSpace c = true

/-- The white space of a value on one line. -/
def Spacing.oneLine : Spacing where
  inside _ := []
  between _ := [' ']
  outside _ := []
  isSpace_inside := by simp
  isSpace_between := by simp [isSpace]
  isSpace_outside := by simp

/-- A new line is white space. -/
theorem isSpace_newLine {depth : Nat} {c : Char} (h : c ∈ newLine depth) : isSpace c = true := by
  rw [newLine, List.mem_cons, List.mem_replicate] at h
  rcases h with rfl | ⟨-, rfl⟩ <;> rfl

/-- The white space of a value over several lines. -/
def Spacing.severalLines : Spacing where
  inside := newLine
  between := newLine
  outside := newLine
  isSpace_inside _ _ := isSpace_newLine
  isSpace_between _ _ := isSpace_newLine
  isSpace_outside _ _ := isSpace_newLine

mutual

/-- The characters of a value under a layout, at a depth. -/
def spaced (layout : Spacing) (depth : Nat) : Json → List Char
  | arr [] => ['[', ']']
  | arr (v :: rest) =>
    '[' :: layout.inside (depth + 1) ++ spacedItems layout (depth + 1) (v :: rest) ++
      layout.outside depth ++ [']']
  | obj [] => ['\x7b', '\x7d']
  | obj (m :: rest) =>
    '\x7b' :: layout.inside (depth + 1) ++ spacedMembers layout (depth + 1) (m :: rest) ++
      layout.outside depth ++ ['\x7d']
  | null => scalarChars null
  | bool b => scalarChars (bool b)
  | int i => scalarChars (int i)
  | float x => scalarChars (float x)
  | str s => scalarChars (str s)

/-- The elements of an array under a layout. -/
def spacedItems (layout : Spacing) (depth : Nat) : List Json → List Char
  | [] => []
  | [v] => spaced layout depth v
  | v :: w :: rest =>
    spaced layout depth v ++ ',' :: layout.between depth ++ spacedItems layout depth (w :: rest)

/-- The members of an object under a layout. -/
def spacedMembers (layout : Spacing) (depth : Nat) : List (String × Json) → List Char
  | [] => []
  | [(k, v)] => quoted k ++ ':' :: ' ' :: spaced layout depth v
  | (k, v) :: m :: rest =>
    quoted k ++ ':' :: ' ' :: spaced layout depth v ++ ',' :: layout.between depth ++
      spacedMembers layout depth (m :: rest)

end

mutual

/-- One line is an instance of the writer. -/
theorem compactChars_eq (depth : Nat) :
    ∀ v : Json, compactChars v = spaced .oneLine depth v
  | arr [] => rfl
  | arr (v :: rest) => by
    rw [compactChars, spaced, compactItems_eq (depth + 1) (v :: rest)]
    simp [Spacing.oneLine]
  | obj [] => rfl
  | obj (m :: rest) => by
    rw [compactChars, spaced, compactMembers_eq (depth + 1) (m :: rest)]
    simp [Spacing.oneLine]
  | null => rfl
  | bool _ => rfl
  | int _ => rfl
  | float _ => rfl
  | str _ => rfl

theorem compactItems_eq (depth : Nat) :
    ∀ items : List Json, compactItems items = spacedItems .oneLine depth items
  | [] => rfl
  | [v] => by rw [compactItems, spacedItems, compactChars_eq depth v]
  | v :: w :: rest => by
    rw [compactItems, spacedItems, compactChars_eq depth v, compactItems_eq depth (w :: rest)]
    simp [Spacing.oneLine]

theorem compactMembers_eq (depth : Nat) :
    ∀ members : List (String × Json), compactMembers members = spacedMembers .oneLine depth members
  | [] => rfl
  | [(k, v)] => by rw [compactMembers, spacedMembers, compactChars_eq depth v]
  | (k, v) :: m :: rest => by
    rw [compactMembers, spacedMembers, compactChars_eq depth v,
      compactMembers_eq depth (m :: rest)]
    simp [Spacing.oneLine]

end

mutual

/-- Several lines are an instance of the writer. -/
theorem prettyChars_eq (depth : Nat) :
    ∀ v : Json, prettyChars depth v = spaced .severalLines depth v
  | arr [] => rfl
  | arr (v :: rest) => by
    rw [prettyChars, spaced, prettyItems_eq (depth + 1) (v :: rest)]
    rfl
  | obj [] => rfl
  | obj (m :: rest) => by
    rw [prettyChars, spaced, prettyMembers_eq (depth + 1) (m :: rest)]
    rfl
  | null => rfl
  | bool _ => rfl
  | int _ => rfl
  | float _ => rfl
  | str _ => rfl

theorem prettyItems_eq (depth : Nat) :
    ∀ items : List Json, prettyItems depth items = spacedItems .severalLines depth items
  | [] => rfl
  | [v] => by rw [prettyItems, spacedItems, prettyChars_eq depth v]
  | v :: w :: rest => by
    rw [prettyItems, spacedItems, prettyChars_eq depth v, prettyItems_eq depth (w :: rest)]
    rfl

theorem prettyMembers_eq (depth : Nat) :
    ∀ members : List (String × Json),
      prettyMembers depth members = spacedMembers .severalLines depth members
  | [] => rfl
  | [(k, v)] => by rw [prettyMembers, spacedMembers, prettyChars_eq depth v]
  | (k, v) :: m :: rest => by
    rw [prettyMembers, spacedMembers, prettyChars_eq depth v, prettyMembers_eq depth (m :: rest)]
    rfl

end

/-! ### What a text is made of -/

/-- Whether a character is printable ASCII or a line feed. -/
def IsLineText (c : Char) : Prop := c = '\n' ∨ IsPrintableAscii c

instance (c : Char) : Decidable (IsLineText c) := inferInstanceAs (Decidable (_ ∨ _))

/-- A new line is a line feed and blanks. -/
theorem isLineText_newLine {depth : Nat} {c : Char} (h : c ∈ newLine depth) : IsLineText c := by
  rw [newLine, List.mem_cons, List.mem_replicate] at h
  rcases h with rfl | ⟨-, rfl⟩ <;> decide

/-- The decimal digits of an integer and its sign are printable. -/
theorem isPrintableAscii_intChars {i : Int} {c : Char} (h : c ∈ (toString i).toList) :
    IsPrintableAscii c := by
  rcases signOrDigit_of_mem_intChars h with rfl | hdigit
  · decide
  · simp only [Char.isDigit, Bool.and_eq_true, decide_eq_true_eq, ge_iff_le,
      UInt32.le_iff_toNat_le] at hdigit
    exact ⟨Nat.le_trans (by decide) hdigit.1, Nat.lt_of_le_of_lt hdigit.2 (by decide)⟩

/-- A value that is neither an array nor an object is printable. -/
theorem isLineText_scalarChars {v : Json} (hv : Readable v) {c : Char} (h : c ∈ scalarChars v) :
    IsLineText c := by
  match v with
  | null =>
    have hword : ∀ d ∈ scalarChars null, IsLineText d := List.all_iff_forall_prop.1 (by decide)
    exact hword c h
  | bool b =>
    have hword : ∀ d ∈ scalarChars (bool b), IsLineText d :=
      List.all_iff_forall_prop.1 (by cases b <;> decide)
    exact hword c h
  | int i => exact .inr (isPrintableAscii_intChars h)
  | str s => exact .inr (isPrintableAscii_quoted h)
  | arr _ | obj _ => exact absurd h (List.not_mem_nil)

mutual

/-- **A value over several lines is printable ASCII between line feeds.** -/
theorem isLineText_prettyChars (depth : Nat) :
    ∀ v : Json, Readable v → ∀ c ∈ prettyChars depth v, IsLineText c
  | arr [], _ => by
    have hempty : ∀ d ∈ ['[', ']'], IsLineText d := List.all_iff_forall_prop.1 (by decide)
    exact hempty
  | arr (v :: rest), hv => by
    have hitems := isLineText_prettyItems (depth + 1) (v :: rest) hv
    simp only [prettyChars, List.cons_append, List.forall_mem_cons, List.forall_mem_append]
    exact ⟨by decide, ⟨⟨fun _ => isLineText_newLine, hitems⟩, fun _ => isLineText_newLine⟩,
      by decide, List.forall_mem_nil _⟩
  | obj [], _ => by
    have hempty : ∀ d ∈ ['\x7b', '\x7d'], IsLineText d :=
      List.all_iff_forall_prop.1 (by decide)
    exact hempty
  | obj (m :: rest), hv => by
    have hmembers := isLineText_prettyMembers (depth + 1) (m :: rest) hv.2
    simp only [prettyChars, List.cons_append, List.forall_mem_cons, List.forall_mem_append]
    exact ⟨by decide, ⟨⟨fun _ => isLineText_newLine, hmembers⟩, fun _ => isLineText_newLine⟩,
      by decide, List.forall_mem_nil _⟩
  | null, hv => fun _ => isLineText_scalarChars hv
  | bool _, hv => fun _ => isLineText_scalarChars hv
  | int _, hv => fun _ => isLineText_scalarChars hv
  | str _, hv => fun _ => isLineText_scalarChars hv

theorem isLineText_prettyItems (depth : Nat) :
    ∀ items : List Json, ReadableItems items → ∀ c ∈ prettyItems depth items, IsLineText c
  | [], _ => by simp [prettyItems]
  | [v], hv => by
    rw [prettyItems]
    exact isLineText_prettyChars depth v hv.1
  | v :: w :: rest, hv => by
    have hfirst := isLineText_prettyChars depth v hv.1
    have hrest := isLineText_prettyItems depth (w :: rest) hv.2
    simp only [prettyItems, List.forall_mem_cons, List.forall_mem_append]
    exact ⟨⟨hfirst, by decide, fun _ => isLineText_newLine⟩, hrest⟩

theorem isLineText_prettyMembers (depth : Nat) :
    ∀ members : List (String × Json), ReadableMembers members →
      ∀ c ∈ prettyMembers depth members, IsLineText c
  | [], _ => by simp [prettyMembers]
  | [(k, v)], hv => by
    have hfirst := isLineText_prettyChars depth v hv.1
    simp only [prettyMembers, List.forall_mem_cons, List.forall_mem_append]
    exact ⟨fun _ h => .inr (isPrintableAscii_quoted h), by decide, by decide, hfirst⟩
  | (k, v) :: m :: rest, hv => by
    have hfirst := isLineText_prettyChars depth v hv.1
    have hrest := isLineText_prettyMembers depth (m :: rest) hv.2
    simp only [prettyMembers, List.forall_mem_cons, List.forall_mem_append]
    exact ⟨⟨⟨fun _ h => .inr (isPrintableAscii_quoted h), by decide, by decide, hfirst⟩,
      by decide, fun _ => isLineText_newLine⟩, hrest⟩

end

/-- The text of a value over several lines is printable ASCII between line feeds. -/
theorem isLineText_pretty {v : Json} (hv : Readable v) {c : Char} (h : c ∈ v.pretty.toList) :
    IsLineText c := by
  rw [pretty, String.toList_ofList] at h
  exact isLineText_prettyChars 0 v hv c h

end LintReport.Json
