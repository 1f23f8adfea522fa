import LintReport.Proofs.Engine.Listed
import LintReport.Proofs.Yaml.FirstCharacter

/-!
# Directories that Can Be Written

Directories are written without quotes, so a list is refused if it would not read back. A path of
ordinary characters is a plain line and no number, date or word for another value, however long it
is: no list of such paths is refused, since each line of the text is read for itself.

## Main definitions

* `Configuration.IsOrdinaryPath`: a path that starts with a slash and has only ordinary characters.

## Main results

* `Configuration.generate_of_read`: a list that reads back is written.
* `Configuration.IsOrdinaryPath.plainItem`: an ordinary path is a plain line.
* `Configuration.ordinary_generated`: **ordinary paths are never refused**, and read back as they
  are.
-/

namespace LintReport.Configuration

open Yaml

/-- A list that reads back is written. -/
theorem generate_of_read {dirs : List String} (h : Configuration.read (render dirs) = .ok dirs) :
    generate dirs = .ok (render dirs) := by
  unfold generate
  dsimp only
  rw [h]
  dsimp only
  rw [beq_self_eq_true, if_pos rfl]

/-! ### Ordinary paths -/

/-- Letters and digits, slashes, points, underscores, hyphens and spaces. -/
def isOrdinary (c : Char) : Bool := c.isAlphanum || ['/', '.', '_', '-', ' '].contains c

/-- A path of ordinary characters that starts with a slash and does not end in a space. -/
structure IsOrdinaryPath (d : String) : Prop where
  start : d.toList.head? = some '/'
  ending : d.toList.getLast? ≠ some ' '
  chars : ∀ c ∈ d.toList, isOrdinary c = true

/-- Ordinary characters stand for themselves, or are spaces. -/
theorem isPlainChar_of_isOrdinary {c : Char} (h : isOrdinary c = true) :
    isReadable c = true ∧ (isPlainChar c = true ∨ c = ' ') := by
  have hall : ∀ n < 128, isOrdinary (Char.ofNat n) = true →
      isReadable (Char.ofNat n) = true ∧
        (isPlainChar (Char.ofNat n) = true ∨ Char.ofNat n = ' ') := by
    decide +kernel
  have hlow : c.toNat < 128 := by
    rw [isOrdinary, Bool.or_eq_true] at h
    obtain h | h := h
    · change ((decide (c.val ≥ 'A'.val ∧ c.val ≤ 'Z'.val) ||
        (decide (c.val ≥ 'a'.val) && decide (c.val ≤ 'z'.val))) ||
          (decide (c.val ≥ '0'.val) && decide (c.val ≤ '9'.val))) = true at h
      simp only [Bool.or_eq_true, Bool.and_eq_true, decide_eq_true_eq, ge_iff_le,
        UInt32.le_iff_toNat_le] at h
      change c.val.toNat < 128
      have hA : 'Z'.val.toNat = 90 := rfl
      have hz : 'z'.val.toNat = 122 := rfl
      have h9 : '9'.val.toNat = 57 := rfl
      omega
    · simp only [List.contains_cons, Bool.or_eq_true, beq_iff_eq] at h
      obtain rfl | rfl | rfl | rfl | rfl | h := h <;> first | decide | cases h
  have hc := hall c.toNat hlow
  rw [Char.ofNat_toNat] at hc
  exact hc h

theorem startsPlain_slash (next : Char) : Lexer.startsPlain false '/' next = true := by
  simp [Lexer.startsPlain, isGap, isSpaceOrEnd, isLineEnd, isBreak, endMark]

/-- An ordinary path is a plain line. -/
theorem IsOrdinaryPath.plainItem {d : String} (h : IsOrdinaryPath d) : PlainItem d.toList := by
  obtain ⟨rest, hd⟩ := List.head?_eq_some_iff.1 h.start
  refine ⟨PlainLine.of_chars ?_ ?_ ?_ h.ending, ?_, ?_⟩
  · rw [hd]
    exact List.cons_ne_nil _ _
  · exact fun c hc => (isPlainChar_of_isOrdinary (h.chars c hc)).2
  · rw [h.start]
    decide
  · exact fun c hc => (isPlainChar_of_isOrdinary (h.chars c hc)).1
  · rw [hd]
    exact startsPlain_slash _

/-- A plain text that begins with a slash is read as itself. -/
theorem readPlain_slash {d : String} (h : d.toList.head? = some '/') :
    readPlain d = .ok (.str d) := by
  rw [readPlain, Tag.ofPlain_slash h]
  rfl

/-- The lines of a configuration, where there is none for an empty list but an empty one. -/
theorem render_eq (dirs : List String) :
    render dirs = "ruleDirs:\n" ++
      if dirs = [] then "\n" else String.join (dirs.map fun d => "  - " ++ d ++ "\n") := by
  rw [render, String.append_assoc]
  split
  · next hnil =>
    rw [hnil]
    rfl
  · next hne =>
    congr 1
    induction dirs with
    | nil => exact absurd rfl hne
    | cons d more ih =>
      cases more with
      | nil => simp [String.join_cons]
      | cons e more =>
        have hrest := ih (List.cons_ne_nil e more)
        rw [List.map_cons] at hrest
        rw [List.map_cons, List.map_cons, String.intercalate_cons_cons, String.append_assoc,
          String.append_assoc, hrest]
        simp only [List.map_cons, String.join_cons, String.append_assoc]

/-- The text for no directories reads back as none. -/
theorem read_render_nil : Configuration.read (render []) = .ok [] := by
  decide +kernel

/-- **Ordinary paths are never refused**, and are read back as they are. -/
theorem ordinary_generated {dirs : List String} (h : ∀ d ∈ dirs, IsOrdinaryPath d) :
    ∃ text, generate dirs = .ok text ∧
      text = "ruleDirs:\n" ++
        (if dirs = [] then "\n" else String.join (dirs.map fun d => "  - " ++ d ++ "\n")) ∧
      Configuration.read text = .ok dirs := by
  have hread : Configuration.read (render dirs) = .ok dirs := by
    by_cases hnil : dirs = []
    · rw [hnil, read_render_nil]
    · have hscalars : dirs.mapM readPlain = .ok (dirs.map Scalar.str) := by
        rw [mapM_eq_ok_iff, List.forall₂_map_right_iff, List.forall₂_same]
        exact fun d hd => readPlain_slash (h d hd).start
      have htexts : (dirs.map Scalar.str).mapM Scalar.text? = some dirs := by
        rw [mapM_eq_some_iff, List.forall₂_map_left_iff, List.forall₂_same]
        exact fun _ _ => rfl
      rw [read_render (fun d hd => (h d hd).plainItem) hnil, hscalars]
      dsimp only
      rw [htexts]
      rfl
  exact ⟨render dirs, generate_of_read hread, render_eq dirs, hread⟩

/-- Paths with a space, a point, a hyphen and an underscore. -/
def spacedPaths : List String := ["/home/me/My Rules", "/srv/rules-2.1/shared_all"]

theorem spacedPaths_ordinary : ∀ d ∈ spacedPaths, IsOrdinaryPath d := by
  have hfirst : IsOrdinaryPath "/home/me/My Rules" :=
    ⟨by decide, by decide, List.all_eq_true.1 (by decide)⟩
  have hsecond : IsOrdinaryPath "/srv/rules-2.1/shared_all" :=
    ⟨by decide, by decide, List.all_eq_true.1 (by decide)⟩
  simpa [spacedPaths] using ⟨hfirst, hsecond⟩

/-- So they are written, and read back. -/
theorem spacedPaths_generated :
    generate spacedPaths =
        .ok "ruleDirs:\n  - /home/me/My Rules\n  - /srv/rules-2.1/shared_all\n" ∧
      Configuration.read "ruleDirs:\n  - /home/me/My Rules\n  - /srv/rules-2.1/shared_all\n" =
        .ok spacedPaths := by
  obtain ⟨text, hgenerate, rfl, hread⟩ := ordinary_generated spacedPaths_ordinary
  exact ⟨hgenerate, hread⟩

end LintReport.Configuration
