import LintReport.Proofs.Engine.Configuration
import LintReport.Proofs.Yaml.ListingValue

/-!
# Configurations that List Directories

The text for plain directories is a listing under one key. The key is read here; its lines and what
they become are the business of the reader of listings.

## Main definitions

* `Configuration.atStart`, `Configuration.atColon`: the states before and after the key.

## Main results

* `Configuration.toList_render`: the text for directories is the text of a listing.
* `Configuration.tokens_render`: **the tokens of that text**.
* `Configuration.loadOne_render`: what it loads as.
* `Configuration.read_render`: **plain directories are read back by their form**.
-/

namespace LintReport

open Yaml

namespace Configuration

/-- The key of the configuration. -/
def keyChars : List Char := ['r', 'u', 'l', 'e', 'D', 'i', 'r', 's']

variable {items : List (List Char)} {rest : List Char}

/-- The state at the start of a text. -/
def atStart (rest : List Char) : Lexer := { cursor := ⟨keyChars ++ ':' :: '\n' :: rest, 0, 0, 0⟩ }

/-- The state after the key. -/
def atColon (rest : List Char) : Lexer :=
  { cursor := ⟨':' :: '\n' :: rest, 8, 0, 8⟩
    keyAllowed := false
    candidates := [(0, ⟨0, false, 0, 0, 0⟩)]
    emitted := [.scalar "ruleDirs" true] }

theorem next_atStart : (atStart rest).next = .ok (atColon rest) := by
  have hskip := @Lexer.skipBlanks_spaces 0 0 0 [] (keyChars ++ ':' :: '\n' :: rest)
    (List.forall_mem_nil _) (by simp [keyChars, isGap, isSpaceOrEnd, isLineEnd, endMark, isBreak])
    (by simp [keyChars]) (keyChars ++ ':' :: '\n' :: rest).length false
  have hadd : (atStart rest).addCandidate =
      .ok { atStart rest with candidates := [(0, ⟨0, false, 0, 0, 0⟩)] } := rfl
  have hscalar : plainScalar false 0 (atStart rest).cursor =
      ⟨keyChars, false, ⟨':' :: '\n' :: rest, 8, 0, 8⟩⟩ := rfl
  rw [Lexer.next_eq (l := atStart rest) (show 'r' ≠ '\uFEFF' by decide) hskip
      (Lexer.dropStale_of_nil rfl),
    Lexer.closeTo_of_le (show (-1 : Int) ≤ 0 by decide)]
  refine (Lexer.tokenAt_plain (l := atStart rest) rfl rfl ?_).trans ?_
  · exact (by decide : Lexer.startsPlain false 'r' 'u' = true)
  · rw [Lexer.plainText_eq hadd hscalar]
    rfl

/-- The key is not too far away yet. -/
theorem dropStale_atColon : (atColon rest).dropStale = .ok (atColon rest) := rfl

/-- The colon makes the scalar before it a key, and opens the mapping in front of it. -/
theorem next_atColon :
    (atColon (margin items ++ marked items)).next = .ok (Lexer.afterKey items 9 0 9
      [.value, .scalar "ruleDirs" true, .key, .blockMappingStart]) := by
  have hskip := @Lexer.skipBlanks_spaces 8 0 8 [] (':' :: '\n' :: (margin items ++ marked items))
    (List.forall_mem_nil _) (by simp [isGap, isSpaceOrEnd, isLineEnd, endMark, isBreak]) (by simp)
    (':' :: '\n' :: (margin items ++ marked items)).length false
  rw [Lexer.next_eq (l := atColon (margin items ++ marked items)) (show ':' ≠ '\uFEFF' by decide)
    hskip dropStale_atColon,
    Lexer.closeTo_of_le (show (-1 : Int) ≤ 8 by decide), Lexer.tokenAt_colon rfl rfl]
  rfl

/-! ### The text for a list of directories -/

variable {dirs : List String}

/-- The lines of a list of directories. -/
theorem toList_lines (hne : dirs ≠ []) :
    ("\n".intercalate (dirs.map fun d => "  - " ++ d) ++ "\n").toList =
      margin (dirs.map String.toList) ++ marked (dirs.map String.toList) := by
  induction dirs with
  | nil => exact absurd rfl hne
  | cons d more ih =>
    cases more with
    | nil =>
      rw [List.map_singleton, String.intercalate_singleton]
      simp [margin, marked]
    | cons e more =>
      have hrest := ih (List.cons_ne_nil e more)
      rw [List.map_cons] at hrest
      rw [List.map_cons, List.map_cons, String.intercalate_cons_cons, String.append_assoc,
        String.append_assoc, String.toList_append, String.toList_append, String.toList_append, hrest]
      simp [margin, marked]

/-- A text for directories is the text of a listing. -/
theorem toList_render (hne : dirs ≠ []) :
    (render dirs).toList = keyChars ++ ':' :: '\n' ::
      (margin (dirs.map String.toList) ++ marked (dirs.map String.toList)) := by
  rw [render, String.append_assoc, String.toList_append, toList_lines hne]
  rfl

theorem isReadable_marked (h : ∀ cs ∈ items, PlainItem cs) :
    ∀ c ∈ margin items ++ marked items, isReadable c = true := by
  induction items with
  | nil => exact List.forall_mem_nil _
  | cons cs items ih =>
    rw [List.forall_mem_cons] at h
    have hrest := ih h.2
    intro c hc
    simp only [margin, marked, List.cons_append, List.nil_append, List.mem_cons,
      List.mem_append] at hc hrest
    obtain rfl | rfl | rfl | rfl | hc | rfl | hc := hc
    all_goals first | decide | skip
    · exact h.1.readable c hc
    · exact hrest c hc

/-- Every line takes at least as many characters as it gives tokens. -/
theorem two_mul_length_le (items : List (List Char)) :
    2 * items.length ≤ (margin items ++ marked items).length := by
  induction items with
  | nil => exact Nat.le_refl 0
  | cons cs items ih =>
    simp only [margin, marked, List.length_append, List.length_cons, List.length_nil] at ih ⊢
    omega

/-- **The tokens of the text for plain directories** are those of a listing. -/
theorem tokens_render (h : ∀ d ∈ dirs, PlainItem d.toList) (hne : dirs ≠ []) :
    Lexer.tokens (render dirs).toList =
      ⟨Composer.listingTokens "ruleDirs" dirs ++ [.streamEnd], .malformed⟩ := by
  have hitems : ∀ cs ∈ dirs.map String.toList, PlainItem cs := by
    rw [List.forall_mem_map]
    exact h
  have hreadable : (render dirs).toList.all isReadable = true := by
    rw [toList_render hne, List.all_append, Bool.and_eq_true, List.all_cons, List.all_cons,
      List.all_eq_true.2 (isReadable_marked hitems)]
    decide
  have htexts : (dirs.map String.toList).map String.ofList = dirs := by simp
  have hlength := two_mul_length_le (dirs.map String.toList)
  obtain ⟨budget, hbudget⟩ : ∃ budget, (render dirs).toList.length + 1 = budget + 2 ∧
      2 * (dirs.map String.toList).length < budget := by
    refine ⟨(render dirs).toList.length - 1, ?_, ?_⟩ <;>
      rw [toList_render hne] <;>
      simp only [keyChars, List.length_append, List.length_cons] at hlength ⊢ <;>
      omega
  rw [Lexer.tokens, if_pos hreadable, hbudget.1, toList_render hne]
  change Lexer.run (budget + 2) (atStart _) = _
  rw [Lexer.run_succ next_atStart (by simp [atColon]) dropStale_atColon,
    Lexer.run_succ next_atColon (by simp [Lexer.afterKey]) (Lexer.dropStale_of_nil rfl),
    Lexer.run_afterKey hitems (by simpa using hne) hbudget.2, htexts]
  simp [Composer.listingTokens]

/-! ### What is read back -/

theorem ofPlain_ruleDirs : Tag.ofPlain "ruleDirs" = .str := by
  decide +kernel

/-- **The text for plain directories** loads as a list of what each of them is by its form. -/
theorem loadOne_render (h : ∀ d ∈ dirs, PlainItem d.toList) (hne : dirs ≠ []) :
    match dirs.mapM readPlain with
    | .error fault => loadOne (render dirs) = .error fault
    | .ok scalars => ∃ v, loadOne (render dirs) = .ok (some v) ∧ v.IsListing "ruleDirs" scalars :=
  loadOne_listing ofPlain_ruleDirs (tokens_render h hne)

/-- The member of a listing is its list. -/
theorem member?_listing {v : Value} {scalars : List Scalar} (h : v.IsListing "ruleDirs" scalars) :
    v.member? "ruleDirs" = some 2 := by
  rw [Value.member?, h.root]
  simp [h.key]

/-- The directories of a listing are what its scalars are shown as. -/
theorem ofValue_listing {v : Value} {scalars : List Scalar} (h : v.IsListing "ruleDirs" scalars) :
    ofValue (some v) = shown (scalars.mapM Scalar.text?) := by
  have htexts : (List.range' 3 scalars.length).mapM v.text? = scalars.mapM Scalar.text? := by
    refine mapM_eq_of_forall₂ (List.forall₂_iff_get.2 ⟨by simp, fun i hi hscalar => ?_⟩)
    have hitem := h.items i (by simpa using hscalar)
    simp only [List.get_eq_getElem, List.getElem_range', Nat.one_mul]
    rw [Value.text?, hitem]
  rw [ofValue, member?_listing h]
  dsimp only
  rw [h.sequence]
  dsimp only
  rw [htexts]

/-- **Plain directories are read back** by their form. -/
theorem read_render (h : ∀ d ∈ dirs, PlainItem d.toList) (hne : dirs ≠ []) :
    Configuration.read (render dirs) =
      match dirs.mapM readPlain with
      | .error fault => .error (ReadFault.ofYaml .configSyntax fault)
      | .ok scalars => shown (scalars.mapM Scalar.text?) := by
  have hload := loadOne_render h hne
  rw [Configuration.read]
  cases hread : dirs.mapM readPlain with
  | error fault =>
    rw [hread] at hload
    rw [hload]
  | ok scalars =>
    rw [hread] at hload
    obtain ⟨v, hv, hlisting⟩ := hload
    rw [hv]
    dsimp only
    rw [ofValue_listing hlisting]

end Configuration

end LintReport
