import LintReport.Proofs.Engine.Directories

/-!
# What the Check of a Configuration Lets Through

A list of directories is written if its text reads back as the list. What is read back is compared
as it is shown, so an element that is no string passes if it is shown as the directory that it was
written for. A scalar that has a form of its own but no value ends in a fault of its own kind, and
an integer with too many digits to be shown ends in another. None of this can happen to a directory
that begins otherwise than values do.

## Main definitions

* `Element`, `Value.elements?`: the elements of a list with what they are shown as.
* `Value.HidesElement`: a list with an element that cannot be shown.

## Main results

* `Configuration.elements_of_ofValue`: the directories of a configuration are what the elements of
  its list are shown as.
* `Configuration.generate_eq_scalar_iff`, `Configuration.generate_eq_unshown_iff`: when a fault is
  not told as a refusal.
* `Configuration.exists_generate_iff`: plain directories are written just if each is shown as
  itself.
* `Configuration.generate_checks`: **what the check lets through**, and what it refuses.
-/

namespace LintReport

namespace Yaml

/-- An element of a list: the string that it is, if it is one, and what it is shown as. -/
structure Element where
  string? : Option String
  shown : String

/-- Whether an element is shown as it is, or is a value of another kind that begins as such. -/
def Element.ShownWell (e : Element) : Prop :=
  e.string? = some e.shown ∨ e.string? = none ∧ BeginsAsValue e.shown.toList

/-- The elements of a list, or of a list of pairs, if each of them can be shown. -/
def Value.elements? (v : Value) (id : NodeId) : Option (List Element) :=
  match v.at? id with
  | some (.list items) => items.mapM fun id => (v.text? id).map (Element.mk (v.str? id))
  | some (.pairs items) => items.mapM fun pair => (v.pairText? pair).map (Element.mk none)
  | _ => none

/-- Whether a list, or a list of pairs, has an element that cannot be shown. -/
def Value.HidesElement (v : Value) (id : NodeId) : Prop :=
  match v.at? id with
  | some (.list items) => ∃ item ∈ items, v.text? item = none
  | some (.pairs items) => ∃ pair ∈ items, v.quoted? pair.1 = none ∨ v.quoted? pair.2 = none
  | _ => False

/-- A pair cannot be shown just if one of its parts cannot. -/
theorem Value.pairText?_eq_none_iff {v : Value} {pair : NodeId × NodeId} :
    v.pairText? pair = none ↔ v.quoted? pair.1 = none ∨ v.quoted? pair.2 = none := by
  rw [Value.pairText?, Value.bothShown]
  cases v.quoted? pair.1 <;> cases v.quoted? pair.2 <;> simp

/-- A string is shown as itself. -/
theorem Value.text?_of_str? {v : Value} {id : NodeId} {s : String} (h : v.str? id = some s) :
    v.text? id = some s := by
  rw [Value.str?] at h
  split at h
  · next text hat =>
    rw [Value.text?, hat]
    exact h
  · cases h

/-- The elements of a list are strings, or begin as other values do. -/
theorem Value.shownWell_of_elements? {v : Value} {id : NodeId} {elements : List Element}
    (h : v.elements? id = some elements) : ∀ e ∈ elements, e.ShownWell := by
  rw [Value.elements?] at h
  split at h
  · intro e he
    obtain ⟨item, -, hitem⟩ := mem_of_mapM_eq_some h he
    obtain ⟨shown, hshown, rfl⟩ := Option.map_eq_some_iff.1 hitem
    cases hstr : v.str? item with
    | none => exact .inr ⟨rfl, Value.beginsAsValue_text? hstr hshown⟩
    | some s =>
      rw [Value.text?_of_str? hstr] at hshown
      exact .inl hshown
  · intro e he
    obtain ⟨pair, -, hpair⟩ := mem_of_mapM_eq_some h he
    obtain ⟨shown, hshown, rfl⟩ := Option.map_eq_some_iff.1 hpair
    obtain ⟨_, -, rfl⟩ := Option.map_eq_some_iff.1 hshown
    exact .inr ⟨rfl, beginsAsValue_pairText _ _⟩
  · cases h

end Yaml

namespace Configuration

open Yaml

variable {dirs : List String}

/-- The texts of a list are read just if each of its elements can be shown. -/
theorem shown_eq_ok_iff {found : Option (List String)} {texts : List String} :
    shown found = .ok texts ↔ found = some texts := by
  cases found <;> simp [shown]

/-- **The directories of a configuration** are what the elements of its list are shown as. -/
theorem elements_of_ofValue {loaded : Option Value} {texts : List String}
    (h : ofValue loaded = .ok texts) (hne : texts ≠ []) :
    ∃ v id elements, loaded = some v ∧ v.member? "ruleDirs" = some id ∧
      v.elements? id = some elements ∧ elements.map Element.shown = texts := by
  cases loaded with
  | none => cases h
  | some v =>
    rw [ofValue] at h
    split at h
    · cases h
    · next id hid =>
      split at h
      · exact absurd (Except.ok.inj h).symm hne
      · next items hat =>
        rw [shown_eq_ok_iff, ← mapM_map_wrapped (fun id => Element.mk (v.str? id)) Element.shown
          fun _ _ => rfl] at h
        obtain ⟨elements, helements, hshown⟩ := Option.map_eq_some_iff.1 h
        exact ⟨v, id, elements, rfl, hid, by rw [Value.elements?, hat]; exact helements, hshown⟩
      · next items hat =>
        rw [shown_eq_ok_iff, ← mapM_map_wrapped (fun _ => Element.mk none) Element.shown
          fun _ _ => rfl] at h
        obtain ⟨elements, helements, hshown⟩ := Option.map_eq_some_iff.1 h
        exact ⟨v, id, elements, rfl, hid, by rw [Value.elements?, hat]; exact helements, hshown⟩
      · cases h

/-- A configuration cannot be read because of an element just if it has one that cannot be shown. -/
theorem ofValue_eq_unshown_iff {loaded : Option Value} :
    ofValue loaded = .error .unshown ↔
      ∃ v id, loaded = some v ∧ v.member? "ruleDirs" = some id ∧ v.HidesElement id := by
  cases loaded with
  | none => simp [ofValue]
  | some v =>
    rw [ofValue]
    cases hid : v.member? "ruleDirs" with
    | none => simp [hid]
    | some id =>
      have hlist {α : Type} {f : α → Option String} {items : List α} :
          shown (items.mapM f) = .error .unshown ↔ ∃ item ∈ items, f item = none := by
        rw [← mapM_eq_none_iff]
        cases items.mapM f <;> simp [shown]
      have hmember : (∃ w i, some v = some w ∧ w.member? "ruleDirs" = some i ∧
          w.HidesElement i) ↔ v.HidesElement id := by
        constructor
        · rintro ⟨w, i, hw, hi, hides⟩
          obtain rfl := Option.some.inj hw
          obtain rfl := Option.some.inj (hid.symm.trans hi)
          exact hides
        · exact fun hides => ⟨v, id, rfl, hid, hides⟩
      rw [hmember, Value.HidesElement]
      dsimp only
      cases v.at? id with
      | none => simp
      | some node =>
        cases node with
        | list items => exact hlist
        | pairs items => simp only [hlist, Value.pairText?_eq_none_iff]
        | scalar s => cases s <;> simp
        | map ms => simp
        | set ms => simp

/-- No scalar is read once a configuration has been loaded. -/
theorem ofValue_ne_scalar {loaded : Option Value} {fault : Fault} :
    ofValue loaded ≠ .error (.scalar fault) := by
  intro h
  have hshown (found : Option (List String)) : shown found ≠ .error (.scalar fault) := by
    cases found <;> simp [shown]
  unfold ofValue at h
  split at h
  · cases h
  split at h
  · cases h
  split at h
  · cases h
  · exact hshown _ h
  · exact hshown _ h
  · cases h

/-- A fault of a scalar is not told as a refusal. -/
theorem read_eq_scalar_iff {text : String} {fault : Fault} :
    Configuration.read text = .error (.scalar fault) ↔
      fault ≠ .malformed ∧ loadOne text = .error fault := by
  rw [Configuration.read]
  cases loadOne text with
  | error found => cases found <;> cases fault <;> simp [ReadFault.ofYaml]
  | ok loaded =>
    dsimp only
    simp [ofValue_ne_scalar]

/-- An element that cannot be shown is not told as a refusal. -/
theorem read_eq_unshown_iff {text : String} :
    Configuration.read text = .error .unshown ↔
      ∃ v id, loadOne text = .ok (some v) ∧ v.member? "ruleDirs" = some id ∧ v.HidesElement id := by
  rw [Configuration.read]
  cases loadOne text with
  | error found => cases found <;> simp [ReadFault.ofYaml]
  | ok loaded => simp [ofValue_eq_unshown_iff]

/-- Whatever a configuration cannot be read for, refusals apart, is told as it is. -/
theorem generate_eq_of_read {fault : ReadFault} (h : ∀ refusal, fault ≠ .refused refusal) :
    generate dirs = .error fault ↔ Configuration.read (render dirs) = .error fault := by
  unfold generate
  dsimp only
  cases Configuration.read (render dirs) with
  | ok back =>
    dsimp only
    split
    · simp
    · simpa using fun hrefused => absurd hrefused.symm (h _)
  | error found =>
    cases found with
    | refused refusal => simp [(h _).symm]
    | scalar _ => simp
    | unshown => simp

/-- A fault of a scalar is told as it is, and not as a refusal. -/
theorem generate_eq_scalar_iff {fault : Fault} :
    generate dirs = .error (.scalar fault) ↔
      fault ≠ .malformed ∧ loadOne (render dirs) = .error fault := by
  rw [generate_eq_of_read (by simp), read_eq_scalar_iff]

/-- So is an element that cannot be shown. -/
theorem generate_eq_unshown_iff :
    generate dirs = .error .unshown ↔ ∃ v id, loadOne (render dirs) = .ok (some v) ∧
      v.member? "ruleDirs" = some id ∧ v.HidesElement id := by
  rw [generate_eq_of_read (by simp), read_eq_unshown_iff]

/-- A refusal names the whole list. -/
theorem eq_of_generate_refused {fault : ConfigurationFault}
    (h : generate dirs = .error (.refused fault)) : fault = .unwritableDirs dirs := by
  unfold generate at h
  dsimp only at h
  split at h
  · split at h
    · cases h
    · exact (ReadFault.refused.inj (Except.error.inj h)).symm
  · exact (ReadFault.refused.inj (Except.error.inj h)).symm
  · next hother _ =>
    obtain rfl := Except.error.inj h
    exact absurd rfl (hother fault)

/-- Scalars that are shown as what they were read from exist for each text apart. -/
theorem exists_mapM_readPlain_iff :
    (∃ scalars, dirs.mapM readPlain = .ok scalars ∧ scalars.mapM Scalar.text? = some dirs) ↔
      ∀ d ∈ dirs, ∃ s, readPlain d = .ok s ∧ s.text? = some d := by
  simp only [mapM_eq_ok_iff, mapM_eq_some_iff]
  induction dirs with
  | nil => simp
  | cons d dirs ih =>
    rw [List.forall_mem_cons, ← ih]
    constructor
    · rintro ⟨scalars, hread, hshown⟩
      obtain ⟨s, rest, hd, hrest, rfl⟩ := List.forall₂_cons_left_iff.1 hread
      obtain ⟨hs, hshown⟩ := List.forall₂_cons.1 hshown
      exact ⟨⟨s, hd, hs⟩, rest, hrest, hshown⟩
    · rintro ⟨⟨s, hd, hs⟩, rest, hrest, hshown⟩
      exact ⟨s :: rest, .cons hd hrest, .cons hs hshown⟩

/-- **Plain directories are written** just if each of them is shown as itself. -/
theorem exists_generate_iff (h : ∀ d ∈ dirs, PlainItem d.toList) :
    (∃ text, generate dirs = .ok text) ↔
      ∀ d ∈ dirs, ∃ s, readPlain d = .ok s ∧ s.text? = some d := by
  have hwritten : (∃ text, generate dirs = .ok text) ↔
      Configuration.read (render dirs) = .ok dirs := by
    refine ⟨fun ⟨text, htext⟩ => ?_, fun hread => ⟨_, generate_of_read hread⟩⟩
    obtain ⟨rfl, hread⟩ := of_generate htext
    exact hread
  rw [hwritten, ← exists_mapM_readPlain_iff]
  by_cases hnil : dirs = []
  · subst hnil
    exact ⟨fun _ => ⟨[], rfl, rfl⟩, fun _ => read_render_nil⟩
  · rw [read_render h hnil]
    cases dirs.mapM readPlain with
    | error fault => simp
    | ok scalars => simp [shown_eq_ok_iff]

/-- Plain directories end in an element that cannot be shown just if each of them can be read, and
one is an integer with too many digits. -/
theorem generate_plain_eq_unshown_iff (h : ∀ d ∈ dirs, PlainItem d.toList) :
    generate dirs = .error .unshown ↔
      (∀ d ∈ dirs, ∃ s, readPlain d = .ok s) ∧
        ∃ d ∈ dirs, ∃ i, readPlain d = .ok (.int i) ∧ Numeral.isShort i = false := by
  rw [generate_eq_of_read (by simp), ← exists_mapM_iff]
  by_cases hnil : dirs = []
  · subst hnil
    simp [read_render_nil]
  · rw [read_render h hnil]
    cases hread : dirs.mapM readPlain with
    | error fault => cases fault <;> simp [ReadFault.ofYaml]
    | ok scalars =>
      have hunshown : shown (scalars.mapM Scalar.text?) = .error .unshown ↔
          ∃ s ∈ scalars, s.text? = none := by
        rw [← mapM_eq_none_iff]
        cases scalars.mapM Scalar.text? <;> simp [shown]
      simp only [hunshown, Scalar.text?_eq_none_iff, mem_of_mapM hread]
      constructor
      · rintro ⟨_, ⟨d, hd, hs⟩, i, rfl, hlong⟩
        exact ⟨⟨scalars, rfl⟩, d, hd, i, hs, hlong⟩
      · rintro ⟨-, d, hd, i, hs, hlong⟩
        exact ⟨_, ⟨d, hd, hs⟩, i, rfl, hlong⟩

/-- **What the check lets through**: a text whose list has an element for each directory that is
shown as the directory, and is that very string unless the directory begins as another value does.
Anything else is refused, but for faults of single scalars and for elements that cannot be shown. -/
theorem generate_checks (dirs : List String) :
    (∀ text, generate dirs = .ok text → dirs ≠ [] →
      ∃ v id elements, loadOne text = .ok (some v) ∧ v.member? "ruleDirs" = some id ∧
        v.elements? id = some elements ∧ elements.map Element.shown = dirs ∧
        ∀ e ∈ elements,
          e.string? = some e.shown ∨ e.string? = none ∧ BeginsAsValue e.shown.toList) ∧
    (∀ fault, generate dirs = .error (.refused fault) → fault = .unwritableDirs dirs) ∧
    (∀ fault, generate dirs = .error (.scalar fault) ↔
      fault ≠ .malformed ∧ loadOne (render dirs) = .error fault) ∧
    (generate dirs = .error .unshown ↔ ∃ v id, loadOne (render dirs) = .ok (some v) ∧
      v.member? "ruleDirs" = some id ∧ v.HidesElement id) ∧
    ((∀ d ∈ dirs, PlainItem d.toList) →
      ((∃ text, generate dirs = .ok text) ↔
        ∀ d ∈ dirs, ∃ s, readPlain d = .ok s ∧ s.text? = some d) ∧
      (generate dirs = .error .unshown ↔
        (∀ d ∈ dirs, ∃ s, readPlain d = .ok s) ∧
          ∃ d ∈ dirs, ∃ i, readPlain d = .ok (.int i) ∧ Numeral.isShort i = false)) := by
  refine ⟨fun text h hne => ?_, fun _ => eq_of_generate_refused, fun _ => generate_eq_scalar_iff,
    generate_eq_unshown_iff, fun h => ⟨exists_generate_iff h, generate_plain_eq_unshown_iff h⟩⟩
  obtain ⟨-, hread⟩ := of_generate h
  rw [Configuration.read] at hread
  cases hload : loadOne text with
  | error fault =>
    rw [hload] at hread
    cases hread
  | ok loaded =>
    rw [hload] at hread
    dsimp only at hread
    cases hvalue : ofValue loaded with
    | error fault =>
      rw [hvalue] at hread
      cases hread
    | ok texts =>
      rw [hvalue] at hread
      obtain rfl : texts = dirs := Except.ok.inj hread
      obtain ⟨v, id, elements, rfl, hid, helements, hshown⟩ := elements_of_ofValue hvalue hne
      exact ⟨v, id, elements, rfl, hid, helements, hshown,
        Value.shownWell_of_elements? helements⟩

theorem plainItem_one : PlainItem "1".toList :=
  ⟨.word (.singleton (by decide)), List.all_eq_true.1 (by decide), by decide⟩

/-- **A number passes the check**, since it is shown as it was written. A date that does not exist
is not even refused. -/
theorem number_passes :
    generate ["1"] = .ok "ruleDirs:\n  - 1\n" ∧
      (∃ v, loadOne "ruleDirs:\n  - 1\n" = .ok (some v) ∧ v.member? "ruleDirs" = some 2 ∧
        v.at? 2 = some (.list [3]) ∧ v.at? 3 = some (.scalar (.int 1))) ∧
      generate ["2001-99-99"] = .error (.scalar .badNumber) := by
  have hscalars : ["1"].mapM readPlain = .ok [.int 1] := by decide +kernel
  have hload := @loadOne_render ["1"] (List.forall_mem_singleton.2 plainItem_one)
    (List.cons_ne_nil _ _)
  rw [hscalars] at hload
  obtain ⟨v, hv, hlisting⟩ := hload
  have hnodes := And.intro hlisting.sequence (hlisting.items 0 (by decide))
  exact ⟨by decide +kernel, ⟨v, hv, member?_listing hlisting, hnodes⟩, by decide +kernel⟩

end Configuration

end LintReport
