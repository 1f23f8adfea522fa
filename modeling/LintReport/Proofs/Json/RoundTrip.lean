import LintReport.Proofs.Json.Integer
import LintReport.Proofs.Json.Layout
import LintReport.Proofs.Json.Room

/-!
# Writing and Reading JSON

A value that is written on one line or over several lines reads back as the same value, if there is
room for it. The reader is followed once, over the writer that both layouts are instances of.

## Main results

* `value_spaced`: the reader takes a written value that fits as a whole, whatever follows it.
* `parse_compact`, `parse_pretty`: **a written value that fits reads back**, on one line and over
  several.
-/

namespace LintReport.Json

open Text (doubleQuote)

/-! ### White space -/

/-- White space before a token is skipped. -/
theorem skipSpace_append {gap : List Char} (hgap : ∀ c ∈ gap, isSpace c = true)
    (cs : List Char) (hcs : ∀ c ∈ cs.head?, isSpace c = false) : skipSpace (gap ++ cs) = cs := by
  rw [skipSpace, List.dropWhile_append_of_pos hgap]
  cases cs with
  | nil => rfl
  | cons c cs => exact List.dropWhile_cons_of_neg (by simp [hcs c rfl])

/-- White space ends a number. -/
theorem endsNumber_of_isSpace {gap : List Char} (hgap : ∀ c ∈ gap, isSpace c = true) :
    EndsNumber gap := by
  cases gap with
  | nil => exact endsNumber_nil
  | cons c gap =>
    have hc := hgap c List.mem_cons_self
    simp only [isSpace, Bool.or_eq_true, beq_iff_eq] at hc
    refine endsNumber_cons ?_
    rcases hc with ((rfl | rfl) | rfl) | rfl <;> decide

/-- White space and the mark after it end a number. -/
theorem endsNumber_gap {gap : List Char} (hgap : ∀ c ∈ gap, isSpace c = true) (mark : Char)
    (hmark : mark.isDigit = false ∧ mark ≠ '.' ∧ mark ≠ 'e' ∧ mark ≠ 'E') (rest : List Char) :
    EndsNumber (gap ++ mark :: rest) := by
  cases gap with
  | nil => exact endsNumber_cons hmark
  | cons c gap =>
    have hend := endsNumber_of_isSpace hgap
    exact hend

/-! ### The reader, one step at a time -/

/-- A string is read from its opening quote. -/
theorem value_doubleQuote {budget room : Nat} {cs rest : List Char} {s : String}
    (h : stringBody cs = .ok (s, rest)) :
    value (budget + 1) room (doubleQuote :: cs) = .ok (.str s, rest) := by
  rw [value, if_pos (by decide), h]
  rfl

/-- A short integer is read where a number starts. -/
theorem value_int {budget room : Nat} {cs rest : List Char} {i : Int}
    (hstart : startsNumber cs = true) (hread : number? cs = some (.int i, rest))
    (hshort : Numeral.isShort i = true) :
    value (budget + 1) room cs = .ok (.int i, rest) := by
  obtain ⟨c, more, rfl, hc⟩ := exists_cons_of_startsNumber hstart
  have hne (d : Char) (hd : d ≠ '-' ∧ d.isDigit = false) : ¬(c == d) = true := by
    rw [beq_iff_eq]
    exact ne_of_signOrDigit hc hd
  have hbracket := hne '[' (by decide)
  have hbrace := hne '\x7b' (by decide)
  have hopening : ¬(isOpening c && room == 0) = true := by simp [isOpening, hbracket, hbrace]
  rw [value, if_neg (hne _ (by decide)), if_neg hopening, if_neg hbracket, if_neg hbrace,
    word?_eq_none hstart, hread]
  exact if_pos hshort

/-- Elements are read behind an opening bracket, unless it is closed at once. -/
theorem value_openBracket {budget room : Nat} {cs elems : List Char} (hroom : 0 < room)
    (hskip : skipSpace cs = elems) (hopen : elems.head? ≠ some ']') :
    value (budget + 1) room ('[' :: cs) = elements budget (room - 1) [] elems := by
  rw [value, if_neg (by decide), if_neg (by simp; omega), if_pos (by decide), hskip]
  split
  · exact absurd rfl hopen
  · rfl

/-- Members are read behind an opening brace, unless it is closed at once. -/
theorem value_openBrace {budget room : Nat} {cs mems : List Char} (hroom : 0 < room)
    (hskip : skipSpace cs = mems) (hopen : mems.head? ≠ some '\x7d') :
    value (budget + 1) room ('\x7b' :: cs) = members budget (room - 1) [] mems := by
  rw [value, if_neg (by decide), if_neg (by simp; omega), if_neg (by decide), if_pos (by decide),
    hskip]
  split
  · exact absurd rfl hopen
  · rfl

/-- The last element closes the array. -/
theorem elements_close {budget room : Nat} {done : List Json} {cs rest after : List Char} {v : Json}
    (hv : value budget room cs = .ok (v, rest)) (hskip : skipSpace rest = ']' :: after) :
    elements (budget + 1) room done cs = .ok (.arr (done.reverse ++ [v]), after) := by
  rw [elements, hv, ← List.reverse_cons]
  dsimp only [bind, Except.bind]
  simp only [hskip]

/-- A comma asks for one more element. -/
theorem elements_comma {budget room : Nat} {done : List Json} {cs rest after : List Char} {v : Json}
    (hv : value budget room cs = .ok (v, rest)) (hskip : skipSpace rest = ',' :: after) :
    elements (budget + 1) room done cs = elements budget room (v :: done) (skipSpace after) := by
  rw [elements, hv]
  dsimp only [bind, Except.bind]
  simp only [hskip]

/-- The last member closes the object. -/
theorem members_close {budget room : Nat} (done : List (String × Json)) {cs after : List Char}
    {key : String} {keyed rest : List Char} {v : Json}
    (hkey : stringBody cs = .ok (key, ':' :: keyed))
    (hv : value budget room (skipSpace keyed) = .ok (v, rest))
    (hskip : skipSpace rest = '\x7d' :: after) :
    members (budget + 1) room done (doubleQuote :: cs) = .ok (.obj (insert key v done), after) := by
  rw [members, if_pos (by decide), hkey]
  dsimp only [bind, Except.bind]
  have hcolon : skipSpace (':' :: keyed) = ':' :: keyed := rfl
  simp only [hcolon, hv, hskip]

/-- A comma asks for one more member. -/
theorem members_comma {budget room : Nat} (done : List (String × Json)) {cs after : List Char}
    {key : String} {keyed rest : List Char} {v : Json}
    (hkey : stringBody cs = .ok (key, ':' :: keyed))
    (hv : value budget room (skipSpace keyed) = .ok (v, rest))
    (hskip : skipSpace rest = ',' :: after) :
    members (budget + 1) room done (doubleQuote :: cs) =
      members budget room (insert key v done) (skipSpace after) := by
  rw [members, if_pos (by decide), hkey]
  dsimp only [bind, Except.bind]
  have hcolon : skipSpace (':' :: keyed) = ':' :: keyed := rfl
  simp only [hcolon, hv, hskip]

/-- A new key goes to the end. -/
theorem insert_of_notMem {key : String} {members : List (String × Json)}
    (h : key ∉ members.map (·.1)) (v : Json) : insert key v members = members ++ [(key, v)] := by
  induction members with
  | nil => rfl
  | cons m rest ih =>
    obtain ⟨k, w⟩ := m
    rw [List.map_cons, List.mem_cons, not_or] at h
    rw [insert, if_neg (by simpa using Ne.symm h.1), ih h.2]
    rfl

/-! ### Following the reader over a written value -/

/-- A value starts with a token: neither with white space nor with a closing bracket, nor with a
byte order mark. -/
theorem exists_cons_spaced (layout : Spacing) (depth : Nat) {v : Json} (hv : Readable v) :
    ∃ c rest, spaced layout depth v = c :: rest ∧
      isSpace c = false ∧ c ≠ ']' ∧ c ≠ '\uFEFF' := by
  match v with
  | arr [] | obj [] | arr (_ :: _) | obj (_ :: _) | null | bool true | bool false | str _ =>
    exact ⟨_, _, rfl, by decide⟩
  | int i =>
    obtain ⟨c, rest, hrest, hc⟩ := exists_cons_of_startsNumber (startsNumber_intChars i [])
    rw [List.append_nil] at hrest
    have hne (d : Char) (hd : d ≠ '-' ∧ d.isDigit = false) : c ≠ d := ne_of_signOrDigit hc hd
    refine ⟨c, rest, hrest, ?_, hne _ (by decide), hne _ (by decide)⟩
    simp [isSpace, hne ' ' (by decide), hne '\t' (by decide), hne '\n' (by decide),
      hne '\r' (by decide)]

/-- The blank behind a colon is skipped. -/
theorem skipSpace_spaced (layout : Spacing) (depth : Nat) {v : Json} (hv : Readable v)
    {rest : List Char} :
    skipSpace (' ' :: spaced layout depth v ++ rest) = spaced layout depth v ++ rest := by
  obtain ⟨c, more, hmore, hspace, -⟩ := exists_cons_spaced layout depth hv
  have hblank : ∀ d ∈ [' '], isSpace d = true := List.all_eq_true.1 rfl
  exact skipSpace_append hblank _ (by simpa [hmore] using hspace)

/-- The key of the next member is new. -/
theorem notMem_of_nodup {done mems : List (String × Json)} {k : String} {v : Json}
    (h : ((done ++ (k, v) :: mems).map (·.1)).Nodup) : k ∉ done.map (·.1) := by
  rw [List.map_append, List.map_cons] at h
  intro hk
  exact (List.disjoint_of_nodup_append h) hk List.mem_cons_self

/-- The elements of an array start with the first of them. -/
theorem exists_cons_spacedItems (layout : Spacing) (depth : Nat) {v : Json} (hv : Readable v)
    (rest : List Json) (after : List Char) :
    ∃ c more, spacedItems layout depth (v :: rest) ++ after = c :: more ∧
      isSpace c = false ∧ c ≠ ']' := by
  obtain ⟨c, more, hmore, hspace, hclose, -⟩ := exists_cons_spaced layout depth hv
  cases rest with
  | nil => exact ⟨c, more ++ after, by rw [spacedItems, hmore]; rfl, hspace, hclose⟩
  | cons w rest =>
    refine ⟨c, more ++ (',' :: layout.between depth ++ spacedItems layout depth (w :: rest)) ++
      after, ?_, hspace, hclose⟩
    rw [spacedItems, hmore]
    simp

/-- White space before the elements of an array is skipped. -/
theorem skipSpace_spacedItems (layout : Spacing) (depth : Nat) {v : Json} (hv : Readable v)
    (items : List Json) {gap : List Char} (hgap : ∀ c ∈ gap, isSpace c = true)
    (after : List Char) :
    skipSpace (gap ++ (spacedItems layout depth (v :: items) ++ after)) =
      spacedItems layout depth (v :: items) ++ after := by
  obtain ⟨c, more, hmore, hspace, -⟩ := exists_cons_spacedItems layout depth hv items after
  exact skipSpace_append hgap _ (by simpa [hmore] using hspace)

/-- The members of an object start with the quote of the first key. -/
theorem exists_cons_spacedMembers (layout : Spacing) (depth : Nat) (m : String × Json)
    (rest : List (String × Json)) (after : List Char) :
    ∃ more, spacedMembers layout depth (m :: rest) ++ after = doubleQuote :: more := by
  obtain ⟨k, v⟩ := m
  cases rest <;> exact ⟨_, rfl⟩

/-- White space before the members of an object is skipped. -/
theorem skipSpace_spacedMembers (layout : Spacing) (depth : Nat) (m : String × Json)
    (rest : List (String × Json)) {gap : List Char} (hgap : ∀ c ∈ gap, isSpace c = true)
    (after : List Char) :
    skipSpace (gap ++ (spacedMembers layout depth (m :: rest) ++ after)) =
      spacedMembers layout depth (m :: rest) ++ after := by
  obtain ⟨more, hmore⟩ := exists_cons_spacedMembers layout depth m rest after
  exact skipSpace_append hgap _ (by simpa [hmore] using by decide)

mutual

/-- **A written value is taken as a whole** where there is room for it, whatever follows it, with
two units of the budget for each of its characters. -/
theorem value_spaced (layout : Spacing) : ∀ (v : Json) (depth budget room : Nat)
    (rest : List Char), Readable v → Fits room v → EndsNumber rest →
    2 * (spaced layout depth v).length ≤ budget →
    value budget room (spaced layout depth v ++ rest) = .ok (v, rest)
  | arr [], _, budget + 1, room, _, _, hfit, _, _ => by
    obtain ⟨room, rfl⟩ := Nat.exists_eq_add_of_le' hfit.1
    rfl
  | arr (v :: items), depth, budget + 1, room, rest, hv, hfit, _, hb => by
    simp only [spaced, List.length_append, List.length_cons, List.length_nil] at hb
    have hread : ReadableItems (v :: items) := hv
    obtain ⟨c, more, hmore, -, hclose⟩ := exists_cons_spacedItems layout (depth + 1) hread.1
      items (layout.outside depth ++ ']' :: rest)
    have hskip := skipSpace_spacedItems layout (depth + 1) hread.1 items
      (layout.isSpace_inside (depth + 1)) (layout.outside depth ++ ']' :: rest)
    have hopen : (spacedItems layout (depth + 1) (v :: items) ++
        (layout.outside depth ++ ']' :: rest)).head? ≠ some ']' := by
      simpa [hmore] using hclose
    have helems := elements_spaced layout (v :: items) (depth + 1) budget (room - 1) []
      _ rest (List.cons_ne_nil _ _) hread hfit.2 (layout.isSpace_outside depth) (by omega)
    rw [spaced]
    simp only [List.cons_append, List.append_assoc, List.nil_append]
    rw [value_openBracket hfit.1 hskip hopen, helems]
    rfl
  | obj [], _, budget + 1, room, _, _, hfit, _, _ => by
    obtain ⟨room, rfl⟩ := Nat.exists_eq_add_of_le' hfit.1
    rfl
  | obj (m :: mems), depth, budget + 1, room, rest, hv, hfit, _, hb => by
    simp only [spaced, List.length_append, List.length_cons, List.length_nil] at hb
    obtain ⟨more, hmore⟩ := exists_cons_spacedMembers layout (depth + 1) m mems
      (layout.outside depth ++ '\x7d' :: rest)
    have hskip := skipSpace_spacedMembers layout (depth + 1) m mems
      (layout.isSpace_inside (depth + 1)) (layout.outside depth ++ '\x7d' :: rest)
    have hopen : (spacedMembers layout (depth + 1) (m :: mems) ++
        (layout.outside depth ++ '\x7d' :: rest)).head? ≠ some '\x7d' := by
      simpa [hmore] using by decide
    have hmems := members_spaced layout (m :: mems) (depth + 1) budget (room - 1) []
      _ rest (List.cons_ne_nil _ _) hv.1 hv.2 hfit.2 (layout.isSpace_outside depth) (by omega)
    rw [spaced]
    simp only [List.cons_append, List.append_assoc, List.nil_append]
    rw [value_openBrace hfit.1 hskip hopen, hmems]
    rfl
  | null, _, budget + 1, _, _, _, _, _, _ => rfl
  | bool true, _, budget + 1, _, _, _, _, _, _ => rfl
  | bool false, _, budget + 1, _, _, _, _, _, _ => rfl
  | int i, _, budget + 1, _, rest, _, hfit, hr, _ =>
    value_int (startsNumber_intChars i rest) (number?_intChars i hr) hfit
  | str s, _, budget + 1, _, rest, _, _, _, _ => by
    rw [spaced, scalarChars, quoted, List.cons_append, List.cons_append, List.append_assoc]
    exact value_doubleQuote (stringBody_quoted s rest)
  | v, depth, 0, _, _, hv, _, _, hb => by
    obtain ⟨c, rest, hrest, -⟩ := exists_cons_spaced layout depth hv
    rw [hrest] at hb
    exact absurd hb (by simp)

/-- The elements of an array are taken up to its closing bracket. -/
theorem elements_spaced (layout : Spacing) : ∀ (items : List Json) (depth budget room : Nat)
    (done : List Json) (gap rest : List Char), items ≠ [] → ReadableItems items →
    FitsItems room items → (∀ c ∈ gap, isSpace c = true) →
    2 * (spacedItems layout depth items).length + 1 ≤ budget →
    elements budget room done (spacedItems layout depth items ++ (gap ++ ']' :: rest)) =
      .ok (.arr (done.reverse ++ items), rest)
  | [], _, _, _, _, _, _, h, _, _, _, _ => absurd rfl h
  | [v], depth, budget + 1, room, done, gap, rest, _, hread, hfit, hgap, hb => by
    rw [spacedItems] at hb ⊢
    have hv := value_spaced layout v depth budget room _ hread.1 hfit.1
      (endsNumber_gap hgap ']' (by decide) rest) (by omega)
    exact elements_close hv (skipSpace_append hgap (']' :: rest) (by simp [isSpace]))
  | v :: w :: items, depth, budget + 1, room, done, gap, rest, _, hread, hfit, hgap, hb => by
    simp only [spacedItems, List.length_append, List.length_cons] at hb
    have hv := value_spaced layout v depth budget room
      (',' :: (layout.between depth ++
        (spacedItems layout depth (w :: items) ++ (gap ++ ']' :: rest))))
      hread.1 hfit.1 (endsNumber_cons (by decide)) (by omega)
    have hskip := skipSpace_spacedItems layout depth hread.2.1 items
      (layout.isSpace_between depth) (gap ++ ']' :: rest)
    have ih := elements_spaced layout (w :: items) depth budget room (v :: done)
      _ rest (List.cons_ne_nil _ _) hread.2 hfit.2 hgap (by omega)
    rw [spacedItems]
    simp only [List.append_assoc, List.cons_append]
    rw [elements_comma hv rfl, hskip, ih, List.reverse_cons, List.append_assoc]
    rfl

/-- The members of an object are taken up to its closing brace. -/
theorem members_spaced (layout : Spacing) : ∀ (mems : List (String × Json))
    (depth budget room : Nat) (done : List (String × Json)) (gap rest : List Char), mems ≠ [] →
    ((done ++ mems).map (·.1)).Nodup → ReadableMembers mems → FitsMembers room mems →
    (∀ c ∈ gap, isSpace c = true) → 2 * (spacedMembers layout depth mems).length + 1 ≤ budget →
    members budget room done (spacedMembers layout depth mems ++ (gap ++ '\x7d' :: rest)) =
      .ok (.obj (done ++ mems), rest)
  | [], _, _, _, _, _, _, h, _, _, _, _, _ => absurd rfl h
  | [(k, v)], depth, budget + 1, room, done, gap, rest, _, hkeys, hread, hfit, hgap, hb => by
    simp only [spacedMembers, List.length_append, List.length_cons] at hb
    have hkey := stringBody_quoted k
      (':' :: ' ' :: spaced layout depth v ++ (gap ++ '\x7d' :: rest))
    have hv := value_spaced layout v depth budget room _ hread.1 hfit.1
      (endsNumber_gap hgap '\x7d' (by decide) rest) (by omega)
    rw [← skipSpace_spaced layout depth hread.1] at hv
    have hclose := members_close done hkey hv
      (skipSpace_append hgap ('\x7d' :: rest) (by simp [isSpace]))
    rw [insert_of_notMem (notMem_of_nodup hkeys)] at hclose
    rw [spacedMembers, quoted]
    simpa using hclose
  | (k, v) :: m :: mems, depth, budget + 1, room, done, gap, rest, _, hkeys, hread, hfit, hgap,
      hb => by
    simp only [spacedMembers, List.length_append, List.length_cons] at hb
    have hkey := stringBody_quoted k
      (':' :: ' ' :: spaced layout depth v ++ ',' :: (layout.between depth ++
        (spacedMembers layout depth (m :: mems) ++ (gap ++ '\x7d' :: rest))))
    have hv := value_spaced layout v depth budget room
      (',' :: (layout.between depth ++
        (spacedMembers layout depth (m :: mems) ++ (gap ++ '\x7d' :: rest))))
      hread.1 hfit.1 (endsNumber_cons (by decide)) (by omega)
    rw [← skipSpace_spaced layout depth hread.1] at hv
    have hskip := skipSpace_spacedMembers layout depth m mems (layout.isSpace_between depth)
      (gap ++ '\x7d' :: rest)
    have ih := members_spaced layout (m :: mems) depth budget room (done ++ [(k, v)])
      _ rest (List.cons_ne_nil _ _) (by simpa using hkeys) hread.2 hfit.2 hgap (by omega)
    have hcomma := members_comma done hkey hv rfl
    rw [insert_of_notMem (notMem_of_nodup hkeys), hskip, ih] at hcomma
    rw [spacedMembers, quoted]
    simpa using hcomma

end

/-! ### Whole texts -/

/-- **A written value that fits reads back**, under every layout and with white space behind it. -/
theorem parseChars_spaced (layout : Spacing) (depth : Nat) {v : Json} (hv : Readable v)
    (hfit : Fits depthLimit v) {gap : List Char} (hgap : ∀ c ∈ gap, isSpace c = true) :
    parseChars (spaced layout depth v ++ gap) = .ok v := by
  obtain ⟨c, more, hmore, hspace, -, hmark⟩ := exists_cons_spaced layout depth hv
  have hskip : skipSpace (spaced layout depth v ++ gap) = spaced layout depth v ++ gap :=
    skipSpace_append (List.forall_mem_nil _) _ (by simpa [hmore] using hspace)
  have hread := value_spaced layout v depth
    (2 * (spaced layout depth v ++ gap).length + 2) depthLimit gap hv hfit
    (endsNumber_of_isSpace hgap) (by rw [List.length_append]; omega)
  have hend : skipSpace gap = [] := by
    simpa using skipSpace_append hgap [] (by simp)
  rw [parseChars, hskip, hread]
  · simp only [hend]
  · rintro tail htail
    rw [hmore, List.cons_append, List.cons.injEq] at htail
    exact hmark htail.1

/-- **A value written on one line reads back.** -/
theorem parse_compact {v : Json} (hv : Readable v) (hfit : Fits depthLimit v) :
    parse v.compact = .ok v := by
  rw [parse, compact, String.toList_ofList, compactChars_eq 0,
    ← List.append_nil (spaced _ 0 v), parseChars_spaced _ _ hv hfit (List.forall_mem_nil _)]
  rfl

/-- **A value written over several lines reads back**, with white space behind it. -/
theorem parse_pretty {v : Json} (hv : Readable v) (hfit : Fits depthLimit v) {gap : String}
    (hgap : ∀ c ∈ gap.toList, isSpace c = true) : parse (v.pretty ++ gap) = .ok v := by
  rw [parse, String.toList_append, pretty, String.toList_ofList, prettyChars_eq,
    parseChars_spaced _ _ hv hfit hgap]
  rfl

end LintReport.Json
