import LintReport.Proofs.Loop
import LintReport.Proofs.Yaml.ListingGraph

/-!
# The Value of a Listing

The mapping of a listing is filled before its sequence, and the lines are read when the sequence is
filled. The first line that cannot be read ends it all; otherwise every line has its scalar, and
nothing that was recorded before has changed.

## Main definitions

* `readPlain`: the scalar that a plain text is read as.
* `Value.IsListing`: a value that is one key with a list of scalars.

## Main results

* `Builder.meet_plain`: a plain scalar is read by its form.
* `Builder.meetAll_plain`: **scalars that stand in a row** are read one after another.
* `Value.ofGraph_listing`, `loadOne_listing`: **a listing loads as its key and its lines**.
-/

namespace LintReport.Yaml

/-- The scalar that a plain text is read as, by its form alone. -/
def readPlain (text : String) : Except Fault Scalar :=
  if [Tag.merge, .value, .other].contains (Tag.ofPlain text) then .error .malformed
  else Scalar.read (Tag.ofPlain text) text

/-- Whether a value is a mapping with one key, under which some scalars are listed. -/
structure Value.IsListing (v : Value) (key : String) (scalars : List Scalar) : Prop where
  root : v.at? v.root = some (.map [(1, 2)])
  key : v.str? 1 = some key
  sequence : v.at? 2 = some (.list (List.range' 3 scalars.length))
  items : ∀ i (h : i < scalars.length), v.at? (3 + i) = some (.scalar scalars[i])

namespace Builder

variable {s : Builder}

/-- A step after one that has failed. -/
theorem run_bind_error {α β : Type} {x : Step α} {f : α → Step β} {fault : Fault}
    (h : x.run s = .error fault) : (x >>= f).run s = .error fault := by
  rw [StateT.run_bind, h]
  rfl

/-- What is found among others than those of a node. -/
theorem lookup_filter_ne {data : List (NodeId × Datum)} {id k : NodeId} (h : k ≠ id) :
    (data.filter fun e => e.1 != id).lookup k = data.lookup k := by
  induction data with
  | nil => rfl
  | cons e data ih =>
    obtain ⟨other, d⟩ := e
    by_cases hother : other = id
    · rw [List.filter_cons_of_neg (by simp [hother]), ih, List.lookup_cons,
        beq_false_of_ne (hother ▸ h)]
    · rw [List.filter_cons_of_pos (by simp [hother]), List.lookup_cons, List.lookup_cons, ih]

/-- What is found after a node has been recorded. -/
theorem lookup_recorded (data : List (NodeId × Datum)) (id k : NodeId) (d : Datum) :
    ((id, d) :: data.filter fun e => e.1 != id).lookup k =
      if k = id then some d else data.lookup k := by
  by_cases h : k = id
  · simp [h]
  · rw [if_neg h, List.lookup_cons, beq_false_of_ne h, lookup_filter_ne h]

/-- No plain scalar has the tag of a collection. -/
theorem emptyCollection?_ofPlain (text : String) : emptyCollection? (Tag.ofPlain text) = none := by
  unfold Tag.ofPlain
  dsimp only
  split_ifs <;> rfl

/-- A node that holds a text is read by its tag. -/
theorem scalarOf_scalar {g : Graph} {id : NodeId} {tag : Tag} {text : String}
    (h : g.node id = ⟨tag, .scalar text⟩) : scalarOf g id = Scalar.read tag text := by
  have htext : scalarText g (g.nodes.size + 1) id = .ok text := by rw [scalarText, h]
  have hbind (f : String → Except Fault Scalar) :
      (scalarText g (g.nodes.size + 1) id >>= f) = f text := by
    rw [htext]
    rfl
  rw [scalarOf]
  rw [hbind, h]
  cases tag <;> dsimp only

/-- **A plain scalar is read by its form** when it is met. -/
theorem meet_plain {id : NodeId} {text : String} (hnode : s.graph.node id = Composer.plainNode text)
    (hfresh : s.data.lookup id = none) :
    (meet id).run s =
      match readPlain text with
      | .error fault => .error fault
      | .ok scalar => .ok ((), { s with
          data := (id, .scalar scalar) :: s.data.filter fun e => e.1 != id }) := by
  have hscalar : scalarOf s.graph id = Scalar.read (Tag.ofPlain text) text := scalarOf_scalar hnode
  have htag : (s.graph.node id).tag = Tag.ofPlain text := by rw [hnode, Composer.plainNode]
  rw [meet, run_bind rfl, hfresh, Option.isSome_none, if_neg Bool.false_ne_true]
  dsimp only
  rw [htag, emptyCollection?_ofPlain, readPlain]
  dsimp only
  split
  · rfl
  · rw [hscalar]
    cases Scalar.read (Tag.ofPlain text) text with
    | error fault => rfl
    | ok scalar => rfl

/-- Meets some nodes, one after another. -/
def meetAll (items : List NodeId) : Step Unit := do
  for item in items do meet item

theorem meetAll_cons (id : NodeId) (items : List NodeId) :
    meetAll (id :: items) = meet id >>= fun _ => meetAll items := by
  simp [meetAll]

/-- **Plain scalars that stand in a row** are read one after another, up to the first fault. -/
theorem meetAll_plain {texts : List String} {first : Nat}
    (hnodes : ∀ i (h : i < texts.length), s.graph.node (first + i) = Composer.plainNode texts[i])
    (hfresh : ∀ id : Nat, first ≤ id → s.data.lookup id = none) :
    match texts.mapM readPlain with
    | .error fault => (meetAll (List.range' first texts.length)).run s = .error fault
    | .ok scalars => ∃ data,
        (meetAll (List.range' first texts.length)).run s = .ok ((), { s with data := data }) ∧
          (∀ id : Nat, id < first → data.lookup id = s.data.lookup id) ∧
          ∀ i (h : i < scalars.length), data.lookup (first + i) = some (.scalar scalars[i]) := by
  induction texts generalizing s first with
  | nil => exact ⟨s.data, rfl, fun _ _ => rfl, fun i h => absurd h (Nat.not_lt_zero i)⟩
  | cons text texts ih =>
    have hfirst : s.graph.node first = Composer.plainNode text := hnodes 0 (Nat.zero_lt_succ _)
    have hmeet := meet_plain hfirst (hfresh first (Nat.le_refl first))
    rw [List.length_cons, List.range'_succ, meetAll_cons, List.mapM_cons]
    cases hread : readPlain text with
    | error fault =>
      rw [hread] at hmeet
      exact run_bind_error hmeet
    | ok scalar =>
      rw [hread] at hmeet
      rw [run_bind hmeet]
      have hrest := @ih { s with
          data := (first, .scalar scalar) :: s.data.filter fun e => e.1 != first }
        (first + 1) (fun i h => by
          have hnode := hnodes (i + 1) (Nat.succ_lt_succ h)
          rwa [List.getElem_cons_succ, Nat.add_comm i, ← Nat.add_assoc] at hnode)
        (fun id hid => by
          rw [lookup_recorded, if_neg (Nat.ne_of_gt hid)]
          exact hfresh id (Nat.le_of_lt hid))
      cases hmore : texts.mapM readPlain with
      | error fault =>
        rw [hmore] at hrest
        exact hrest
      | ok scalars =>
        rw [hmore] at hrest
        obtain ⟨data, hrun, hbefore, hitems⟩ := hrest
        refine ⟨data, hrun, fun id hid => ?_, fun i hi => ?_⟩
        · rw [hbefore id (Nat.lt_succ_of_lt hid), lookup_recorded, if_neg (Nat.ne_of_lt hid)]
        · cases i with
          | zero =>
            rw [Nat.add_zero, hbefore first (Nat.lt_succ_self first), lookup_recorded, if_pos rfl]
            rfl
          | succ i =>
            have hitem := hitems i (Nat.lt_of_succ_lt_succ hi)
            rw [Nat.add_right_comm] at hitem
            exact hitem

/-- A collection is put off when it is met. -/
theorem meet_collection {id : NodeId} {d : Datum}
    (htag : emptyCollection? (s.graph.node id).tag = some d) (hfresh : s.data.lookup id = none) :
    (meet id).run s = .ok ((), { s with
      data := (id, d) :: s.data.filter fun e => e.1 != id
      unfilled := s.unfilled ++ [id] }) := by
  rw [meet, run_bind rfl, hfresh, Option.isSome_none, if_neg Bool.false_ne_true]
  dsimp only
  rw [htag]
  rfl

/-- The collection that was met first is filled first. -/
theorem fillAll_cons {id : NodeId} {rest : List NodeId} (h : s.unfilled = id :: rest)
    (budget : Nat) :
    (fillAll (budget + 1)).run s =
      (fill id >>= fun _ => fillAll budget).run { s with unfilled := rest } := by
  rw [fillAll, run_bind rfl, h]
  rfl

/-- When no collection is left, all are filled. -/
theorem fillAll_nil (h : s.unfilled = []) (budget : Nat) :
    (fillAll (budget + 1)).run s = .ok ((), s) := by
  rw [fillAll, run_bind rfl, h]
  rfl

/-! ### The mapping and the sequence of a listing -/

section Listing

variable {g : Graph} {key : String}

theorem run_members {id : NodeId} {ms : List (NodeId × NodeId)}
    (h : (s.graph.node id).content = .mapping ms) : (members id).run s = .ok (ms, s) := by
  rw [members, run_bind rfl, h]
  rfl

/-- A mapping whose only key is an ordinary string has nothing to merge. -/
theorem flatten_single {k v : NodeId} {id : NodeId}
    (hid : (s.graph.node id).content = .mapping [(k, v)]) (hkey : (s.graph.node k).tag = .str)
    (budget : Nat) : (flatten (budget + 1) id).run s = .ok ((), s) := by
  have hspecial : isSpecialKey s.graph k = false := by
    rw [isSpecialKey, hkey]
    rfl
  rw [flatten, run_bind (run_members hid), run_bind rfl]
  dsimp only
  rw [List.any_cons, List.any_nil, hspecial, Bool.false_or, if_neg Bool.false_ne_true]
  rfl

/-- Filling the mapping of a listing reads its key and puts off its sequence. -/
theorem fill_mapping (hroot : g.node 0 = ⟨.map, .mapping [(1, 2)]⟩)
    (hkey : g.node 1 = Composer.plainNode key) (hplain : Tag.ofPlain key = .str)
    (hsequence : (g.node 2).tag = .seq) :
    (fill 0).run ⟨g, [(0, .map [])], []⟩ =
      .ok ((), ⟨g, [(0, .map [(1, 2)]), (2, .list []), (1, .scalar (.str key))], [2]⟩) := by
  have hcontent : (g.node 0).content = .mapping [(1, 2)] := by rw [hroot]
  have htag : (g.node 1).tag = .str := by rw [hkey, Composer.plainNode, hplain]
  have hflatten := flatten_single (s := ⟨g, [(0, .map [])], []⟩) hcontent htag g.nodes.size
  have hread : readPlain key = .ok (.str key) := by
    rw [readPlain, hplain]
    rfl
  have hmeetKey : (meet 1).run ⟨g, [(0, .map [])], []⟩ =
      .ok ((), ⟨g, [(1, .scalar (.str key)), (0, .map [])], []⟩) := by
    rw [meet_plain (s := ⟨g, [(0, .map [])], []⟩) hkey rfl, hread]
    rfl
  have hmeet : (meet 2).run ⟨g, [(1, .scalar (.str key)), (0, .map [])], []⟩ =
      .ok ((), ⟨g, [(2, .list []), (1, .scalar (.str key)), (0, .map [])], [2]⟩) :=
    meet_collection (by rw [hsequence]; rfl) rfl
  have hmembers : (meetMembers [(1, 2)]).run ⟨g, [(0, .map [])], []⟩ = .ok ([(1, 2)],
    ⟨g, [(2, .list []), (1, .scalar (.str key)), (0, .map [])], [2]⟩) := by
    rw [meetMembers, List.foldlM_cons]
    dsimp only
    rw [bind_assoc, meetKey, bind_assoc, run_bind hmeetKey, bind_assoc, run_bind rfl]
    change (pure _ >>= _ : Step _).run _ = _
    rw [pure_bind, bind_assoc, run_bind hmeet]
    rfl
  rw [fill, run_bind rfl]
  dsimp only
  rw [hroot]
  dsimp only
  rw [run_bind rfl, run_bind hflatten, run_bind (run_members hcontent), run_bind hmembers]
  rfl

/-- Filling the sequence of a listing reads its lines. -/
theorem fill_sequence {texts : List String} {data : List (NodeId × Datum)}
    (hsequence : g.node 2 = ⟨.seq, .sequence (List.range' 3 texts.length)⟩)
    (hnodes : ∀ i (h : i < texts.length), g.node (3 + i) = Composer.plainNode texts[i])
    (hfresh : ∀ id : Nat, 3 ≤ id → data.lookup id = none) :
    match texts.mapM readPlain with
    | .error fault => (fill 2).run ⟨g, data, []⟩ = .error fault
    | .ok scalars => ∃ after, (fill 2).run ⟨g, data, []⟩ = .ok ((), ⟨g, after, []⟩) ∧
        after.lookup 0 = data.lookup 0 ∧ after.lookup 1 = data.lookup 1 ∧
        after.lookup 2 = some (.list (List.range' 3 texts.length)) ∧
        ∀ i (h : i < scalars.length), after.lookup (3 + i) = some (.scalar scalars[i]) := by
  have hitems := meetAll_plain (s := ⟨g, data, []⟩) hnodes hfresh
  have hfill : (fill 2).run ⟨g, data, []⟩ = (do
      meetAll (List.range' 3 texts.length)
      record 2 (.list (List.range' 3 texts.length)) : Step Unit).run ⟨g, data, []⟩ := by
    rw [fill, run_bind rfl]
    dsimp only
    rw [hsequence]
    simp [meetAll]
  rw [hfill]
  cases hread : texts.mapM readPlain with
  | error fault =>
    rw [hread] at hitems
    exact run_bind_error hitems
  | ok scalars =>
    rw [hread] at hitems
    obtain ⟨after, hrun, hbefore, hscalars⟩ := hitems
    refine ⟨_, run_bind hrun, ?_, ?_, ?_, fun i hi => ?_⟩
    · rw [lookup_recorded, if_neg (by decide), hbefore 0 (by decide)]
    · rw [lookup_recorded, if_neg (by decide), hbefore 1 (by decide)]
    · rw [lookup_recorded, if_pos rfl]
    · have hlater : 3 + i ≠ 2 := by omega
      rw [lookup_recorded, if_neg hlater, hscalars i hi]

end Listing

end Builder

namespace Composer

/-! ### The nodes of a listing -/

variable {key : String} {texts : List String}

theorem node_zero : (listingGraph key texts).node 0 = ⟨.map, .mapping [(1, 2)]⟩ := by
  simp [listingGraph, Graph.node]

theorem node_one : (listingGraph key texts).node 1 = plainNode key := by
  simp [listingGraph, Graph.node]

theorem node_two :
    (listingGraph key texts).node 2 = ⟨.seq, .sequence (List.range' 3 texts.length)⟩ := by
  simp [listingGraph, Graph.node]

theorem node_item {i : Nat} (h : i < texts.length) :
    (listingGraph key texts).node (3 + i) = plainNode texts[i] := by
  rw [listingGraph, Graph.node, Array.getD_eq_getD_getElem?, Array.getElem?_append,
    if_neg (by simp)]
  simp [h]

end Composer

open Composer

/-- **The value of the document of a listing**: its lines are read by their form. -/
theorem Value.ofGraph_listing {key : String} (hplain : Tag.ofPlain key = .str)
    (texts : List String) :
    match texts.mapM readPlain with
    | .error fault => Value.ofGraph (listingGraph key texts) 0 = .error fault
    | .ok scalars => ∃ v, Value.ofGraph (listingGraph key texts) 0 = .ok v ∧
        v.IsListing key scalars := by
  have hfillMapping := Builder.fill_mapping node_zero node_one hplain
    (congrArg Node.tag (@node_two key texts))
  have hfillSequence := @Builder.fill_sequence (listingGraph key texts) texts
    [(0, .map [(1, 2)]), (2, .list []), (1, .scalar (.str key))] node_two (fun i h => node_item h)
    fun id hid => by
      obtain ⟨n, rfl⟩ := Nat.exists_eq_add_of_le' hid
      rfl
  have hmeet : (Builder.meet 0).run ⟨listingGraph key texts, [], []⟩ =
      .ok ((), ⟨listingGraph key texts, [(0, .map [])], [0]⟩) :=
    Builder.meet_collection (by rw [node_zero]; rfl) rfl
  have hsize : (listingGraph key texts).nodes.size + 1 = texts.length + 4 := by
    simp [listingGraph]
  have hbuild : (Builder.meet 0 >>= fun _ => Builder.fillAll (texts.length + 4)).run
        ⟨listingGraph key texts, [], []⟩ =
      (Builder.fill 2 >>= fun _ => Builder.fillAll (texts.length + 2)).run
        ⟨listingGraph key texts, [(0, .map [(1, 2)]), (2, .list []), (1, .scalar (.str key))],
          []⟩ := by
    rw [run_bind hmeet, Builder.fillAll_cons rfl, run_bind hfillMapping, Builder.fillAll_cons rfl]
  rw [Value.ofGraph]
  dsimp only
  rw [hsize, hbuild]
  cases hread : texts.mapM readPlain with
  | error fault =>
    rw [hread] at hfillSequence
    rw [Builder.run_bind_error hfillSequence]
    rfl
  | ok scalars =>
    rw [hread] at hfillSequence
    obtain ⟨data, hrun, hroot, hkey, hsequence, hitems⟩ := hfillSequence
    rw [run_bind hrun, Builder.fillAll_nil rfl]
    exact ⟨⟨0, data⟩, rfl, hroot, by rw [Value.str?, Value.at?, hkey]; rfl, by
      rw [← (mapM_eq_ok_iff.1 hread).length_eq]
      exact hsequence, hitems⟩

/-- **A text with the tokens of a listing** loads as its key and its lines, unless one of these
cannot be read. -/
theorem loadOne_listing {key : String} (hplain : Tag.ofPlain key = .str) {texts : List String}
    {text : String} {stop : Fault}
    (htokens : Lexer.tokens text.toList = ⟨listingTokens key texts ++ [.streamEnd], stop⟩) :
    match texts.mapM readPlain with
    | .error fault => loadOne text = .error fault
    | .ok scalars => ∃ v, loadOne text = .ok (some v) ∧ v.IsListing key scalars := by
  have hload : loadOne text = (Value.ofGraph (listingGraph key texts) 0).map some := by
    obtain ⟨s, hend⟩ := @startDocument_atListingEnd key texts stop
    rw [loadOne, ofText, htokens]
    dsimp only
    rw [nextDocument_listing]
    change (do
      let found ← startDocument.run (atListingEnd key texts stop)
      if found.1.isSome then throw .malformed
      return some (← Value.ofGraph (listingGraph key texts) 0) : Except Fault (Option Value)) = _
    rw [hend]
    cases Value.ofGraph (listingGraph key texts) 0 with
    | error fault => rfl
    | ok v => rfl
  have hvalue := Value.ofGraph_listing hplain texts
  rw [hload]
  cases hread : texts.mapM readPlain with
  | error fault =>
    rw [hread] at hvalue
    rw [hvalue]
    rfl
  | ok scalars =>
    rw [hread] at hvalue
    obtain ⟨v, hv, hlisting⟩ := hvalue
    rw [hv]
    exact ⟨v, rfl, hlisting⟩

end LintReport.Yaml
