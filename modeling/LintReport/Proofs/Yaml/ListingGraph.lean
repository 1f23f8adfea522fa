import LintReport.Proofs.Yaml.Listing
import LintReport.Yaml.Load
import Mathlib.Tactic.Common

/-!
# The Document of a Listing

The tokens of a listing become four kinds of nodes: the mapping, its key, its sequence, and one node
for each line. They are numbered in this order, since a collection gets its number before its parts
are read. Neither anchors nor tags stand in a listing, so no step here looks at them.

## Main definitions

* `Composer.plainNode`: the node of a plain scalar.
* `Composer.listingGraph`, `Composer.listingTokens`: the nodes and the tokens of a listing.

## Main results

* `Composer.blockItems_run`: the entries of a block sequence are numbered one after another.
* `Composer.node_listing`: **a listing is one mapping with one member**.
* `Composer.nextDocument_listing`: a text with such tokens has one document.
-/

namespace LintReport.Yaml

/-- A step after one that has been made. -/
theorem run_bind {σ α β : Type} {x : StateT σ (Except Fault) α} {f : α → StateT σ (Except Fault) β}
    {s after : σ} {a : α} (h : x.run s = .ok (a, after)) :
    (x >>= f).run s = (f a).run after := by
  rw [StateT.run_bind, h]
  rfl

namespace Composer

variable {s : Composer} {t : Token} {rest : List Token}

/-- The node of a plain scalar. -/
def plainNode (text : String) : Node := ⟨Tag.ofPlain text, .scalar text⟩

/-- What is inside a node is read one level deeper. -/
theorem run_inside {step : Step NodeId} {id : NodeId} {after left : Composer}
    (hdepth : s.depth < depthLimit)
    (h : step.run { s with depth := s.depth + 1 } = .ok (id, after))
    (hleft : { after with depth := s.depth } = left) : (inside step).run s = .ok (id, left) := by
  have hfits : ¬depthLimit ≤ s.depth := by omega
  have hbody : (inside step).run s = (do
      let id ← step
      modify fun m => { m with depth := s.depth }
      return id : Step NodeId).run { s with depth := s.depth + 1 } := by
    rw [inside, run_bind rfl, if_neg hfits]
    rfl
  rw [hbody, run_bind h, ← hleft]
  rfl

theorem run_peek (h : s.tokens = t :: rest) : peek.run s = .ok (t, s) := by
  rw [peek, run_bind rfl, h]
  rfl

theorem run_sees (h : s.tokens = t :: rest) (ts : List Token) :
    (sees ts).run s = .ok (ts.contains t, s) := by
  rw [sees, run_bind (run_peek h)]
  rfl

theorem run_drop (h : s.tokens = t :: rest) : drop.run s = .ok ((), { s with tokens := rest }) := by
  obtain ⟨tokens, fault, handles, anchors, graph, depth, atStart⟩ := s
  obtain rfl : tokens = _ := h
  rfl

/-- A plain scalar without properties is a node without parts. -/
theorem node_scalar {text : String} (h : s.tokens = .scalar text true :: rest)
    (hdepth : s.depth < depthLimit) (budget : Nat) (block unindented : Bool) :
    (node (budget + 1) block unindented).run s =
      .ok (s.graph.nodes.size, { s with
        tokens := rest, graph := ⟨s.graph.nodes.push (plainNode text)⟩ }) := by
  obtain ⟨tokens, fault, handles, anchors, graph, depth, atStart⟩ := s
  obtain rfl : tokens = _ := h
  rw [node]
  exact run_inside hdepth rfl rfl

/-- A node that has to be there, or the one that stands for it. -/
theorem nodeUnless_scalar {text : String} (h : s.tokens = .scalar text true :: rest)
    (hdepth : s.depth < depthLimit) {ends : List Token}
    (hends : ends.contains (.scalar text true) = false) (budget : Nat) (block unindented : Bool) :
    (nodeUnless (budget + 2) block unindented ends).run s =
      .ok (s.graph.nodes.size, { s with
        tokens := rest, graph := ⟨s.graph.nodes.push (plainNode text)⟩ }) := by
  rw [nodeUnless, run_bind (run_sees h ends), hends, if_neg Bool.false_ne_true]
  exact node_scalar h hdepth budget block unindented

/-- **The entries of a block sequence of plain scalars** are numbered one after another. -/
theorem blockItems_run {texts : List String} (h : s.tokens = itemTokens texts ++ .blockEnd :: rest)
    (hdepth : s.depth < depthLimit) {budget : Nat} (hbudget : texts.length + 2 < budget)
    (done : List NodeId) :
    (blockItems budget done).run s =
      .ok (done ++ List.range' s.graph.nodes.size texts.length, { s with
        tokens := rest, graph := ⟨s.graph.nodes ++ (texts.map plainNode).toArray⟩ }) := by
  induction texts generalizing s budget done with
  | nil =>
    obtain ⟨budget, rfl⟩ : ∃ b, budget = b + 1 := ⟨budget - 1, by omega⟩
    rw [blockItems, run_bind (run_peek h)]
    dsimp only
    rw [run_bind (run_drop h)]
    simp
    rfl
  | cons text texts ih =>
    rw [List.length_cons] at hbudget
    obtain ⟨budget, rfl⟩ : ∃ b, budget = b + 3 := ⟨budget - 3, by omega⟩
    replace h : s.tokens =
      .blockEntry :: .scalar text true :: (itemTokens texts ++ .blockEnd :: rest) := h
    have hitem := @nodeUnless_scalar
      { s with tokens := .scalar text true :: (itemTokens texts ++ .blockEnd :: rest) } _ text rfl
      hdepth [.blockEntry, .blockEnd] rfl budget true false
    rw [blockItems, run_bind (run_peek h)]
    dsimp only
    rw [run_bind (run_drop h), run_bind hitem]
    refine (ih (s := { s with
      tokens := itemTokens texts ++ .blockEnd :: rest
      graph := ⟨s.graph.nodes.push (plainNode text)⟩ }) rfl hdepth (by omega) _).trans ?_
    simp [List.range'_succ]

/-- **A block sequence of plain scalars** stands before its entries. -/
theorem node_sequence {texts : List String}
    (h : s.tokens = .blockSequenceStart :: (itemTokens texts ++ .blockEnd :: rest))
    (hdepth : s.depth + 1 < depthLimit) {budget : Nat} (hbudget : texts.length + 2 < budget)
    (unindented : Bool) :
    (node (budget + 1) true unindented).run s =
      .ok (s.graph.nodes.size, { s with
        tokens := rest
        graph := ⟨s.graph.nodes.push
            ⟨.seq, .sequence (List.range' (s.graph.nodes.size + 1) texts.length)⟩ ++
          (texts.map plainNode).toArray⟩ }) := by
  obtain ⟨tokens, fault, handles, anchors, ⟨nodes⟩, depth, atStart⟩ := s
  obtain rfl : tokens = _ := h
  have hitems := blockItems_run (s := ⟨itemTokens texts ++ .blockEnd :: rest, fault, handles,
    anchors, ⟨nodes.push ⟨.seq, .sequence []⟩⟩, depth + 1, atStart⟩) rfl hdepth hbudget []
  rw [node]
  apply run_inside (Nat.lt_of_succ_lt hdepth)
  case h =>
    change (blockItems budget [] >>= fun ids => fill nodes.size (.sequence ids)).run
      ⟨itemTokens texts ++ .blockEnd :: rest, fault, handles, anchors,
        ⟨nodes.push ⟨.seq, .sequence []⟩⟩, depth + 1, atStart⟩ = _
    rw [run_bind hitems]
    rfl
  case hleft => simp [Graph.setContent, Graph.node]

/-- The value of the key of a listing. -/
theorem valueUnless_sequence {texts : List String}
    (h : s.tokens = .value :: .blockSequenceStart :: (itemTokens texts ++ .blockEnd :: rest))
    (hdepth : s.depth + 1 < depthLimit) {budget : Nat} (hbudget : texts.length + 2 < budget)
    {ends : List Token} (hends : ends.contains .blockSequenceStart = false) (unindented : Bool) :
    (valueUnless (budget + 3) true unindented ends).run s =
      .ok (s.graph.nodes.size, { s with
        tokens := rest
        graph := ⟨s.graph.nodes.push
            ⟨.seq, .sequence (List.range' (s.graph.nodes.size + 1) texts.length)⟩ ++
          (texts.map plainNode).toArray⟩ }) := by
  have hvalue : [Token.value].contains .value = true := rfl
  have hnode := node_sequence (s := { s with
    tokens := .blockSequenceStart :: (itemTokens texts ++ .blockEnd :: rest) }) rfl hdepth hbudget
    unindented
  rw [valueUnless, run_bind (run_sees h _), hvalue, if_pos rfl, run_bind (run_drop h), nodeUnless,
    run_bind (run_sees rfl ends), hends, if_neg Bool.false_ne_true, hnode]

/-- The nodes of a listing: its mapping, its key, its sequence and its lines. -/
def listingGraph (key : String) (texts : List String) : Graph :=
  ⟨#[⟨.map, .mapping [(1, 2)]⟩, plainNode key, ⟨.seq, .sequence (List.range' 3 texts.length)⟩] ++
    (texts.map plainNode).toArray⟩

/-- The tokens of a listing up to the end of its mapping. -/
def listingTokens (key : String) (texts : List String) : List Token :=
  .blockMappingStart :: .key :: .scalar key true :: .value :: .blockSequenceStart ::
    (itemTokens texts ++ [.blockEnd, .blockEnd])

/-- The member of the mapping of a listing. -/
theorem blockMembers_run {key : String} {texts : List String}
    (h : s.tokens = .key :: .scalar key true :: .value :: .blockSequenceStart ::
      (itemTokens texts ++ .blockEnd :: .blockEnd :: rest))
    (hdepth : s.depth + 1 < depthLimit) {budget : Nat} (hbudget : texts.length + 2 < budget) :
    (blockMembers (budget + 4) []).run s =
      .ok ([(s.graph.nodes.size, s.graph.nodes.size + 1)], { s with
        tokens := rest
        graph := ⟨(s.graph.nodes.push (plainNode key)).push
            ⟨.seq, .sequence (List.range' (s.graph.nodes.size + 2) texts.length)⟩ ++
          (texts.map plainNode).toArray⟩ }) := by
  have hkey := nodeUnless_scalar (s := { s with
    tokens := .scalar key true :: .value :: .blockSequenceStart ::
      (itemTokens texts ++ .blockEnd :: .blockEnd :: rest) }) rfl (Nat.lt_of_succ_lt hdepth)
    (show [Token.key, .value, .blockEnd].contains (.scalar key true) = false from rfl) (budget + 1)
    true true
  have hvalue := valueUnless_sequence (s := { s with
    tokens := .value :: .blockSequenceStart ::
      (itemTokens texts ++ .blockEnd :: .blockEnd :: rest)
    graph := ⟨s.graph.nodes.push (plainNode key)⟩ }) rfl hdepth hbudget
    (show [Token.key, .value, .blockEnd].contains .blockSequenceStart = false from rfl) true
  rw [blockMembers, run_bind (run_peek h)]
  dsimp only
  rw [run_bind (run_drop h), run_bind hkey, run_bind hvalue, blockMembers, run_bind (run_peek rfl)]
  dsimp only
  rw [run_bind (run_drop rfl)]
  simp
  rfl

/-- **A listing is one mapping with one member.** -/
theorem node_listing {key : String} {texts : List String} {fault : Fault}
    {handles : List (String × String)} {anchors : List (String × NodeId)} {atStart : Bool}
    {budget : Nat} (hbudget : texts.length + 7 < budget) :
    (node budget true false).run
        ⟨listingTokens key texts ++ rest, fault, handles, anchors, {}, 0, atStart⟩ =
      .ok (0, ⟨rest, fault, handles, anchors, listingGraph key texts, 0, atStart⟩) := by
  obtain ⟨budget, rfl⟩ : ∃ b, budget = b + 5 := ⟨budget - 5, by omega⟩
  have hmembers := blockMembers_run (s := ⟨.key :: .scalar key true :: .value ::
      .blockSequenceStart :: (itemTokens texts ++ .blockEnd :: .blockEnd :: rest), fault, handles,
    anchors, ⟨#[⟨.map, .mapping []⟩]⟩, 1, atStart⟩) rfl
    (show 2 < depthLimit by decide) (show texts.length + 2 < budget by omega)
  have htokens : listingTokens key texts ++ rest = .blockMappingStart :: .key :: .scalar key true ::
      .value :: .blockSequenceStart :: (itemTokens texts ++ .blockEnd :: .blockEnd :: rest) := by
    simp [listingTokens]
  rw [htokens, node]
  apply run_inside (show 0 < depthLimit by decide)
  case h =>
    change (blockMembers (budget + 4) [] >>= fun ms => fill 0 (.mapping ms)).run
      ⟨.key :: .scalar key true :: .value :: .blockSequenceStart ::
        (itemTokens texts ++ .blockEnd :: .blockEnd :: rest), fault, handles, anchors,
        ⟨#[⟨.map, .mapping []⟩]⟩, 1, atStart⟩ = _
    rw [run_bind hmembers]
    rfl
  case hleft => simp [Graph.setContent, Graph.node, listingGraph]

/-! ### The document -/

/-- The state at the end of a text with one listing. -/
def atListingEnd (key : String) (texts : List String) (fault : Fault) : Composer :=
  { tokens := [.streamEnd]
    fault := fault
    handles := defaultHandles
    graph := listingGraph key texts
    atStart := false }

/-- The content of the document of a listing. -/
theorem content_listing {key : String} {texts : List String} {fault : Fault} :
    (content .bare).run
        ⟨listingTokens key texts ++ [.streamEnd], fault, defaultHandles, [], {}, 0, false⟩ =
      .ok (0, atListingEnd key texts fault) := by
  have hlength :
      texts.length + 7 < 4 * (listingTokens key texts ++ [Token.streamEnd]).length + 4 := by
    rw [List.length_append, listingTokens]
    simp only [List.length_cons, List.length_append, itemTokens_length]
    omega
  rw [content, run_bind rfl]
  dsimp only
  rw [run_bind rfl, if_neg Bool.false_ne_true, run_bind (node_listing hlength)]
  rfl

/-- **A text with the tokens of a listing has one document**, and no other after it. -/
theorem nextDocument_listing {key : String} {texts : List String} {fault : Fault} :
    nextDocument { tokens := listingTokens key texts ++ [.streamEnd], fault := fault } =
      .ok (some 0, atListingEnd key texts fault) := by
  rw [nextDocument, run_bind rfl]
  dsimp only
  rw [run_bind content_listing]
  rfl

theorem startDocument_atListingEnd {key : String} {texts : List String} {fault : Fault} :
    ∃ s, startDocument.run (atListingEnd key texts fault) = .ok (none, s) := by
  exact ⟨_, rfl⟩

end Composer

end LintReport.Yaml
