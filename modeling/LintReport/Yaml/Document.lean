import LintReport.Yaml.Node
import LintReport.Yaml.Token.Lexer

/-!
# From tokens to documents

The grammar of documents, read from left to right with one token in view. An anchor names the node
that follows it, already while the parts of that node are read; an alias is the node of its name.
Where a part of a collection is missing, an empty plain scalar stands in for it.

## Main definitions

* `Composer`: the tokens left, and what is known of the document so far.
* `Composer.node`: one node, with its parts.
* `Composer.startDocument`, `Composer.content`: one document of a stream.
-/

namespace LintReport.Yaml

/-- The tokens left, and what is known of the document so far. -/
structure Composer where
  tokens : List Token
  /-- The fault that is met when the tokens have run out. -/
  fault : Fault
  /-- The meanings of tag handles. -/
  handles : List (String × String) := []
  anchors : List (String × NodeId) := []
  graph : Graph := {}
  /-- How many nodes are being read, one inside the other. -/
  depth : Nat := 0
  /-- Whether no document has been started yet. -/
  atStart : Bool := true

namespace Composer

/-- A step of reading. -/
abbrev Step := StateT Composer (Except Fault)

/-- The next token, which stays there. -/
def peek : Step Token := do
  let s ← get
  match s.tokens with
  | [] => throw s.fault
  | t :: _ => return t

/-- Takes the next token away. -/
def drop : Step Unit := do
  let _ ← peek
  modify fun s => { s with tokens := s.tokens.tail }

/-- Whether the next token is one of some. -/
def sees (ts : List Token) : Step Bool := do
  let t ← peek
  return ts.contains t

/-- A new node. -/
def add (n : Node) : Step NodeId := do
  let s ← get
  let (id, graph) := s.graph.add n
  set { s with graph := graph }
  return id

/-- A new empty plain scalar. -/
def empty : Step NodeId := add ⟨Tag.ofPlain "", .scalar ""⟩

/-- The meanings of tag handles where a document does not say otherwise. -/
def defaultHandles : List (String × String) := [("!", "!"), ("!!", Tag.commonStart)]

/-! ### Properties of nodes -/

/-- An anchor and a tag in front of a node. -/
structure Properties where
  anchor : Option String := none
  tag : Option String := none
deriving DecidableEq, Repr

/-- Whether there is no anchor and no tag. -/
def Properties.isEmpty (p : Properties) : Bool := p.anchor.isNone && p.tag.isNone

/-- The anchor at the next token, if there is one. -/
def anchor? : Step (Option String) := do
  match ← peek with
  | .anchor name => drop; return some name
  | _ => return none

/-- The tag at the next token, if there is one: its handle and what follows. -/
def tag? : Step (Option (Option String × String)) := do
  match ← peek with
  | .tag handle suffix => drop; return some (handle, suffix)
  | _ => return none

/-- A tag with its handle replaced by what that means. -/
def expandTag (tag : Option String × String) : Step String := do
  match tag with
  | (none, suffix) => return suffix
  | (some handle, suffix) =>
    match (← get).handles.lookup handle with
    | none => throw .malformed
    | some meaning => return meaning ++ suffix

/-- An anchor and a tag, in either order. -/
def properties : Step Properties := do
  let (anchor, tag) ←
    match ← anchor? with
    | some name => do pure (some name, ← tag?)
    | none => do
      match ← tag? with
      | none => pure (none, none)
      | some tag => do pure (← anchor?, some tag)
  match tag with
  | none => return ⟨anchor, none⟩
  | some tag => return ⟨anchor, some (← expandTag tag)⟩

/-- The tag of a node: the given one, unless it is missing or leaves the choice to the form. -/
def Properties.tagOr (p : Properties) (default : Tag) : Tag :=
  match p.tag with
  | none => default
  | some "!" => default
  | some s => Tag.ofText s

/-- The tag of a scalar. One in quotes is a string unless a tag says otherwise. -/
def Properties.scalarTag (p : Properties) (text : String) (plain : Bool) : Tag :=
  match p.tag with
  | none => if plain then Tag.ofPlain text else .str
  | some "!" => Tag.ofPlain text
  | some s => Tag.ofText s

/-- A new node under its anchor, which must not be in use. -/
def addNamed (p : Properties) (n : Node) : Step NodeId := do
  match p.anchor with
  | none => add n
  | some name =>
    if ((← get).anchors.lookup name).isSome then throw .malformed
    let id ← add n
    modify fun s => { s with anchors := (name, id) :: s.anchors }
    return id

/-- Gives a node its content. -/
def fill (id : NodeId) (content : Node.Content) : Step NodeId := do
  modify fun s => { s with graph := s.graph.setContent id content }
  return id

/-! ### Nodes -/

/-- How many nodes may be read one inside the other. -/
def depthLimit : Nat := 485

/-- Reads what is inside a node. -/
def inside (step : Step NodeId) : Step NodeId := do
  let outer := (← get).depth
  if depthLimit ≤ outer then throw .tooDeep
  modify fun s => { s with depth := outer + 1 }
  let id ← step
  modify fun s => { s with depth := outer }
  return id

mutual

/-- A node. In block context a block collection may stand here, and after a key also a sequence that
is not indented. -/
def node : Nat → Bool → Bool → Step NodeId
  | 0, _, _ => throw .malformed
  | budget + 1, block, unindented => inside do
    match ← peek with
    | .alias name =>
      drop
      match (← get).anchors.lookup name with
      | some id => return id
      | none => throw .malformed
    | _ =>
      let p ← properties
      match ← peek with
      | .blockEntry =>
        if unindented then
          let id ← addNamed p ⟨p.tagOr .seq, .sequence []⟩
          fill id (.sequence (← unindentedItems budget []))
        else absent p
      | .scalar text plain =>
        drop
        addNamed p ⟨p.scalarTag text plain, .scalar text⟩
      | .flowSequenceStart =>
        let id ← addNamed p ⟨p.tagOr .seq, .sequence []⟩
        drop
        fill id (.sequence (← flowItems budget true []))
      | .flowMappingStart =>
        let id ← addNamed p ⟨p.tagOr .map, .mapping []⟩
        drop
        fill id (.mapping (← flowMembers budget true []))
      | .blockSequenceStart =>
        if block then
          let id ← addNamed p ⟨p.tagOr .seq, .sequence []⟩
          drop
          fill id (.sequence (← blockItems budget []))
        else absent p
      | .blockMappingStart =>
        if block then
          let id ← addNamed p ⟨p.tagOr .map, .mapping []⟩
          drop
          fill id (.mapping (← blockMembers budget []))
        else absent p
      | _ => absent p

/-- A node of which only the properties are there. -/
def absent (p : Properties) : Step NodeId :=
  if p.isEmpty then throw .malformed
  else addNamed p ⟨p.scalarTag "" p.tag.isNone, .scalar ""⟩

/-- A node, or an empty scalar if the next token is one of some. -/
def nodeUnless : Nat → Bool → Bool → List Token → Step NodeId
  | 0, _, _, _ => throw .malformed
  | budget + 1, block, unindented, ends => do
    if ← sees ends then empty else node budget block unindented

/-- The value after a key: a node after the mark of a value, if that is there. -/
def valueUnless : Nat → Bool → Bool → List Token → Step NodeId
  | 0, _, _, _ => throw .malformed
  | budget + 1, block, unindented, ends => do
    if ← sees [.value] then
      drop
      nodeUnless budget block unindented ends
    else empty

/-- The items of a block sequence. -/
def blockItems : Nat → List NodeId → Step (List NodeId)
  | 0, _ => throw .malformed
  | budget + 1, done => do
    match ← peek with
    | .blockEntry =>
      drop
      let id ← nodeUnless budget true false [.blockEntry, .blockEnd]
      blockItems budget (done ++ [id])
    | .blockEnd => drop; return done
    | _ => throw .malformed

/-- The items of a sequence that is not indented. -/
def unindentedItems : Nat → List NodeId → Step (List NodeId)
  | 0, _ => throw .malformed
  | budget + 1, done => do
    match ← peek with
    | .blockEntry =>
      drop
      let id ← nodeUnless budget true false [.blockEntry, .key, .value, .blockEnd]
      unindentedItems budget (done ++ [id])
    | _ => return done

/-- The members of a block mapping. -/
def blockMembers : Nat → List (NodeId × NodeId) → Step (List (NodeId × NodeId))
  | 0, _ => throw .malformed
  | budget + 1, done => do
    match ← peek with
    | .key =>
      drop
      let key ← nodeUnless budget true true [.key, .value, .blockEnd]
      let value ← valueUnless budget true true [.key, .value, .blockEnd]
      blockMembers budget (done ++ [(key, value)])
    | .blockEnd => drop; return done
    | _ => throw .malformed

/-- The items of a flow sequence. A key and a value without braces form a mapping of their own. -/
def flowItems : Nat → Bool → List NodeId → Step (List NodeId)
  | 0, _, _ => throw .malformed
  | budget + 1, first, done => do
    if ← sees [.flowSequenceEnd] then
      drop
      return done
    if !first then
      if ← sees [.flowEntry] then drop else throw .malformed
    match ← peek with
    | .key =>
      let id ← add ⟨.map, .mapping []⟩
      drop
      let key ← nodeUnless budget false false [.value, .flowEntry, .flowSequenceEnd]
      let value ← valueUnless budget false false [.flowEntry, .flowSequenceEnd]
      let id ← fill id (.mapping [(key, value)])
      flowItems budget false (done ++ [id])
    | .flowSequenceEnd => drop; return done
    | _ =>
      let id ← node budget false false
      flowItems budget false (done ++ [id])

/-- The members of a flow mapping. A node without a mark is a key without a value. -/
def flowMembers : Nat → Bool → List (NodeId × NodeId) → Step (List (NodeId × NodeId))
  | 0, _, _ => throw .malformed
  | budget + 1, first, done => do
    if ← sees [.flowMappingEnd] then
      drop
      return done
    if !first then
      if ← sees [.flowEntry] then drop else throw .malformed
    match ← peek with
    | .key =>
      drop
      let key ← nodeUnless budget false false [.value, .flowEntry, .flowMappingEnd]
      let value ← valueUnless budget false false [.flowEntry, .flowMappingEnd]
      flowMembers budget false (done ++ [(key, value)])
    | .flowMappingEnd => drop; return done
    | _ =>
      let key ← node budget false false
      let _ ← peek
      let value ← empty
      flowMembers budget false (done ++ [(key, value)])

end

/-! ### Documents -/

/-- Takes away marks of ended documents. -/
def dropDocumentEnds : Nat → Step Unit
  | 0 => return
  | budget + 1 => do
    if ← sees [.documentEnd] then
      drop
      dropDocumentEnds budget

/-- The directives before a document: at most one version, which has to be 1, and handles that are
given once each. -/
def directives : Nat → Bool → List (String × String) → Step (List (String × String))
  | 0, _, handles => return handles
  | budget + 1, hasVersion, handles => do
    match ← peek with
    | .directive (.version major _) =>
      drop
      if hasVersion || major != 1 then throw .malformed
      directives budget true handles
    | .directive (.tagHandle handle meaning) =>
      drop
      if (handles.lookup handle).isSome then throw .malformed
      directives budget hasVersion ((handle, meaning) :: handles)
    | .directive .other => drop; directives budget hasVersion handles
    | _ => return handles

/-- How a document starts. -/
inductive Opening
  /-- With its content. -/
  | bare
  /-- With a mark. -/
  | marked
deriving DecidableEq, Repr

/-- Starts the next document, if there is one. The first needs no mark. -/
def startDocument : Step (Option Opening) := do
  let s ← get
  let explicit ← sees [.documentStart, .streamEnd]
  let afterDirective := match ← peek with
    | .directive _ => true
    | _ => false
  set { s with atStart := false, anchors := [], graph := {} }
  if s.atStart && !explicit && !afterDirective then
    modify fun s => { s with handles := defaultHandles }
    return some .bare
  let budget := s.tokens.length + 1
  dropDocumentEnds budget
  if ← sees [.streamEnd] then return none
  let handles ← directives budget false []
  if !(← sees [.documentStart]) then throw .malformed
  drop
  modify fun s => { s with handles := handles ++ defaultHandles }
  return some .marked

/-- The content of a document that has been started, with the mark of its end. -/
def content (opening : Opening) : Step NodeId := do
  let budget := 4 * (← get).tokens.length + 4
  let isEmpty ←
    match opening with
    | .bare => pure false
    | .marked => do
      match ← peek with
      | .directive _ => pure true
      | t => pure ([Token.documentStart, .documentEnd, .streamEnd].contains t)
  let root ← if isEmpty then empty else node budget true false
  if ← sees [.documentEnd] then drop
  return root

end Composer

end LintReport.Yaml
