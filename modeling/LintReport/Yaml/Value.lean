import LintReport.Yaml.Node
import LintReport.Yaml.Scalar

/-!
# From nodes to values

The tag of a node decides what it becomes: a scalar, a list, a mapping, a set, or a list of pairs.
Scalars are read when they are met. Collections are filled later, one after another in the order in
which they were met, so that a collection may hold itself. Merge keys are replaced by the members
that they bring in before a mapping is filled; members that stand in the mapping itself win.

## Main definitions

* `Datum`: what a node becomes.
* `Value`: the data of all nodes of a document, and its root.
* `Builder`: the state while values are made; `Value.ofGraph`.
-/

namespace LintReport.Yaml

/-- What a node becomes. The parts of collections are given by the numbers of their nodes. -/
inductive Datum
  | scalar (s : Scalar)
  | list (items : List NodeId)
  | pairs (items : List (NodeId × NodeId))
  | map (members : List (NodeId × NodeId))
  | set (members : List NodeId)
deriving DecidableEq, Repr

/-- The data of the nodes of a document. -/
structure Value where
  root : NodeId
  data : List (NodeId × Datum)
deriving Repr

/-- What a node of a document has become. -/
def Value.at? (v : Value) (id : NodeId) : Option Datum := v.data.lookup id

/-- The state while values are made. -/
structure Builder where
  graph : Graph
  data : List (NodeId × Datum) := []
  /-- The collections that have not been filled, in the order in which they were met. -/
  unfilled : List NodeId := []

namespace Builder

/-- A step of making values. -/
abbrev Step := StateT Builder (Except Fault)

/-- The node of a number. -/
def node (id : NodeId) : Step Node := return (← get).graph.node id

/-- The members of a mapping; other nodes have none. -/
def members (id : NodeId) : Step (List (NodeId × NodeId)) := do
  match (← node id).content with
  | .mapping ms => return ms
  | _ => return []

/-- Gives a mapping other members. -/
def setMembers (id : NodeId) (ms : List (NodeId × NodeId)) : Step Unit :=
  modify fun s => { s with graph := s.graph.setContent id (.mapping ms) }

/-- Records what a node becomes. -/
def record (id : NodeId) (d : Datum) : Step Unit :=
  modify fun s => { s with data := (id, d) :: s.data.filter fun e => e.1 != id }

/-! ### Merging -/

/-- Whether a node is a key that merges, or that stands for the default value. -/
def isSpecialKey (g : Graph) (id : NodeId) : Bool :=
  (g.node id).tag == .merge || (g.node id).tag == .value

/-- The members that a merge key brings in, given the value of the key. `flatten` replaces the merge
keys of that value first. Of a list of mappings the last comes first, so that the first one wins. -/
def merged (flatten : NodeId → Step Unit) (value : NodeId) : Step (List (NodeId × NodeId)) := do
  match (← node value).content with
  | .scalar _ => throw .malformed
  | .mapping _ =>
    flatten value
    members value
  | .sequence items =>
    let parts ← items.mapM fun item => do
      match (← node item).content with
      | .mapping _ =>
        flatten item
        members item
      | _ => throw .malformed
    return parts.reverse.flatten

/-- Goes over the members of a mapping: those in `kept` have been seen, and `brought` is what merge
keys have brought in so far. If filling in has already been done on the way, because the mapping
merges itself, nothing is left to do. -/
def flattenMembers (flatten : NodeId → Step Unit) (id : NodeId)
    (kept brought : List (NodeId × NodeId)) : List (NodeId × NodeId) → Step Unit
  | [] => do
    let now ← members id
    if !brought.isEmpty then setMembers id (brought ++ now)
  | (k, v) :: rest => do
    match (← node k).tag with
    | .merge =>
      setMembers id (kept ++ rest)
      let brought := brought ++ (← merged flatten v)
      let now ← members id
      if now == kept ++ rest then flattenMembers flatten id kept brought rest
      else setMembers id (brought ++ now)
    | .value =>
      modify fun s => { s with graph := s.graph.setTag k .str }
      flattenMembers flatten id (kept ++ [(k, v)]) brought rest
    | _ => flattenMembers flatten id (kept ++ [(k, v)]) brought rest

/-- Replaces the merge keys of a mapping, and of the mappings that they name, by members. Every
level uses up one merge key. -/
def flatten : Nat → NodeId → Step Unit
  | 0, _ => throw .malformed
  | budget + 1, id => do
    let ms ← members id
    let g := (← get).graph
    if ms.any fun (k, _) => isSpecialKey g k then
      flattenMembers (flatten budget) id [] [] ms

/-! ### Scalars and collections -/

/-- The text of a scalar, or of the default value of a mapping. -/
def scalarText (g : Graph) : Nat → NodeId → Except Fault String
  | 0, _ => .error .malformed
  | budget + 1, id =>
    match (g.node id).content with
    | .scalar text => .ok text
    | .sequence _ => .error .malformed
    | .mapping ms =>
      match ms.find? fun (k, _) => (g.node k).tag == .value with
      | some (_, v) => scalarText g budget v
      | none => .error .malformed

/-- The scalar that a node becomes. -/
def scalarOf (g : Graph) (id : NodeId) : Except Fault Scalar := do
  let n := g.node id
  let text ← scalarText g (g.nodes.size + 1) id
  match n.tag, n.content with
  | .timestamp, .mapping _ => throw .collectionAsDate
  | tag, _ => Scalar.read tag text

/-- The collection that a node becomes, still empty; `none` for scalars. -/
def emptyCollection? : Tag → Option Datum
  | .seq => some (.list [])
  | .map => some (.map [])
  | .set => some (.set [])
  | .orderedMap => some (.pairs [])
  | .pairs => some (.pairs [])
  | _ => none

/-- Meets a node: a scalar is read, and a collection is put off. -/
def meet (id : NodeId) : Step Unit := do
  let s ← get
  if (s.data.lookup id).isSome then return
  let tag := (s.graph.node id).tag
  match emptyCollection? tag with
  | some d =>
    record id d
    modify fun s => { s with unfilled := s.unfilled ++ [id] }
  | none =>
    if [Tag.merge, .value, .other].contains tag then throw .malformed
    record id (.scalar (← scalarOf s.graph id))

/-- Meets a key, which has to be a scalar. -/
def meetKey (id : NodeId) : Step Scalar := do
  meet id
  match (← get).data.lookup id with
  | some (.scalar s) => return s
  | _ => throw .malformed

/-- Members after one more has been read: a key that is already there keeps its place and gets the
new value. -/
def insertMember (scalar : NodeId → Option Scalar) (key : NodeId) (k : Scalar) (value : NodeId) :
    List (NodeId × NodeId) → List (NodeId × NodeId)
  | [] => [(key, value)]
  | (other, v) :: rest =>
    if (scalar other).any k.sameKey then (other, value) :: rest
    else (other, v) :: insertMember scalar key k value rest

/-- The members of a mapping, met one after another. -/
def meetMembers (ms : List (NodeId × NodeId)) : Step (List (NodeId × NodeId)) :=
  ms.foldlM (fun done (key, value) => do
    let k ← meetKey key
    meet value
    let data := (← get).data
    let scalar (id : NodeId) :=
      match data.lookup id with
      | some (.scalar s) => some s
      | _ => none
    return insertMember scalar key k value done) []

/-- The pairs of a list of mappings with one member each. -/
def meetPairs (items : List NodeId) : Step (List (NodeId × NodeId)) :=
  items.mapM fun item => do
    match (← node item).content with
    | .mapping [(key, value)] =>
      meet key
      meet value
      return (key, value)
    | _ => throw .malformed

/-- Fills a collection. -/
def fill (id : NodeId) : Step Unit := do
  let n ← node id
  match n.tag, n.content with
  | .seq, .sequence items =>
    for item in items do meet item
    record id (.list items)
  | .map, .mapping _ =>
    flatten ((← get).graph.nodes.size + 1) id
    record id (.map (← meetMembers (← members id)))
  | .set, .mapping _ =>
    flatten ((← get).graph.nodes.size + 1) id
    record id (.set ((← meetMembers (← members id)).map (·.1)))
  | .orderedMap, .sequence items => record id (.pairs (← meetPairs items))
  | .pairs, .sequence items => record id (.pairs (← meetPairs items))
  | _, _ => throw .malformed

/-- Fills all collections. Each is met only once. -/
def fillAll : Nat → Step Unit
  | 0 => return
  | budget + 1 => do
    match (← get).unfilled with
    | [] => return
    | id :: rest =>
      modify fun s => { s with unfilled := rest }
      fill id
      fillAll budget

end Builder

/-- The value of a document. -/
def Value.ofGraph (graph : Graph) (root : NodeId) : Except Fault Value := do
  let build : Builder.Step Unit := do
    Builder.meet root
    Builder.fillAll (graph.nodes.size + 1)
  let (_, s) ← build.run { graph := graph }
  return ⟨root, s.data⟩

namespace Value

/-- The text of a node that is a string. -/
def str? (v : Value) (id : NodeId) : Option String :=
  match v.at? id with
  | some (.scalar (.str s)) => some s
  | _ => none

/-- The value of a key in the mapping at the root. -/
def member? (v : Value) (key : String) : Option NodeId :=
  match v.at? v.root with
  | some (.map ms) => (ms.find? fun (k, _) => v.str? k == some key).map (·.2)
  | _ => none

end Value

end LintReport.Yaml
