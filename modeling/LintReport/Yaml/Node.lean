import LintReport.Yaml.Tag

/-!
# Nodes of YAML documents

A document is a graph: an alias makes one node appear at several places, even inside itself. Nodes
are numbered, and collections refer to their parts by number.

## Main definitions

* `Node`, `Node.Content`: a node with its tag.
* `Graph`: the nodes of a document.
-/

namespace LintReport.Yaml

/-- The number of a node. -/
abbrev NodeId := Nat

/-- What a node holds. -/
inductive Node.Content
  | scalar (text : String)
  | sequence (items : List NodeId)
  | mapping (members : List (NodeId × NodeId))
deriving DecidableEq, Repr

/-- A node: what it is and what it holds. -/
structure Node where
  tag : Tag
  content : Node.Content
deriving DecidableEq, Repr

/-- The nodes of a document by number. -/
structure Graph where
  nodes : Array Node := #[]
deriving Repr

namespace Graph

/-- The node of a number. Numbers that are not in use stand for an empty scalar. -/
def node (g : Graph) (id : NodeId) : Node := g.nodes.getD id ⟨.null, .scalar ""⟩

/-- The graph with one more node, and its number. -/
def add (g : Graph) (n : Node) : NodeId × Graph := (g.nodes.size, ⟨g.nodes.push n⟩)

/-- The graph after a node has got another content. -/
def setContent (g : Graph) (id : NodeId) (content : Node.Content) : Graph :=
  ⟨g.nodes.setIfInBounds id { g.node id with content := content }⟩

/-- The graph after a node has got another tag. -/
def setTag (g : Graph) (id : NodeId) (tag : Tag) : Graph :=
  ⟨g.nodes.setIfInBounds id { g.node id with tag := tag }⟩

end Graph

end LintReport.Yaml
