import TabCompletion.Yaml.Scalar.Form

/-!
# Graphs of YAML nodes

A node is a scalar, a sequence or a mapping with a tag that says how it is meant. A node
without a tag of its own is given one by its kind and, if it is a plain scalar, by the form
of its text.

An alias is the very node it names. It may stand inside that node, so that the nodes of a
text form a graph: each has a number, by which sequences and mappings hold it.
-/

namespace TabCompletion.Yaml

/-- A node of a graph is known by its number. -/
abbrev NodeId := Nat

/-- What a node holds. The text of a scalar is given by its code points. -/
inductive Content where
  | scalar (codes : List Nat)
  | sequence (items : List NodeId)
  | mapping (pairs : List (NodeId × NodeId))
  deriving DecidableEq, Repr

/-- A node: a tag and what the node holds. -/
structure Node where
  tag : String
  content : Content
  deriving DecidableEq, Repr

/-- The tag of a scalar without a tag of its own. Only the text of a scalar that counts as
plain is looked at. -/
def scalarTag (plain : Bool) (codes : List Nat) : String :=
  if plain then
    match charsOf? codes with
    | some cs => (formOf cs).tag
    | none => coreTag "str"
  else coreTag "str"

/-- The empty scalar that stands where a node is left out. -/
def Node.absent : Node := ⟨coreTag "null", .scalar []⟩

/-- How many pairs a node holds. -/
def Node.pairCount (n : Node) : Nat :=
  match n.content with
  | .mapping pairs => pairs.length
  | _ => 0

/-- The nodes of a text, each at the place of its number. -/
structure Graph where
  nodes : Array Node := #[]
  deriving DecidableEq, Repr

namespace Graph

/-- The node of that number; a number that was not given out stands for an absent node. -/
def node (g : Graph) (id : NodeId) : Node := g.nodes[id]?.getD .absent

/-- The tag of a node. -/
def tag (g : Graph) (id : NodeId) : String := (g.node id).tag

/-- How many nodes there are. -/
def size (g : Graph) : Nat := g.nodes.size

/-- How many pairs all mappings hold. -/
def pairCount (g : Graph) : Nat := g.nodes.foldl (fun n node => n + node.pairCount) 0

/-- The graph with one more node, whose number is the size before. -/
def add (g : Graph) (n : Node) : Graph := ⟨g.nodes.push n⟩

/-- The graph with another node under that number. -/
def put (g : Graph) (id : NodeId) (n : Node) : Graph := ⟨g.nodes.setIfInBounds id n⟩

/-- The pairs of a node, if it is a mapping. -/
def pairs? (g : Graph) (id : NodeId) : Option (List (NodeId × NodeId)) :=
  match (g.node id).content with
  | .mapping pairs => some pairs
  | _ => none

/-- The items of a node, if it is a sequence. -/
def items? (g : Graph) (id : NodeId) : Option (List NodeId) :=
  match (g.node id).content with
  | .sequence items => some items
  | _ => none

/-- The graph with other pairs in a mapping. -/
def putPairs (g : Graph) (id : NodeId) (pairs : List (NodeId × NodeId)) : Graph :=
  g.put id ⟨g.tag id, .mapping pairs⟩

end Graph

end TabCompletion.Yaml
