import TabCompletion.Yaml.Graph.Parser
import TabCompletion.Yaml.Meaning

/-!
# From values to documents

A document is a tree, while a value may hold the same value at several places and even within
itself. A value that does not hold itself is unfolded in full (`settle`). One that does has no
end; its document goes as deep as `unfoldings`, which is deeper than any rule for documents
looks, and has nothing at its lowest places.
-/

namespace TabCompletion.Yaml

/-- The documents of nodes, as far as they are known. -/
abbrev Known := Array (Option Document)

/-- The document of a node, if it is known. -/
def Known.of? (known : Known) (id : NodeId) : Option Document := known[id]?.getD none

/-- The documents of two nodes. -/
def pairOf? (part : NodeId → Option Document) (pair : NodeId × NodeId) :
    Option (Document × Document) := do
  return (← part pair.1, ← part pair.2)

/-- The document of what is made of a node, from those of its parts. -/
def Made.document? (part : NodeId → Option Document) : Made → Option Document
  | .scalar d _ => some d
  | .opened _ => none
  | .list items => (items.mapM part).map .list
  | .pairs held =>
    (held.mapM (pairOf? part)).map fun ps => .list (ps.map fun (k, v) => .list [k, v])
  | .set keys => (keys.mapM part).map .set
  | .map entries => (entries.mapM (pairOf? part)).map .map

namespace Making

/-- The documents after a look at one more node: it is known if its parts are. -/
def settleNode (m : Making) (known : Known) (id : NodeId) : Known :=
  if (known.of? id).isSome then known
  else known.setIfInBounds id ((m.of? id).bind (Made.document? known.of?))

/-- The documents after a look at all nodes, from the last one to the first and back. -/
def settleOnce (m : Making) (known : Known) : Known :=
  let ids := List.range known.size
  ids.foldl m.settleNode (ids.reverse.foldl m.settleNode known)

/-- The number of known documents. -/
def settled (known : Known) : Nat := (known.toList.filter Option.isSome).length

/-- The documents of all nodes that do not hold themselves. `fuel` bounds their number. -/
def settle (m : Making) : Nat → Known → Known
  | 0, known => known
  | fuel + 1, known =>
    let next := m.settleOnce known
    if settled next = settled known then known else m.settle fuel next

/-- How deep a value is unfolded that holds itself. -/
def unfoldings : Nat := 8

/-- The documents of all nodes, unfolded once more than in `guess` where none is known. -/
def unfoldOnce (m : Making) (known guess : Known) : Known :=
  ((List.range known.size).map fun id =>
    match known.of? id with
    | some d => some d
    | none => (m.of? id).bind (Made.document? guess.of?)).toArray

/-- The documents of all nodes, unfolded `n` times where none is known. -/
def unfold (m : Making) (known : Known) : Nat → Known
  | 0 => known.map fun d => some (d.getD .null)
  | n + 1 => m.unfoldOnce known (m.unfold known n)

/-- The document of a node. -/
def document (m : Making) (id : NodeId) : Document :=
  let known := m.settle (m.graph.size + 1) (Array.replicate m.graph.size none)
  match known.of? id with
  | some d => d
  | none => ((m.unfold known unfoldings).of? id).getD .null

end Making

/-- The document of a YAML text; an empty text is nothing. -/
def read (s : String) : Reading Document := do
  match ← document s.toList with
  | none => return .null
  | some (g, id) => return (← Making.ofNode g id).document id

end TabCompletion.Yaml
