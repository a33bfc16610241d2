import TabCompletion.Yaml.Error
import TabCompletion.Yaml.Graph.Basic

/-!
# Merged mappings

A mapping takes over the pairs of the mappings that it merges. They come before its own, and
of two merged mappings the later one comes first; as a later pair of a key wins, the own pairs
win, and of merged mappings the earlier one. `flatten` puts them there for good, in a mapping
and in all that it merges, so that a mapping which is merged by its own parts is well defined
too.

The mark of a value is a text where it is the key of a flat mapping.
-/

namespace TabCompletion.Yaml.Graph

/-- The pair is a merge. -/
def isMerge (g : Graph) (pair : NodeId × NodeId) : Bool := g.tag pair.1 = coreTag "merge"

/-- The first merge among pairs, and the pairs without it. -/
def takeMerge (g : Graph) :
    List (NodeId × NodeId) → Option (NodeId × List (NodeId × NodeId))
  | [] => none
  | pair :: rest =>
    if g.isMerge pair then some (pair.2, rest)
    else (g.takeMerge rest).map fun (merged, rest) => (merged, pair :: rest)

/-- The graph in which the node is a text if it was the mark of a value. -/
def unmark (g : Graph) (id : NodeId) : Graph :=
  if g.tag id = coreTag "value" then g.put id ⟨coreTag "str", (g.node id).content⟩ else g

/-- The graph with the merged pairs before the own ones of a mapping, whose keys are no marks. -/
def prepend (g : Graph) (id : NodeId) (merged : List (NodeId × NodeId)) : Graph :=
  let own := (g.pairs? id).getD []
  (own.foldl (fun g pair => g.unmark pair.1) g).putPairs id (merged ++ own)

mutual

/-- The graph with a flat mapping. `fuel` bounds the number of merges. -/
def flattenFrom : Nat → Graph → NodeId → Reading Graph
  | 0, g, _ => .ok g
  | fuel + 1, g, id => do
    let (merged, g) ← mergedInto fuel g id
    return g.prepend id merged

/-- The pairs that a mapping merges, and the graph without the merges of that mapping. -/
def mergedInto : Nat → Graph → NodeId → Reading (List (NodeId × NodeId) × Graph)
  | 0, g, _ => .ok ([], g)
  | fuel + 1, g, id => do
    match (g.pairs? id).bind g.takeMerge with
    | none => return ([], g)
    | some (source, rest) =>
      let (merged, g) ← mergedFrom fuel (g.putPairs id rest) source
      let (more, g) ← mergedInto fuel g id
      return (merged ++ more, g)

/-- The pairs of a mapping, or of the mappings in a sequence, those of the last one first. -/
def mergedFrom : Nat → Graph → NodeId → Reading (List (NodeId × NodeId) × Graph)
  | 0, g, _ => .ok ([], g)
  | fuel + 1, g, source =>
    match (g.node source).content with
    | .mapping _ => mergedOf fuel g source
    | .sequence items =>
      items.foldlM (fun (merged, g) item => do
        let (pairs, g) ← mergedOf fuel g item
        return (pairs ++ merged, g)) ([], g)
    | .scalar _ => refuse .badMerge

/-- The pairs of a mapping, and the graph in which it is flat. -/
def mergedOf : Nat → Graph → NodeId → Reading (List (NodeId × NodeId) × Graph)
  | 0, g, _ => .ok ([], g)
  | fuel + 1, g, id =>
    match g.pairs? id with
    | none => refuse .badMerge
    | some _ => do
      let g ← flattenFrom fuel g id
      return ((g.pairs? id).getD [], g)

end

/-- The graph with a flat mapping in which nothing is left to merge. -/
def flatten (g : Graph) (id : NodeId) : Reading Graph :=
  flattenFrom (4 * g.pairCount + 4) g id

end TabCompletion.Yaml.Graph
