import TabCompletion.Yaml.Graph.Merging
import TabCompletion.Yaml.Scalar.Value

/-!
# From nodes to values

The tag of a node says what it means. The first look at a node makes a scalar of it, or opens
a collection; each node is looked at once, so that an alias means the very value of the node
it names. Collections are gone through level by level, and the first problem met on that way
is the one that stops the reading (`Making.fillAll`).

What is made holds its parts by their numbers, for a collection may be a part of itself. The
mark of a value makes a scalar of a mapping.
-/

namespace TabCompletion.Yaml

/-- The tags whose values are scalars. -/
inductive ScalarTag where
  | null
  | bool
  | int
  | float
  | binary
  | timestamp
  | str
  deriving DecidableEq, Repr

/-- The tags whose values are collections. -/
inductive CollectionTag where
  | omap
  | pairs
  | set
  | seq
  | map
  deriving DecidableEq, Repr

/-- The scalar tags by their full names. -/
def scalarTags : List (String × ScalarTag) :=
  [(coreTag "null", .null), (coreTag "bool", .bool), (coreTag "int", .int),
   (coreTag "float", .float), (coreTag "binary", .binary), (coreTag "timestamp", .timestamp),
   (coreTag "str", .str)]

/-- The collection tags by their full names. -/
def collectionTags : List (String × CollectionTag) :=
  [(coreTag "omap", .omap), (coreTag "pairs", .pairs), (coreTag "set", .set),
   (coreTag "seq", .seq), (coreTag "map", .map)]

/-- The text of a scalar, or of the first value under the mark of a value in a mapping that
stands for a scalar. `fuel` bounds the number of such mappings. -/
def Graph.scalarCodes (g : Graph) : Nat → NodeId → Reading (List Nat)
  | 0, _ => .error (.fault .endless)
  | fuel + 1, id =>
    match (g.node id).content with
    | .scalar codes => .ok codes
    | .sequence _ => refuse .wrongKind
    | .mapping pairs =>
      match pairs.find? fun pair => g.tag pair.1 = coreTag "value" with
      | some pair => g.scalarCodes fuel pair.2
      | none => refuse .wrongKind

/-- The node holds the text of a scalar itself. -/
def Graph.isScalar (g : Graph) (id : NodeId) : Bool :=
  match (g.node id).content with
  | .scalar _ => true
  | _ => false

/-- The characters of a text that must not hold surrogates. -/
def charsOf (codes : List Nat) : Reading (List Char) :=
  match charsOf? codes with
  | some cs => .ok cs
  | none => .error (.fault .badValue)

/-- The value of a scalar tag for a text. -/
def ScalarTag.value (tag : ScalarTag) (codes : List Nat) : Reading Document :=
  match tag with
  | .null => .ok .null
  | .bool => do return .bool (← boolValue ((codes.map Char.ofNat)))
  | .int => do return .int (← integerValue (← charsOf codes))
  | .float => do return .float (← floatValue (← charsOf codes))
  | .binary => do return .bytes (← binaryValue codes)
  | .timestamp => timestampValue (codes.map Char.ofNat)
  | .str => .ok (Document.ofCodes codes)

/-- What is made of a node. A scalar is `common` if it is the one value of all words for what is
no number; any other such value is a key of its own. -/
inductive Made where
  | scalar (d : Document) (common : Bool)
  | opened (tag : CollectionTag)
  | list (items : List NodeId)
  | pairs (pairs : List (NodeId × NodeId))
  | set (keys : List NodeId)
  | map (entries : List (NodeId × NodeId))

/-- The scalar that a node means. A day or a moment is read from a scalar alone. -/
def ScalarTag.make (tag : ScalarTag) (g : Graph) (id : NodeId) : Reading Made := do
  let codes ← g.scalarCodes (g.size + 1) id
  if tag = .timestamp && !g.isScalar id then .error (.fault .badType)
  else return .scalar (← tag.value codes) (tag = .float && isNotNumber (codes.map Char.ofNat))

/-- What is made of nodes so far, and the collections opened since the last level, the latest
one first. -/
structure Making where
  graph : Graph
  made : Array (Option Made)
  opened : List NodeId := []

namespace Making

/-- What is made of a node so far. -/
def of? (m : Making) (id : NodeId) : Option Made := m.made[id]?.getD none

/-- After making something of a node. -/
def put (m : Making) (id : NodeId) (made : Made) : Making :=
  { m with made := m.made.setIfInBounds id (some made) }

/-- After a look at a node. -/
def look (m : Making) (id : NodeId) : Reading Making :=
  match m.of? id with
  | some _ => .ok m
  | none =>
    match scalarTags.lookup (m.graph.tag id) with
    | some tag => do return m.put id (← tag.make m.graph id)
    | none =>
      match collectionTags.lookup (m.graph.tag id) with
      | some tag => .ok { m.put id (.opened tag) with opened := id :: m.opened }
      | none => refuse .unknownTag

/-- After a look at a node that has to be usable as a key. -/
def lookAtKey (m : Making) (id : NodeId) : Reading Making := do
  let m ← m.look id
  match m.of? id with
  | some (.scalar ..) => return m
  | _ => refuse .unusableKey

/-- After a look at the two nodes of a pair. -/
def lookAtPair (m : Making) (pair : NodeId × NodeId) : Reading Making := do
  (← m.look pair.1).look pair.2

/-- After a look at the two nodes of an entry. -/
def lookAtEntry (m : Making) (entry : NodeId × NodeId) : Reading Making := do
  (← m.lookAtKey entry.1).look entry.2

/-- Two nodes are the same key. -/
def sameKey (m : Making) (a b : NodeId) : Bool :=
  a = b ||
    match m.of? a, m.of? b with
    | some (.scalar d common), some (.scalar e common') => d.sameKey e || (common && common')
    | _, _ => false

/-- The entries with the value of a key set; a new key goes to the end. -/
def insertEntry (m : Making) (entry : NodeId × NodeId) :
    List (NodeId × NodeId) → List (NodeId × NodeId)
  | [] => [entry]
  | (k, v) :: rest =>
    if m.sameKey k entry.1 then (k, entry.2) :: rest else (k, v) :: m.insertEntry entry rest

/-- The entries of pairs, of which a later one replaces the value of an earlier one. -/
def entriesOf (m : Making) (pairs : List (NodeId × NodeId)) : List (NodeId × NodeId) :=
  pairs.foldl (fun done entry => m.insertEntry entry done) []

/-- The entries of a mapping, after a look at all that is in it. -/
def entries (m : Making) (id : NodeId) : Reading (List (NodeId × NodeId) × Making) :=
  match m.graph.pairs? id with
  | none => refuse .wrongKind
  | some _ => do
    let m := { m with graph := ← m.graph.flatten id }
    let pairs := (m.graph.pairs? id).getD []
    let m ← pairs.foldlM lookAtEntry m
    return (m.entriesOf pairs, m)

/-- The items of a sequence, after a look at each. -/
def items (m : Making) (id : NodeId) : Reading (List NodeId × Making) :=
  match m.graph.items? id with
  | none => refuse .wrongKind
  | some items => do return (items, ← items.foldlM look m)

/-- The only pair of each mapping in a sequence, after a look at all that is in them. -/
def singlePairs (m : Making) (id : NodeId) : Reading (List (NodeId × NodeId) × Making) :=
  match m.graph.items? id with
  | none => refuse .wrongKind
  | some items =>
    items.foldlM (fun (pairs, m) item => do
      match m.graph.pairs? item with
      | some [pair] => return (pairs ++ [pair], ← m.lookAtPair pair)
      | _ => refuse .wrongKind) ([], m)

/-- After going through an opened collection. -/
def fill (m : Making) (id : NodeId) : Reading Making := do
  match m.of? id with
  | some (.opened .seq) => let (items, m) ← m.items id; return m.put id (.list items)
  | some (.opened .map) => let (entries, m) ← m.entries id; return m.put id (.map entries)
  | some (.opened .set) =>
    let (entries, m) ← m.entries id
    return m.put id (.set (entries.map Prod.fst))
  | some (.opened .omap) | some (.opened .pairs) =>
    let (pairs, m) ← m.singlePairs id
    return m.put id (.pairs pairs)
  | _ => return m

/-- After going through the rest of a level, and through all levels below. `fuel` bounds the
number of collections and levels. -/
def fillAll : Nat → List NodeId → Making → Reading Making
  | 0, _, m => .ok m
  | fuel + 1, [], m =>
    if m.opened.isEmpty then .ok m
    else fillAll fuel m.opened.reverse { m with opened := [] }
  | fuel + 1, id :: rest, m => do fillAll fuel rest (← m.fill id)

/-- Nothing is made of the nodes of a graph yet. -/
def start (g : Graph) : Making := ⟨g, Array.replicate g.size none, []⟩

/-- What is made of a node and of all that is in it. -/
def ofNode (g : Graph) (id : NodeId) : Reading Making := do
  fillAll (2 * g.size + 2) [] (← (start g).look id)

end Making

end TabCompletion.Yaml
