import TabCompletion.Yaml.Graph.Basic
import TabCompletion.Yaml.Token.Lexer

/-!
# From tokens to graphs

A text holds one document at most. `document` builds its nodes from the tokens: blocks and
brackets become sequences and mappings, an alias becomes the node of its anchor, and a node
that is left out becomes an empty scalar. A collection gets its number before its parts, so
that these can name it. When the tokens come to an early end, reading stops for the reason
for which there are no more of them.
-/

namespace TabCompletion.Yaml

/-- The tokens ahead and why no more follow them, the handles of tags, and the anchors and
nodes so far. -/
structure Parser where
  tokens : List Token
  stop : Stop
  handles : List (String × String)
  anchors : List (String × NodeId) := []
  graph : Graph := {}

namespace Parser

/-- The next token. -/
def peek (p : Parser) : Reading Token :=
  match p.tokens with
  | t :: _ => .ok t
  | [] => .error p.stop

/-- Behind the next token. -/
def next (p : Parser) : Parser := { p with tokens := p.tokens.tail }

/-- Behind a new node, with its number. The anchor, if there is one, names it. -/
def add (p : Parser) (anchor : Option String) (n : Node) : NodeId × Parser :=
  let id := p.graph.size
  let p := { p with graph := p.graph.add n }
  match anchor with
  | some name => (id, { p with anchors := (name, id) :: p.anchors })
  | none => (id, p)

/-- The empty scalar of a node that is left out here. -/
def addAbsent (p : Parser) : NodeId × Parser := p.add none .absent

/-- The items of a sequence are known. -/
def fillItems (p : Parser) (id : NodeId) (items : List NodeId) : Parser :=
  { p with graph := p.graph.put id ⟨p.graph.tag id, .sequence items⟩ }

/-- The pairs of a mapping are known. -/
def fillPairs (p : Parser) (id : NodeId) (pairs : List (NodeId × NodeId)) : Parser :=
  { p with graph := p.graph.putPairs id pairs }

/-- The tag behind a handle. -/
def fullTag (p : Parser) (handle : Option String) (suffix : String) : Reading String :=
  match handle with
  | none => .ok suffix
  | some handle =>
    match p.handles.lookup handle with
    | some start => .ok (start ++ suffix)
    | none => refuse .unknownHandle

/-- What stands before a node: an anchor, a tag, both in any order, or nothing. -/
def properties (p : Parser) : Reading (Option String × Option String × Parser) := do
  match ← p.peek with
  | .anchor name =>
    let p := p.next
    match ← p.peek with
    | .tag handle suffix => return (some name, some (← p.fullTag handle suffix), p.next)
    | _ => return (some name, none, p)
  | .tag handle suffix =>
    let p' := p.next
    match ← p'.peek with
    | .anchor name => return (some name, some (← p.fullTag handle suffix), p'.next)
    | _ => return (none, some (← p.fullTag handle suffix), p')
  | _ => return (none, none, p)

/-- The tag says nothing. -/
def isOpenTag (tag : Option String) : Bool := tag.getD "!" = "!"

/-- The anchor is new. -/
def checkAnchor (p : Parser) (anchor : Option String) : Reading Unit :=
  match anchor with
  | some name => if (p.anchors.lookup name).isSome then refuse .repeatedAnchor else .ok ()
  | none => .ok ()

/-- The tag of a collection. -/
def collectionTag (tag : Option String) (kind : String) : String :=
  if isOpenTag tag then coreTag kind else tag.getD ""

/-- A scalar with what stands before it. -/
def addScalar (p : Parser) (anchor tag : Option String) (codes : List Nat) (plain : Bool) :
    NodeId × Parser :=
  let tag := if isOpenTag tag then scalarTag (plain || tag = some "!") codes else tag.getD ""
  p.add anchor ⟨tag, .scalar codes⟩

/-- A sequence whose items are not known yet. -/
def addSequence (p : Parser) (anchor tag : Option String) : NodeId × Parser :=
  p.add anchor ⟨collectionTag tag "seq", .sequence []⟩

/-- A mapping whose pairs are not known yet. -/
def addMapping (p : Parser) (anchor tag : Option String) : NodeId × Parser :=
  p.add anchor ⟨collectionTag tag "map", .mapping []⟩

mutual

/-- The node that starts here. Blocks may start here if `block`, and the items of a sequence
may stand here without a block of their own if `loose`. -/
def node : Nat → Bool → Bool → Parser → Reading (NodeId × Parser)
  | 0, _, _, _ => refuse .tooDeep
  | fuel + 1, block, loose, p => do
    match ← p.peek with
    | .alias name =>
      match p.anchors.lookup name with
      | some id => return (id, p.next)
      | none => refuse .unknownAnchor
    | _ =>
      let (anchor, tag, p) ← p.properties
      match ← p.peek with
      | .scalar codes plain =>
        p.checkAnchor anchor
        return p.next.addScalar anchor tag codes plain
      | .flowSequenceStart =>
        p.checkAnchor anchor
        let (id, p) := p.next.addSequence anchor tag
        let (items, p) ← flowItems fuel true p
        return (id, p.fillItems id items)
      | .flowMappingStart =>
        p.checkAnchor anchor
        let (id, p) := p.next.addMapping anchor tag
        let (pairs, p) ← flowPairs fuel true p
        return (id, p.fillPairs id pairs)
      | t =>
        if loose && t = .blockEntry then do
          p.checkAnchor anchor
          let (id, p) := p.addSequence anchor tag
          let (items, p) ← looseItems fuel p
          return (id, p.fillItems id items)
        else if block && t = .blockSequenceStart then do
          p.checkAnchor anchor
          let (id, p) := p.next.addSequence anchor tag
          let (items, p) ← blockItems fuel p
          return (id, p.fillItems id items)
        else if block && t = .blockMappingStart then do
          p.checkAnchor anchor
          let (id, p) := p.next.addMapping anchor tag
          let (pairs, p) ← blockPairs fuel p
          return (id, p.fillPairs id pairs)
        else if anchor.isSome || tag.isSome then do
          p.checkAnchor anchor
          return p.addScalar anchor tag [] (tag.isNone || tag = some "!")
        else refuse .missingNode

/-- The items of a sequence in a block, to its end. -/
def blockItems : Nat → Parser → Reading (List NodeId × Parser)
  | 0, _ => refuse .tooDeep
  | fuel + 1, p => do
    match ← p.peek with
    | .blockEntry =>
      let p := p.next
      let t ← p.peek
      let (n, p) ←
        if t = .blockEntry || t = .blockEnd then pure p.addAbsent
        else node fuel true false p
      let (rest, p) ← blockItems fuel p
      return (n :: rest, p)
    | .blockEnd => return ([], p.next)
    | _ => refuse .unclosedBlock

/-- The items of a sequence without a block of its own. -/
def looseItems : Nat → Parser → Reading (List NodeId × Parser)
  | 0, _ => refuse .tooDeep
  | fuel + 1, p => do
    match ← p.peek with
    | .blockEntry =>
      let p := p.next
      let t ← p.peek
      let (n, p) ←
        if t = .blockEntry || t = .key || t = .value || t = .blockEnd then pure p.addAbsent
        else node fuel true false p
      let (rest, p) ← looseItems fuel p
      return (n :: rest, p)
    | _ => return ([], p)

/-- The key or the value behind its mark in a block, left out before another mark. -/
def blockPart : Nat → Parser → Reading (NodeId × Parser)
  | 0, _ => refuse .tooDeep
  | fuel + 1, p => do
    let t ← p.peek
    if t = .key || t = .value || t = .blockEnd then return p.addAbsent
    else node fuel true true p

/-- The pairs of a mapping in a block, to its end. -/
def blockPairs : Nat → Parser → Reading (List (NodeId × NodeId) × Parser)
  | 0, _ => refuse .tooDeep
  | fuel + 1, p => do
    match ← p.peek with
    | .key =>
      let (k, p) ← blockPart fuel p.next
      let (v, p) ← blockValue fuel p
      let (rest, p) ← blockPairs fuel p
      return ((k, v) :: rest, p)
    | .blockEnd => return ([], p.next)
    | _ => refuse .unclosedBlock

/-- The value of a pair in a block, left out if its mark is. -/
def blockValue : Nat → Parser → Reading (NodeId × Parser)
  | 0, _ => refuse .tooDeep
  | fuel + 1, p => do
    if (← p.peek) = .value then blockPart fuel p.next else return p.addAbsent

/-- The comma before an item or a pair that is not the first. -/
def comma (first : Bool) : Nat → Parser → Reading Parser
  | 0, _ => refuse .tooDeep
  | _ + 1, p => do
    if first then return p
    else if (← p.peek) = .flowEntry then return p.next
    else refuse .unclosedFlow

/-- The items of a sequence in brackets, to the closing one. An item with a key is a mapping of
one pair. -/
def flowItems : Nat → Bool → Parser → Reading (List NodeId × Parser)
  | 0, _, _ => refuse .tooDeep
  | fuel + 1, first, p => do
    if (← p.peek) = .flowSequenceEnd then return ([], p.next)
    else
      let p ← comma first fuel p
      match ← p.peek with
      | .flowSequenceEnd => return ([], p.next)
      | .key =>
        let (id, p) := p.next.addMapping none none
        let (k, p) ← flowPart fuel .flowSequenceEnd p
        let (v, p) ← flowValue fuel .flowSequenceEnd p
        let (rest, p) ← flowItems fuel false (p.fillPairs id [(k, v)])
        return (id :: rest, p)
      | _ =>
        let (n, p) ← node fuel false false p
        let (rest, p) ← flowItems fuel false p
        return (n :: rest, p)

/-- The key or the value behind its mark in brackets, left out before another mark. -/
def flowPart : Nat → Token → Parser → Reading (NodeId × Parser)
  | 0, _, _ => refuse .tooDeep
  | fuel + 1, closing, p => do
    let t ← p.peek
    if t = .value || t = .flowEntry || t = closing then return p.addAbsent
    else node fuel false false p

/-- The value of a pair in brackets, left out if its mark is. -/
def flowValue : Nat → Token → Parser → Reading (NodeId × Parser)
  | 0, _, _ => refuse .tooDeep
  | fuel + 1, closing, p => do
    if (← p.peek) = .value then
      let t ← p.next.peek
      if t = .flowEntry || t = closing then return p.next.addAbsent
      else node fuel false false p.next
    else return p.addAbsent

/-- The pairs of a mapping in brackets, to the closing one. A node without a mark is a key
without a value. -/
def flowPairs : Nat → Bool → Parser → Reading (List (NodeId × NodeId) × Parser)
  | 0, _, _ => refuse .tooDeep
  | fuel + 1, first, p => do
    if (← p.peek) = .flowMappingEnd then return ([], p.next)
    else
      let p ← comma first fuel p
      match ← p.peek with
      | .flowMappingEnd => return ([], p.next)
      | .key =>
        let (k, p) ← flowPart fuel .flowMappingEnd p.next
        let (v, p) ← flowValue fuel .flowMappingEnd p
        let (rest, p) ← flowPairs fuel false p
        return ((k, v) :: rest, p)
      | _ =>
        let (k, p) ← node fuel false false p
        let (v, p) := p.addAbsent
        let (rest, p) ← flowPairs fuel false p
        return ((k, v) :: rest, p)

end

/-- The handles that every document knows. -/
def knownHandles : List (String × String) := [("!", "!"), ("!!", coreTag "")]

/-- The handles that directives add to the known ones. A document has one version at most,
and no handle twice. -/
def readDirectives : Nat → Bool → Parser → Reading Parser
  | 0, _, _ => refuse .tooDeep
  | fuel + 1, versioned, p => do
    match ← p.peek with
    | .directive (.version major _) =>
      if versioned || major != 1 then refuse .directive
      else readDirectives fuel true p.next
    | .directive (.tag handle start) =>
      if (p.handles.lookup handle).isSome then refuse .directive
      else readDirectives fuel versioned { p.next with handles := (handle, start) :: p.handles }
    | .directive .other => readDirectives fuel versioned p.next
    | _ => return { p with handles := p.handles ++ knownHandles }

/-- Behind marks of the end of a document. -/
def skipEnds : List Token → List Token
  | .documentEnd :: rest => skipEnds rest
  | ts => ts

/-- A bound for the steps that the tokens ahead allow. -/
def fuel (p : Parser) : Nat := 4 * p.tokens.length + 8

/-- The node of a document that starts with directives or its mark. -/
def markedDocument (p : Parser) : Reading (NodeId × Parser) := do
  let p ← readDirectives p.fuel false { p with handles := [] }
  if (← p.peek) != .documentStart then refuse .missingNode
  let p := p.next
  match ← p.peek with
  | .directive _ | .documentStart | .documentEnd | .streamEnd => return p.addAbsent
  | _ => node p.fuel true false p

/-- The graph of the only document and its first node, none if there is no document. -/
def onlyDocument (p : Parser) : Reading (Option (Graph × NodeId)) := do
  match ← p.peek with
  | .streamEnd => return none
  | t =>
    let (id, p) ←
      match t with
      | .directive _ | .documentStart => p.markedDocument
      | _ => node p.fuel true false p
    let p := { p with tokens := skipEnds p.tokens }
    if (← p.peek) = .streamEnd then return some (p.graph, id) else refuse .secondDocument

end Parser

/-- The graph of a text and the node of its document, none if it holds no document. -/
def document (cs : List Char) : Reading (Option (Graph × NodeId)) :=
  if !cs.all isAllowed then refuse .unprintable
  else
    let (ts, stop) := tokens cs
    Parser.onlyDocument { tokens := ts, stop, handles := Parser.knownHandles }

end TabCompletion.Yaml
