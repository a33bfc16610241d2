import TabCompletion.Proofs.YamlTokens
import TabCompletion.Yaml.Graph.Merging
import TabCompletion.Yaml.Graph.Parser

/-!
# Faults on the way from tokens to nodes

The parser stops at a fault only where the tokens end, and for the reason for which they end there:
every function of it keeps that reason and stops at no other fault (`Parser.Follow`). Merging meets
no fault at all, and the graph stays as it is but for the pairs of mappings and for marks of values
that become texts (`Graph.Alike`, `Graph.ensures_flatten`).
-/

namespace TabCompletion.Yaml

namespace Parser

/-- The reading keeps the reason for which there are no more tokens, and that is the only fault it
stops at. -/
def Follows {α : Type} (stop : Stop) (r : Reading (α × Parser)) : Prop :=
  Ensures (fun fault => stop = .fault fault) (fun a => a.2.stop = stop) r

section

variable {stop : Stop} {p : Parser}

theorem ensures_peek (h : p.stop = stop) :
    Ensures (fun fault => stop = .fault fault) (fun _ => True) p.peek := by
  unfold peek
  split
  · trivial
  · rw [h]
    cases stop with
    | malformed problem => trivial
    | fault fault => exact rfl

theorem stop_add (p : Parser) (anchor : Option String) (n : Node) :
    (p.add anchor n).2.stop = p.stop := by
  cases anchor <;> rfl

theorem ensures_fullTag {cause : Fault → Prop} (p : Parser) (handle : Option String)
    (suffix : String) : Ensures cause (fun _ => True) (p.fullTag handle suffix) := by
  unfold fullTag
  split
  · trivial
  · split <;> trivial

theorem ensures_checkAnchor {cause : Fault → Prop} (p : Parser) (anchor : Option String) :
    Ensures cause (fun _ => True) (p.checkAnchor anchor) := by
  unfold checkAnchor
  split
  · split <;> trivial
  · trivial

theorem ensures_properties (h : p.stop = stop) :
    Ensures (fun fault => stop = .fault fault) (fun a => a.2.2.stop = stop) p.properties := by
  unfold properties
  refine (ensures_peek h).bind fun t _ => ?_
  have hnext : p.next.stop = stop := h
  split
  · refine (ensures_peek hnext).bind fun t _ => ?_
    split
    · exact (ensures_fullTag _ _ _).bind fun _ _ => hnext
    · exact hnext
  · refine (ensures_peek hnext).bind fun t _ => ?_
    split
    · exact (ensures_fullTag _ _ _).bind fun _ _ => hnext
    · exact (ensures_fullTag _ _ _).bind fun _ _ => hnext
  · exact h

/-- All readings of nodes and of their parts follow the tokens. -/
structure Follow (stop : Stop) (fuel : Nat) : Prop where
  node : ∀ {p : Parser} (block loose : Bool), p.stop = stop → Follows stop (node fuel block loose p)
  blockItems : ∀ {p : Parser}, p.stop = stop → Follows stop (blockItems fuel p)
  looseItems : ∀ {p : Parser}, p.stop = stop → Follows stop (looseItems fuel p)
  blockPart : ∀ {p : Parser}, p.stop = stop → Follows stop (blockPart fuel p)
  blockPairs : ∀ {p : Parser}, p.stop = stop → Follows stop (blockPairs fuel p)
  blockValue : ∀ {p : Parser}, p.stop = stop → Follows stop (blockValue fuel p)
  flowItems : ∀ {p : Parser} (first : Bool), p.stop = stop → Follows stop (flowItems fuel first p)
  flowPart : ∀ {p : Parser} (closing : Token), p.stop = stop → Follows stop (flowPart fuel closing p)
  flowValue : ∀ {p : Parser} (closing : Token), p.stop = stop → Follows stop (flowValue fuel closing p)
  flowPairs : ∀ {p : Parser} (first : Bool), p.stop = stop → Follows stop (flowPairs fuel first p)

variable {fuel : Nat}

theorem Follow.node_succ (ih : Follow stop fuel) (block loose : Bool) (h : p.stop = stop) :
    Follows stop (Parser.node (fuel + 1) block loose p) := by
  unfold Parser.node
  refine (ensures_peek h).bind fun t _ => ?_
  split
  · split
    · exact h
    · exact ensures_refuse _
  · refine (ensures_properties h).bind ?_
    rintro ⟨anchor, tag, p⟩ h
    -- a new node, here or behind the next token, keeps the reason
    have hadd : ∀ n, (p.add anchor n).2.stop = stop := fun n => (stop_add _ _ _).trans h
    have haddNext : ∀ n, (p.next.add anchor n).2.stop = stop := fun n => (stop_add _ _ _).trans h
    refine (ensures_peek h).bind fun t _ => ?_
    dsimp only
    split
    · exact (ensures_checkAnchor _ _).bind fun _ _ => haddNext _
    · refine (ensures_checkAnchor _ _).bind fun _ _ => ?_
      exact (ih.flowItems _ (haddNext _)).bind fun _ h => h
    · refine (ensures_checkAnchor _ _).bind fun _ _ => ?_
      exact (ih.flowPairs _ (haddNext _)).bind fun _ h => h
    · refine ensures_ite ?_ (ensures_ite ?_ (ensures_ite ?_ (ensures_ite ?_ (ensures_refuse _))))
      · refine (ensures_checkAnchor _ _).bind fun _ _ => ?_
        exact (ih.looseItems (hadd _)).bind fun _ h => h
      · refine (ensures_checkAnchor _ _).bind fun _ _ => ?_
        exact (ih.blockItems (haddNext _)).bind fun _ h => h
      · refine (ensures_checkAnchor _ _).bind fun _ _ => ?_
        exact (ih.blockPairs (haddNext _)).bind fun _ h => h
      · exact (ensures_checkAnchor _ _).bind fun _ _ => hadd _

theorem Follow.blockItems_succ (ih : Follow stop fuel) (h : p.stop = stop) :
    Follows stop (Parser.blockItems (fuel + 1) p) := by
  unfold Parser.blockItems
  refine (ensures_peek h).bind fun t _ => ?_
  split
  · refine (ensures_peek (p := p.next) h).bind fun t _ => ?_
    have habsent : Follows stop (pure p.next.addAbsent) := h
    have hrest : ∀ a : NodeId × Parser, a.2.stop = stop → Follows stop (do
        let b ← Parser.blockItems fuel a.2
        return (a.1 :: b.1, b.2)) := fun a ha => (ih.blockItems ha).bind fun _ h => h
    exact ensures_ite (habsent.bind hrest) ((ih.node _ _ (p := p.next) h).bind hrest)
  · exact h
  · exact ensures_refuse _

theorem Follow.looseItems_succ (ih : Follow stop fuel) (h : p.stop = stop) :
    Follows stop (Parser.looseItems (fuel + 1) p) := by
  unfold Parser.looseItems
  refine (ensures_peek h).bind fun t _ => ?_
  split
  · refine (ensures_peek (p := p.next) h).bind fun t _ => ?_
    have habsent : Follows stop (pure p.next.addAbsent) := h
    have hrest : ∀ a : NodeId × Parser, a.2.stop = stop → Follows stop (do
        let b ← Parser.looseItems fuel a.2
        return (a.1 :: b.1, b.2)) := fun a ha => (ih.looseItems ha).bind fun _ h => h
    exact ensures_ite (habsent.bind hrest) ((ih.node _ _ (p := p.next) h).bind hrest)
  · exact h

theorem Follow.blockPart_succ (ih : Follow stop fuel) (h : p.stop = stop) :
    Follows stop (Parser.blockPart (fuel + 1) p) := by
  unfold Parser.blockPart
  refine (ensures_peek h).bind fun t _ => ?_
  exact ensures_ite h (ih.node _ _ h)

theorem Follow.blockPairs_succ (ih : Follow stop fuel) (h : p.stop = stop) :
    Follows stop (Parser.blockPairs (fuel + 1) p) := by
  unfold Parser.blockPairs
  refine (ensures_peek h).bind fun t _ => ?_
  split
  · refine (ih.blockPart (p := p.next) h).bind ?_
    rintro ⟨k, p⟩ h
    refine (ih.blockValue h).bind ?_
    rintro ⟨v, p⟩ h
    exact (ih.blockPairs h).bind fun _ h => h
  · exact h
  · exact ensures_refuse _

theorem Follow.blockValue_succ (ih : Follow stop fuel) (h : p.stop = stop) :
    Follows stop (Parser.blockValue (fuel + 1) p) := by
  unfold Parser.blockValue
  refine (ensures_peek h).bind fun t _ => ?_
  exact ensures_ite (ih.blockPart (p := p.next) h) h

theorem ensures_comma (first : Bool) (fuel : Nat) (h : p.stop = stop) :
    Ensures (fun fault => stop = .fault fault) (fun p => p.stop = stop)
      (Parser.comma first fuel p) := by
  cases fuel with
  | zero => exact ensures_refuse _
  | succ fuel =>
      refine ensures_ite h ?_
      refine (ensures_peek h).bind fun t _ => ?_
      exact ensures_ite h (ensures_refuse _)

theorem Follow.flowItems_succ (ih : Follow stop fuel) (first : Bool) (h : p.stop = stop) :
    Follows stop (Parser.flowItems (fuel + 1) first p) := by
  unfold Parser.flowItems
  refine (ensures_peek h).bind fun t _ => ?_
  refine ensures_ite h ?_
  refine (ensures_comma first fuel h).bind fun p h => ?_
  refine (ensures_peek h).bind fun t _ => ?_
  split
  · exact h
  · refine (ih.flowPart _ (p := (p.next.addMapping none none).2) h).bind ?_
    rintro ⟨k, p⟩ h
    refine (ih.flowValue _ h).bind ?_
    rintro ⟨v, p⟩ h
    exact (ih.flowItems _ (p := p.fillPairs _ _) h).bind fun _ h => h
  · refine (ih.node _ _ h).bind ?_
    rintro ⟨n, p⟩ h
    exact (ih.flowItems _ h).bind fun _ h => h

theorem Follow.flowPart_succ (ih : Follow stop fuel) (closing : Token) (h : p.stop = stop) :
    Follows stop (Parser.flowPart (fuel + 1) closing p) := by
  unfold Parser.flowPart
  refine (ensures_peek h).bind fun t _ => ?_
  exact ensures_ite h (ih.node _ _ h)

theorem Follow.flowValue_succ (ih : Follow stop fuel) (closing : Token) (h : p.stop = stop) :
    Follows stop (Parser.flowValue (fuel + 1) closing p) := by
  unfold Parser.flowValue
  refine (ensures_peek h).bind fun t _ => ?_
  refine ensures_ite ?_ h
  refine (ensures_peek (p := p.next) h).bind fun t _ => ?_
  exact ensures_ite h (ih.node _ _ (p := p.next) h)

theorem Follow.flowPairs_succ (ih : Follow stop fuel) (first : Bool) (h : p.stop = stop) :
    Follows stop (Parser.flowPairs (fuel + 1) first p) := by
  unfold Parser.flowPairs
  refine (ensures_peek h).bind fun t _ => ?_
  refine ensures_ite h ?_
  refine (ensures_comma first fuel h).bind fun p h => ?_
  refine (ensures_peek h).bind fun t _ => ?_
  split
  · exact h
  · refine (ih.flowPart _ (p := p.next) h).bind ?_
    rintro ⟨k, p⟩ h
    refine (ih.flowValue _ h).bind ?_
    rintro ⟨v, p⟩ h
    exact (ih.flowPairs _ h).bind fun _ h => h
  · refine (ih.node _ _ h).bind ?_
    rintro ⟨k, p⟩ h
    exact (ih.flowPairs _ (p := p.addAbsent.2) h).bind fun _ h => h

theorem follow (stop : Stop) (fuel : Nat) : Follow stop fuel := by
  induction fuel with
  | zero =>
      -- no steps are left
      constructor <;> intros <;> exact ensures_refuse _
  | succ fuel ih =>
      exact
        { node := ih.node_succ
          blockItems := ih.blockItems_succ
          looseItems := ih.looseItems_succ
          blockPart := ih.blockPart_succ
          blockPairs := ih.blockPairs_succ
          blockValue := ih.blockValue_succ
          flowItems := ih.flowItems_succ
          flowPart := ih.flowPart_succ
          flowValue := ih.flowValue_succ
          flowPairs := ih.flowPairs_succ }

theorem ensures_readDirectives (fuel : Nat) (versioned : Bool) (h : p.stop = stop) :
    Ensures (fun fault => stop = .fault fault) (fun p => p.stop = stop)
      (readDirectives fuel versioned p) := by
  induction fuel generalizing p versioned with
  | zero => exact ensures_refuse _
  | succ fuel ih =>
      have hnext : p.next.stop = stop := h
      unfold readDirectives
      refine (ensures_peek h).bind fun t _ => ?_
      split
      · exact ensures_ite (ensures_refuse _) (ih _ hnext)
      · exact ensures_ite (ensures_refuse _) (ih _ (p := { p.next with handles := _ }) h)
      · exact ih _ hnext
      · exact h

theorem follows_markedDocument (h : p.stop = stop) : Follows stop p.markedDocument := by
  unfold markedDocument
  refine (ensures_readDirectives _ _ (p := { p with handles := [] }) h).bind fun p h => ?_
  refine (ensures_peek h).bind fun t _ => ?_
  refine ensures_unless fun _ => ?_
  have hnext : p.next.stop = stop := h
  refine (ensures_peek hnext).bind fun t _ => ?_
  -- the document is empty in all cases but the last
  split
  · exact h
  · exact h
  · exact h
  · exact h
  · exact (follow stop _).node _ _ hnext

/-- The reading of the only document stops at the fault at which the tokens end, or at none. -/
theorem ensures_onlyDocument (h : p.stop = stop) :
    Ensures (fun fault => stop = .fault fault) (fun _ => True) p.onlyDocument := by
  unfold onlyDocument
  refine (ensures_peek h).bind fun t _ => ?_
  -- behind the document the tokens have to end
  have hend : ∀ (id : NodeId) {p : Parser}, p.stop = stop →
      Ensures (fun fault => stop = .fault fault) (fun _ => True) (do
        if (← p.peek) = .streamEnd then return some (p.graph, id) else refuse .secondDocument) := by
    intro id p h
    refine (ensures_peek h).bind fun t _ => ?_
    exact ensures_ite trivial (ensures_refuse _)
  split
  · trivial
  · dsimp only
    split
    · exact (follows_markedDocument h).bind fun _ h => hend _ h
    · exact (follows_markedDocument h).bind fun _ h => hend _ h
    · exact ((follow stop _).node _ _ h).bind fun _ h => hend _ h

end

end Parser

/-! ## Merging -/

/-- The nodes hold the same, except that a mapping may have come to hold other pairs, and that a
mark may have become a text. -/
def Node.Alike (n n' : Node) : Prop :=
  (n'.tag = n.tag ∨ n'.tag = coreTag "str") ∧
    (n'.content = n.content ∨ ∃ pairs pairs', n.content = .mapping pairs ∧
      n'.content = .mapping pairs')

namespace Graph

/-- The nodes of the graphs are alike, one by one. -/
def Alike (g g' : Graph) : Prop := ∀ id, (g.node id).Alike (g'.node id)

variable {g g' g'' : Graph} {id : NodeId}

theorem Alike.refl (g : Graph) : g.Alike g := fun _ => ⟨.inl rfl, .inl rfl⟩

theorem Alike.trans (h : g.Alike g') (h' : g'.Alike g'') : g.Alike g'' := by
  intro id
  obtain ⟨htag, hcontent⟩ := h id
  obtain ⟨htag', hcontent'⟩ := h' id
  refine ⟨?_, ?_⟩
  · rcases htag' with htag' | htag'
    · rw [htag']
      exact htag
    · -- a text stays one, whatever it was before
      exact .inr htag'
  · rcases hcontent' with hsame' | ⟨pairs', pairs'', hmap', hmap''⟩
    · rw [hsame']
      exact hcontent
    · rcases hcontent with hsame | ⟨pairs, _, hmap, -⟩
      · exact .inr ⟨pairs', pairs'', hsame ▸ hmap', hmap''⟩
      · exact .inr ⟨pairs, pairs'', hmap, hmap''⟩

/-- Another node under a number changes that node alone; a number that was not given out keeps
standing for an absent node. -/
theorem node_put (g : Graph) (id : NodeId) (n : Node) (other : NodeId) :
    (g.put id n).node other = if other = id ∧ id < g.size then n else g.node other := by
  unfold put node size
  rw [Array.getElem?_setIfInBounds]
  split_ifs <;> simp_all

theorem alike_put {n : Node} (hn : (g.node id).Alike n) : g.Alike (g.put id n) := by
  intro other
  rw [node_put]
  split_ifs with h
  · rw [h.1]
    exact hn
  · exact Alike.refl g other

theorem alike_unmark (g : Graph) (id : NodeId) : g.Alike (g.unmark id) := by
  unfold unmark
  split_ifs
  · exact alike_put ⟨.inr rfl, .inl rfl⟩
  · exact Alike.refl g

/-- The node is a mapping. -/
def IsMapping (g : Graph) (id : NodeId) : Prop := ∃ pairs, (g.node id).content = .mapping pairs

theorem alike_putPairs (h : g.IsMapping id) (pairs : List (NodeId × NodeId)) :
    g.Alike (g.putPairs id pairs) := by
  obtain ⟨own, hown⟩ := h
  exact alike_put ⟨.inl rfl, .inr ⟨own, pairs, hown, rfl⟩⟩

theorem pairs?_eq_some {pairs : List (NodeId × NodeId)} (h : g.pairs? id = some pairs) :
    g.IsMapping id := by
  unfold pairs? at h
  split at h
  · next hcontent => exact ⟨_, hcontent⟩
  · cases h

theorem Alike.isMapping_iff (h : g.Alike g') : g'.IsMapping id ↔ g.IsMapping id := by
  obtain ⟨-, hsame | ⟨pairs, pairs', hmap, hmap'⟩⟩ := h id
  · unfold IsMapping
    rw [hsame]
  · exact ⟨fun _ => ⟨pairs, hmap⟩, fun _ => ⟨pairs', hmap'⟩⟩

theorem alike_prepend (h : g.IsMapping id) (merged : List (NodeId × NodeId)) :
    g.Alike (g.prepend id merged) := by
  unfold prepend
  -- its own marks of a value become texts before the pairs come together
  have hunmark : ∀ (own : List (NodeId × NodeId)) (g' : Graph), g.Alike g' →
      g.Alike (own.foldl (fun g pair => g.unmark pair.1) g') := by
    intro own
    induction own with
    | nil => exact fun _ h => h
    | cons pair own ih => exact fun g' h => ih _ (h.trans (alike_unmark g' pair.1))
  have hfold := hunmark ((g.pairs? id).getD []) g (Alike.refl g)
  exact hfold.trans (alike_putPairs (hfold.isMapping_iff.2 h) _)

/-- Merging keeps the graph alike and meets no fault. -/
structure Merge (fuel : Nat) : Prop where
  flattenFrom : ∀ {g : Graph} {id : NodeId}, g.IsMapping id →
    Ensures (fun _ => False) g.Alike (flattenFrom fuel g id)
  mergedInto : ∀ (g : Graph) (id : NodeId),
    Ensures (fun _ => False) (fun a => g.Alike a.2) (mergedInto fuel g id)
  mergedFrom : ∀ (g : Graph) (id : NodeId),
    Ensures (fun _ => False) (fun a => g.Alike a.2) (mergedFrom fuel g id)
  mergedOf : ∀ (g : Graph) (id : NodeId),
    Ensures (fun _ => False) (fun a => g.Alike a.2) (mergedOf fuel g id)

theorem merge (fuel : Nat) : Merge fuel := by
  induction fuel with
  | zero =>
      constructor <;> intros
      · unfold Graph.flattenFrom
        exact Alike.refl _
      · unfold Graph.mergedInto
        exact Alike.refl _
      · unfold Graph.mergedFrom
        exact Alike.refl _
      · unfold Graph.mergedOf
        exact Alike.refl _
  | succ fuel ih =>
      constructor
      · intro g id hmap
        unfold Graph.flattenFrom
        refine (ih.mergedInto g id).bind ?_
        rintro ⟨merged, g'⟩ hg'
        exact hg'.trans (alike_prepend (hg'.isMapping_iff.2 hmap) merged)
      · intro g id
        unfold Graph.mergedInto
        split
        · exact Alike.refl g
        · next source rest hmerge =>
            have hmap : g.IsMapping id := by
              obtain ⟨pairs, hpairs, -⟩ := Option.bind_eq_some_iff.1 hmerge
              exact pairs?_eq_some hpairs
            have hput := alike_putPairs hmap rest
            refine (ih.mergedFrom _ source).bind ?_
            rintro ⟨merged, g'⟩ hg'
            refine (ih.mergedInto g' id).bind ?_
            rintro ⟨more, g''⟩ hg''
            exact (hput.trans hg').trans hg''
      · intro g source
        unfold Graph.mergedFrom
        split
        · exact ih.mergedOf g source
        · refine Ensures.foldlM ?_ (Alike.refl g)
          -- the sources of a sequence are merged one after another
          rintro ⟨merged, g'⟩ item - hg'
          refine (ih.mergedOf g' item).bind ?_
          rintro ⟨pairs, g''⟩ hg''
          exact Alike.trans hg' hg''
        · exact ensures_refuse _
      · intro g id
        unfold Graph.mergedOf
        split
        · exact ensures_refuse _
        · next hpairs => exact (ih.flattenFrom (pairs?_eq_some hpairs)).bind fun _ h => h

theorem ensures_flatten (h : g.IsMapping id) :
    Ensures (fun _ => False) g.Alike (g.flatten id) := (merge _).flattenFrom h

end Graph

end TabCompletion.Yaml
