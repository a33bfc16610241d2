import TabCompletion.Proofs.YamlNodes
import TabCompletion.Yaml.Unfolding

/-!
# Faults of a YAML text

A scalar whose text makes no value of its tag is a fault, and each tag has its own faults
(`stopsAt_value`). Going through the nodes of a document meets no others, except for mappings that
stand for scalars (`Graph.Upsets`, `Making.keeps_ofNode`). So a text is a fault only if a number in
it is too large for the lexer, or if a node of its document is one (`upsets_of_read`).
-/

namespace TabCompletion.Yaml

/-! ## Values of scalars -/

/-- The faults that a text may be for a tag. -/
def ScalarTag.faults : ScalarTag → List Fault
  | .bool => [.badKey]
  | .int => [.badValue, .badIndex]
  | .float => [.badValue, .badIndex, .overflow]
  | .timestamp => [.badValue, .badMember]
  | .null | .binary | .str => []

section

variable {faults : List Fault}

/-- The reading stops at one of the faults, if at any. -/
def StopsAt {α : Type} (faults : List Fault) (r : Reading α) : Prop :=
  Ensures (· ∈ faults) (fun _ => True) r

theorem StopsAt.bind {α β : Type} {r : Reading α} {next : α → Reading β} (hr : StopsAt faults r)
    (hnext : ∀ a, StopsAt faults (next a)) : StopsAt faults (r >>= next) :=
  Ensures.bind hr fun a _ => hnext a

theorem stopsAt_unless {α β : Type} {broken : Prop} [Decidable broken] {fault : Fault}
    {next : α → Reading β} {r : Reading β} (hfault : fault ∈ faults) (hr : StopsAt faults r) :
    StopsAt faults (if broken then .error (.fault fault) >>= next else r) :=
  ensures_ite hfault hr

theorem stopsAt_mapM {α β : Type} {read : α → Reading β} (hread : ∀ a, StopsAt faults (read a))
    (items : List α) : StopsAt faults (items.mapM read) := by
  induction items with
  | nil => trivial
  | cons a items ih =>
      rw [List.mapM_cons]
      exact (hread a).bind fun b => ih.bind fun bs => trivial

theorem stopsAt_charsOf (hvalue : .badValue ∈ faults) (codes : List Nat) :
    StopsAt faults (charsOf codes) := by
  unfold charsOf
  split
  · trivial
  · exact hvalue

theorem stopsAt_boolValue (cs : List Char) : StopsAt ScalarTag.bool.faults (boolValue cs) := by
  unfold boolValue
  dsimp only
  split_ifs
  · trivial
  · trivial
  · exact List.mem_cons_self

theorem stopsAt_integerIn (hvalue : .badValue ∈ faults) (base : Nat) (cs : List Char) :
    StopsAt faults (integerIn base cs) := by
  unfold integerIn
  dsimp only
  split
  · exact hvalue
  · split
    · trivial
    · exact hvalue

theorem stopsAt_integerValue (cs : List Char) : StopsAt ScalarTag.int.faults (integerValue cs) := by
  have hin : ∀ base cs, StopsAt ScalarTag.int.faults (integerIn base cs) :=
    stopsAt_integerIn (by decide)
  unfold integerValue
  dsimp only
  refine stopsAt_unless (by decide) ?_
  split
  · exact List.mem_cons_of_mem _ List.mem_cons_self
  · trivial
  · exact (hin _ _).bind fun _ => trivial
  · exact (hin _ _).bind fun _ => trivial
  · exact (hin _ _).bind fun _ => trivial
  · split
    · exact (stopsAt_mapM (hin 10) _).bind fun _ => trivial
    · exact (hin _ _).bind fun _ => trivial

theorem stopsAt_floatOf (hvalue : .badValue ∈ faults) (cs : List Char) :
    StopsAt faults (floatOf cs) := by
  unfold floatOf
  dsimp only
  split
  · trivial
  · exact hvalue

theorem stopsAt_floatSixties (hoverflow : .overflow ∈ faults) (sum : Number.Binary64) (scale : Nat)
    (parts : List Number.Binary64) : StopsAt faults (floatSixties sum scale parts) := by
  induction parts generalizing sum scale with
  | nil => trivial
  | cons part rest ih =>
      unfold floatSixties
      split
      · exact hoverflow
      · exact ih _ _

theorem stopsAt_floatValue (cs : List Char) : StopsAt ScalarTag.float.faults (floatValue cs) := by
  have hof : ∀ cs, StopsAt ScalarTag.float.faults (floatOf cs) := stopsAt_floatOf (by decide)
  unfold floatValue
  dsimp only
  refine stopsAt_unless (by decide) ?_
  split
  · trivial
  · split
    · trivial
    · split
      · refine (stopsAt_mapM hof _).bind fun parts => ?_
        exact (stopsAt_floatSixties (by decide) _ _ _).bind fun _ => trivial
      · exact (hof _).bind fun _ => trivial

theorem stopsAt_dayOf (hvalue : .badValue ∈ faults) (y m d : Nat) :
    StopsAt faults (dayOf y m d) := by
  unfold dayOf
  split
  · trivial
  · exact hvalue

theorem stopsAt_offsetOf (hvalue : .badValue ∈ faults) (cs : List Char) :
    StopsAt faults (offsetOf cs) := by
  unfold offsetOf
  split
  · trivial
  · trivial
  · dsimp only
    split
    · exact hvalue
    · trivial

theorem stopsAt_timestampValue (cs : List Char) :
    StopsAt ScalarTag.timestamp.faults (timestampValue cs) := by
  have hday : ∀ y m d, StopsAt ScalarTag.timestamp.faults (dayOf y m d) :=
    stopsAt_dayOf (by decide)
  have hoffset : ∀ cs, StopsAt ScalarTag.timestamp.faults (offsetOf cs) :=
    stopsAt_offsetOf (by decide)
  unfold timestampValue
  dsimp only
  refine stopsAt_unless (by decide) ?_
  split
  · exact (hday _ _ _).bind fun _ => trivial
  · refine (hoffset _).bind fun offset => ?_
    refine (hday _ _ _).bind fun date => ?_
    split
    · trivial
    · exact List.mem_cons_self

theorem stopsAt_binaryValue (codes : List Nat) : StopsAt faults (binaryValue codes) := by
  unfold binaryValue
  split
  · trivial
  · split <;> trivial

/-- A text that is a fault for a tag is one of its faults. -/
theorem stopsAt_value (tag : ScalarTag) (codes : List Nat) : StopsAt tag.faults (tag.value codes) := by
  cases tag with
  | null => trivial
  | bool => exact (stopsAt_boolValue _).bind fun _ => trivial
  | int =>
      exact (stopsAt_charsOf (by decide) codes).bind fun cs =>
        (stopsAt_integerValue cs).bind fun _ => trivial
  | float =>
      exact (stopsAt_charsOf (by decide) codes).bind fun cs =>
        (stopsAt_floatValue cs).bind fun _ => trivial
  | binary => exact (stopsAt_binaryValue codes).bind fun _ => trivial
  | timestamp => exact stopsAt_timestampValue _
  | str => trivial

end

/-! ## Nodes that are faults -/

namespace Graph

/-- The node is a mapping, which may stand for a scalar: there is a mark of a value. -/
def StandsIn (g : Graph) (id : NodeId) : Prop :=
  g.IsMapping id ∧ ∃ mark, g.tag mark = coreTag "value"

/-- A node of the graph makes a fault. -/
inductive Upsets (g : Graph) : Fault → Prop
  | value {id holder : NodeId} {tag : ScalarTag} {codes : List Nat} {fault : Fault}
      (htag : scalarTags.lookup (g.tag id) = some tag)
      (hcodes : (g.node holder).content = .scalar codes)
      (hholder : holder = id ∨ g.StandsIn id)
      (hvalue : tag.value codes = .error (.fault fault)) (hfault : fault ∈ tag.faults) :
      Upsets g fault
  | moment {id : NodeId} (htag : scalarTags.lookup (g.tag id) = some .timestamp)
      (hstands : g.StandsIn id) : Upsets g .badType
  | endless {id : NodeId} (hstands : g.StandsIn id) : Upsets g .endless

variable {g g' : Graph} {fault : Fault}

theorem Alike.scalar {id : NodeId} {codes : List Nat} (h : g.Alike g')
    (hcodes : (g'.node id).content = .scalar codes) : (g.node id).content = .scalar codes := by
  obtain ⟨-, hsame | ⟨_, pairs', -, hmap'⟩⟩ := h id
  · rw [← hsame, hcodes]
  · rw [hmap'] at hcodes
    cases hcodes

theorem Alike.standsIn {id : NodeId} (h : g.Alike g') (hstands : g'.StandsIn id) :
    g.StandsIn id := by
  obtain ⟨hmap, mark, hmark⟩ := hstands
  refine ⟨h.isMapping_iff.1 hmap, mark, ?_⟩
  obtain ⟨htag | htag, -⟩ := h mark
  · exact htag.symm.trans hmark
  · have hstr : g'.tag mark = coreTag "str" := htag
    rw [hmark] at hstr
    exact absurd hstr (by decide)

theorem Alike.upsets (h : g.Alike g') (hg' : g'.Upsets fault) : g.Upsets fault := by
  cases hg' with
  | @value id holder tag codes fault htag hcodes hholder hvalue hfault =>
      obtain ⟨hsame | hstr, -⟩ := h id
      · have htag' : g'.tag id = g.tag id := hsame
        rw [htag'] at htag
        exact .value htag (h.scalar hcodes) (hholder.imp_right h.standsIn) hvalue hfault
      · -- a text is never a fault
        have htag' : g'.tag id = coreTag "str" := hstr
        rw [htag'] at htag
        cases htag
        cases hvalue
  | @moment id htag hstands =>
      obtain ⟨hsame | hstr, -⟩ := h id
      · have htag' : g'.tag id = g.tag id := hsame
        rw [htag'] at htag
        exact .moment htag (h.standsIn hstands)
      · have htag' : g'.tag id = coreTag "str" := hstr
        rw [htag'] at htag
        exact absurd htag (by decide)
  | endless hstands => exact .endless (h.standsIn hstands)

/-- The text that a node stands for is that of a scalar. -/
theorem ensures_scalarCodes (g : Graph) (fuel : Nat) (id : NodeId) :
    Ensures (· = .endless) (fun codes => ∃ holder, (g.node holder).content = .scalar codes)
      (g.scalarCodes fuel id) := by
  induction fuel generalizing id with
  | zero => exact rfl
  | succ fuel ih =>
      unfold scalarCodes
      split
      · next hcontent => exact ⟨id, hcontent⟩
      · exact ensures_refuse _
      · split
        · exact ih _
        · exact ensures_refuse _

theorem ensures_scalarCodes_succ (g : Graph) (fuel : Nat) (id : NodeId) :
    Ensures (fun fault => fault = .endless ∧ g.StandsIn id)
      (fun codes => ∃ holder, (g.node holder).content = .scalar codes ∧
        (holder = id ∨ g.StandsIn id)) (g.scalarCodes (fuel + 1) id) := by
  unfold scalarCodes
  split
  · next hcontent => exact ⟨id, hcontent, .inl rfl⟩
  · exact ensures_refuse _
  · next pairs hcontent =>
      split
      · next pair hpair =>
          have hmark : g.tag pair.1 = coreTag "value" := by
            simpa using List.find?_some hpair
          have hstands : g.StandsIn id := ⟨⟨pairs, hcontent⟩, pair.1, hmark⟩
          refine (ensures_scalarCodes g fuel pair.2).mono (fun _ h => ⟨h, hstands⟩) ?_
          rintro codes ⟨holder, hcodes⟩
          exact ⟨holder, hcodes, .inr hstands⟩
      · exact ensures_refuse _

end Graph

theorem ensures_make {g : Graph} {id : NodeId} {tag : ScalarTag}
    (htag : scalarTags.lookup (g.tag id) = some tag) :
    Ensures g.Upsets (fun _ => True) (tag.make g id) := by
  unfold ScalarTag.make
  have hcodes : Ensures g.Upsets _ (g.scalarCodes (g.size + 1) id) :=
    (g.ensures_scalarCodes_succ g.size id).mono (fun _ h => h.1 ▸ .endless h.2) fun _ h => h
  refine hcodes.bind ?_
  rintro codes ⟨holder, hholder, hwhere⟩
  split
  · next hmoment =>
      rw [Bool.and_eq_true, decide_eq_true_eq] at hmoment
      rcases hwhere with rfl | hstands
      · simp [Graph.isScalar, hholder] at hmoment
      · exact .moment (hmoment.1 ▸ htag) hstands
  · have hvalue : Ensures g.Upsets (fun _ => True) (tag.value codes) := by
      cases hv : tag.value codes with
      | ok d => trivial
      | error stop =>
          cases stop with
          | malformed problem => trivial
          | fault fault =>
              have hfault := (stopsAt_value tag codes).fault hv
              exact Graph.Upsets.value htag hholder hwhere hv hfault
    exact hvalue.bind fun _ _ => trivial

/-! ## Making values -/

namespace Making

/-- The reading keeps the graph alike to `g`, and its faults are nodes of `g`. -/
def Keeps (g : Graph) (r : Reading Making) : Prop :=
  Ensures g.Upsets (fun m => g.Alike m.graph) r

variable {g : Graph} {m : Making}

theorem keeps_look (h : g.Alike m.graph) (id : NodeId) : Keeps g (m.look id) := by
  unfold look
  split
  · exact h
  · split
    · next tag htag =>
        have hmake := (ensures_make htag).mono (fun _ => h.upsets) fun _ h => h
        exact hmake.bind fun _ _ => h
    · split
      · exact h
      · exact ensures_refuse _

theorem keeps_lookAtKey (h : g.Alike m.graph) (id : NodeId) : Keeps g (m.lookAtKey id) := by
  unfold lookAtKey
  refine (keeps_look h id).bind fun m h => ?_
  split
  · exact h
  · exact ensures_refuse _

theorem keeps_lookAtPair (h : g.Alike m.graph) (pair : NodeId × NodeId) :
    Keeps g (m.lookAtPair pair) :=
  (keeps_look h pair.1).bind fun _ h => keeps_look h pair.2

theorem keeps_lookAtEntry (h : g.Alike m.graph) (entry : NodeId × NodeId) :
    Keeps g (m.lookAtEntry entry) :=
  (keeps_lookAtKey h entry.1).bind fun _ h => keeps_look h entry.2

theorem ensures_entries (h : g.Alike m.graph) (id : NodeId) :
    Ensures g.Upsets (fun a => g.Alike a.2.graph) (m.entries id) := by
  unfold entries
  split
  · exact ensures_refuse _
  · next hpairs =>
      have hflat : Ensures g.Upsets g.Alike (m.graph.flatten id) :=
        (Graph.ensures_flatten (Graph.pairs?_eq_some hpairs)).mono (fun _ hno => hno.elim)
          fun _ hg' => h.trans hg'
      refine hflat.bind fun g' hg' => ?_
      have hentries : Keeps g (((g'.pairs? id).getD []).foldlM lookAtEntry { m with graph := g' }) :=
        Ensures.foldlM (fun _ entry _ hm => keeps_lookAtEntry hm entry) hg'
      exact hentries.bind fun _ h => h

theorem ensures_items (h : g.Alike m.graph) (id : NodeId) :
    Ensures g.Upsets (fun a => g.Alike a.2.graph) (m.items id) := by
  unfold items
  split
  · exact ensures_refuse _
  · next items _ =>
      have hitems : Keeps g (items.foldlM look m) :=
        Ensures.foldlM (fun _ id _ hm => keeps_look hm id) h
      exact hitems.bind fun _ h => h

theorem ensures_singlePairs (h : g.Alike m.graph) (id : NodeId) :
    Ensures g.Upsets (fun a => g.Alike a.2.graph) (m.singlePairs id) := by
  unfold singlePairs
  split
  · exact ensures_refuse _
  · refine Ensures.foldlM ?_ h
    rintro ⟨pairs, m⟩ item - h
    dsimp only
    split
    · exact (keeps_lookAtPair h _).bind fun _ h => h
    · exact ensures_refuse _

theorem keeps_fill (h : g.Alike m.graph) (id : NodeId) : Keeps g (m.fill id) := by
  unfold fill
  split
  · exact (ensures_items h id).bind fun _ h => h
  · exact (ensures_entries h id).bind fun _ h => h
  · exact (ensures_entries h id).bind fun _ h => h
  · exact (ensures_singlePairs h id).bind fun _ h => h
  · exact (ensures_singlePairs h id).bind fun _ h => h
  · exact h

theorem keeps_fillAll (fuel : Nat) (ids : List NodeId) (h : g.Alike m.graph) :
    Keeps g (fillAll fuel ids m) := by
  induction fuel generalizing ids m with
  | zero => exact h
  | succ fuel ih =>
      cases ids with
      | nil => exact ensures_ite h (ih _ h)
      | cons id rest => exact (keeps_fill h id).bind fun _ h => ih rest h

theorem keeps_ofNode (g : Graph) (id : NodeId) : Keeps g (ofNode g id) := by
  have hlook := keeps_look (m := start g) (Graph.Alike.refl g) id
  exact hlook.bind fun m h => keeps_fillAll _ _ h

end Making

/-! ## Reading -/

/-- A number in the text is too large, or a node of its document makes a fault. -/
inductive Upsets (text : List Char) : Fault → Prop
  | number {fault : Fault} (hnumber : Oversized text fault) : Upsets text fault
  | node {g : Graph} {id : NodeId} {fault : Fault} (hdocument : document text = .ok (some (g, id)))
      (hnode : g.Upsets fault) : Upsets text fault

/-- Reading a text stops at a fault only for one of these causes. -/
theorem upsets_of_read {s : String} {fault : Fault} (h : read s = .error (.fault fault)) :
    Upsets s.toList fault := by
  have hdocument : Ensures (Oversized s.toList) (fun _ => True) (document s.toList) := by
    refine ensures_ite (ensures_refuse _) ?_
    refine (Parser.ensures_onlyDocument rfl).mono ?_ fun _ h => h
    exact fun fault hstop => oversized_of_tokens hstop
  have hread : Ensures (Upsets s.toList) (fun _ => True) (read s) := by
    unfold read
    cases hd : document s.toList with
    | error stop =>
        cases stop with
        | malformed problem => trivial
        | fault fault => exact .number (hdocument.fault hd)
    | ok found =>
        rcases found with _ | ⟨g, id⟩
        · trivial
        · have hmake : Ensures (Upsets s.toList) _ (Making.ofNode g id) :=
            (Making.keeps_ofNode g id).mono (fun _ => .node hd) fun _ h => h
          exact hmake.bind fun _ _ => trivial
  exact hread.fault h

end TabCompletion.Yaml
