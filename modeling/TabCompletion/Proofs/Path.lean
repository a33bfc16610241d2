import Mathlib.Data.List.Basic
import TabCompletion.Grammar.Source
import TabCompletion.Proofs.Pieces

/-!
# Paths and their texts

The names on a path that was read from a text are not empty, have no slash and are not `.`
(`IsProper`), and so it stays when paths are joined. The text of such a path is read back as the
path (`ofText_text`), and it is never the address of anything on the network
(`isLocal_text_iff`). The directory in which the grammars of a user are kept is such a path, in
every environment (`Environment.isProper_grammarsDirectory`).
-/

namespace TabCompletion

namespace Path

/-! ## Names -/

/-- The text is a name on a path. -/
def IsName (s : String) : Prop := s ≠ "" ∧ s ≠ "." ∧ '/' ∉ s.toList

instance (s : String) : Decidable (IsName s) := inferInstanceAs (Decidable (_ ∧ _ ∧ _))

/-- The parts of the path are names. -/
def IsProper (p : Path) : Prop := ∀ name ∈ p.parts, IsName name

theorem isName_of_mem_namesOf {cs : List Char} {name : String} (h : name ∈ namesOf cs) :
    IsName name := by
  obtain ⟨piece, hpiece, rfl⟩ := List.mem_map.1 h
  obtain ⟨hmem, hkept⟩ := List.mem_filter.1 hpiece
  simp only [Bool.and_eq_true, Bool.not_eq_true', bne_iff_ne, ne_eq] at hkept
  refine ⟨fun e => ?_, fun e => hkept.2 ?_, ?_⟩
  · rw [String.ofList_eq_empty_iff.1 e] at hkept
    cases hkept.1
  · rw [← String.toList_ofList (l := piece), e]
    rfl
  · rw [String.toList_ofList]
    exact Text.notMem_of_mem_splitAt hmem

/-- The names that a text of names writes. -/
theorem namesOf_intercalate {names : List String} (h : ∀ name ∈ names, IsName name) :
    namesOf (['/'].intercalate (names.map String.toList)) = names := by
  by_cases hne : names = []
  · rw [hne]
    rfl
  · have hpieces : ∀ piece ∈ names.map String.toList, '/' ∉ piece := by
      intro piece hpiece
      obtain ⟨name, hname, rfl⟩ := List.mem_map.1 hpiece
      exact (h name hname).2.2
    have hkept : ∀ piece ∈ names.map String.toList, (!piece.isEmpty && piece != ['.']) = true := by
      intro piece hpiece
      obtain ⟨name, hname, rfl⟩ := List.mem_map.1 hpiece
      obtain ⟨hempty, hdot, -⟩ := h name hname
      rw [Bool.and_eq_true, Bool.not_eq_true', bne_iff_ne]
      refine ⟨?_, fun e => hdot (String.toList_injective e)⟩
      rw [List.isEmpty_eq_false_iff]
      exact fun e => hempty (String.toList_injective e)
    rw [namesOf, Text.splitAt_intercalate (by simpa using hne) hpieces,
      List.filter_eq_self.2 hkept, List.map_map]
    simp

theorem namesOf_append_slash (cs ds : List Char) :
    namesOf (cs ++ '/' :: ds) = namesOf cs ++ namesOf ds := by
  rw [namesOf, Text.splitAt_append_cons, List.filter_append, List.map_append]
  rfl

/-! ## Proper paths -/

theorem isProper_ofText (s : String) : (ofText s).IsProper := fun _ => isName_of_mem_namesOf

theorem IsProper.append {p q : Path} (hp : p.IsProper) (hq : q.IsProper) :
    (p.append q).IsProper := by
  unfold Path.append
  split
  · exact List.forall_mem_append.2 ⟨hp, hq⟩
  · exact hq

theorem IsProper.join {p : Path} (hp : p.IsProper) (s : String) : (p.join s).IsProper :=
  hp.append (isProper_ofText s)

theorem ofText_of_isName {name : String} (h : IsName name) : ofText name = ⟨.here, [name]⟩ := by
  have hnames := namesOf_intercalate (List.forall_mem_singleton.2 h)
  rw [List.map_singleton, List.intercalate_singleton] at hnames
  rw [ofText, hnames]
  have hslash := h.2.2
  unfold anchorOf
  split
  · next e => exact absurd (e ▸ List.mem_cons_self) hslash
  · next e => exact absurd (e ▸ List.mem_cons_self) hslash
  · next e => exact absurd (e ▸ List.mem_cons_self) hslash
  · rfl

theorem namesOf_of_isName {name : String} (h : IsName name) : namesOf name.toList = [name] :=
  congrArg parts (ofText_of_isName h)

/-- A name is put behind the others. -/
theorem join_of_isName (p : Path) {name : String} (h : IsName name) :
    p.join name = ⟨p.anchor, p.parts ++ [name]⟩ := by
  rw [join, ofText_of_isName h]
  rfl

/-! ## Texts of paths -/

theorem namesOf_slash (cs : List Char) : namesOf ('/' :: cs) = namesOf cs := by
  rw [namesOf, Text.splitAt, if_pos rfl]
  rfl

theorem namesOf_append (anchor : Anchor) (cs : List Char) :
    namesOf (anchor.text.toList ++ cs) = namesOf cs := by
  cases anchor with
  | here => rfl
  | root => exact namesOf_slash cs
  | doubleRoot =>
      show namesOf ('/' :: '/' :: cs) = namesOf cs
      rw [namesOf_slash, namesOf_slash]

/-- The names of a path do not start with a slash when they are put together. -/
theorem head?_intercalate {names : List String} (h : ∀ name ∈ names, IsName name) :
    (['/'].intercalate (names.map String.toList)).head? ≠ some '/' := by
  cases names with
  | nil => nofun
  | cons name names =>
      obtain ⟨hempty, -, hslash⟩ := h name List.mem_cons_self
      obtain ⟨c, cs, hname⟩ := List.exists_cons_of_ne_nil
        (fun e => hempty (String.toList_injective e) : name.toList ≠ [])
      have hc : c ≠ '/' := fun e => hslash (by rw [hname, e]; exact List.mem_cons_self)
      have hhead : (['/'].intercalate ((name :: names).map String.toList)).head? = some c := by
        cases names with
        | nil => simp [hname]
        | cons next names => simp [List.intercalate_cons_cons, hname]
      rw [hhead]
      exact fun e => hc (Option.some.inj e)

theorem anchorOf_append {cs : List Char} (h : cs.head? ≠ some '/') (anchor : Anchor) :
    anchorOf (anchor.text.toList ++ cs) = anchor := by
  cases cs with
  | nil => cases anchor <;> rfl
  | cons c cs =>
      have hc : c ≠ '/' := fun e => h (by rw [e]; rfl)
      cases anchor with
      | here =>
          show anchorOf (c :: cs) = .here
          simp [anchorOf, hc]
      | root =>
          show anchorOf ('/' :: c :: cs) = .root
          simp [anchorOf, hc]
      | doubleRoot =>
          show anchorOf ('/' :: '/' :: c :: cs) = .doubleRoot
          simp [anchorOf, hc]

theorem toList_text {p : Path} (h : ¬ (p.anchor = .here ∧ p.parts = [])) :
    p.text.toList = p.anchor.text.toList ++ ['/'].intercalate (p.parts.map String.toList) := by
  rw [text, if_neg (by simpa using h), String.toList_append, String.toList_intercalate]
  rfl

/-- The text of a path is read back as the path. -/
theorem ofText_text {p : Path} (hp : p.IsProper) : ofText p.text = p := by
  by_cases h : p.anchor = .here ∧ p.parts = []
  · obtain ⟨anchor, parts⟩ := p
    obtain ⟨rfl, rfl⟩ := h
    decide
  · have hnames : namesOf p.text.toList = p.parts := by
      rw [toList_text h, namesOf_append, namesOf_intercalate hp]
    have hanchor : anchorOf p.text.toList = p.anchor := by
      rw [toList_text h]
      exact anchorOf_append (head?_intercalate hp) _
    rw [ofText, hnames, hanchor]

/-- The walk to a path goes along its parts. -/
theorem stepsOf_text {p : Path} (hp : p.IsProper) : Tree.stepsOf p.text = p.parts :=
  congrArg Path.parts (ofText_text hp)

/-- A path that is not seen from the working directory has a text that starts with a slash. -/
theorem head?_text {p : Path} (h : p.anchor ≠ .here) : p.text.toList.head? = some '/' := by
  rw [toList_text fun e => h e.1]
  cases hanchor : p.anchor with
  | here => exact absurd hanchor h
  | root => rfl
  | doubleRoot => rfl

theorem startsAtRoot_text {p : Path} (h : p.anchor ≠ .here) :
    Tree.startsAtRoot p.text = true := by
  rw [Tree.startsAtRoot, head?_text h]
  rfl

theorem startsAtRoot_text_iff {p : Path} (hp : p.IsProper) :
    Tree.startsAtRoot p.text = true ↔ p.anchor ≠ .here := by
  refine ⟨fun hroot hhere => ?_, startsAtRoot_text⟩
  have hhead : p.text.toList.head? = some '/' := by simpa [Tree.startsAtRoot] using hroot
  by_cases hparts : p.parts = []
  · rw [text, hhere, hparts] at hhead
    exact absurd hhead (by decide)
  · rw [toList_text fun h => hparts h.2, hhere] at hhead
    exact head?_intercalate hp hhead

/-! ## Suffixes -/

/-- The end of a name from its last dot on, if that is neither its first nor its last
character. -/
theorem suffixOf_append {start suffix : List Char} (hstart : start ≠ []) (hne : suffix ≠ [])
    (hdot : '.' ∉ suffix) : suffixOf (start ++ '.' :: suffix) = '.' :: suffix := by
  have hkept : ∀ c ∈ suffix.reverse, (c != '.') = true := by
    intro c hc
    rw [bne_iff_ne]
    rintro rfl
    exact hdot (List.mem_reverse.1 hc)
  have hafter : (start ++ '.' :: suffix).reverse.takeWhile (· != '.') = suffix.reverse := by
    rw [List.reverse_append, List.reverse_cons, List.append_assoc,
      List.takeWhile_append_of_pos hkept, List.singleton_append,
      List.takeWhile_cons_of_neg (by decide), List.append_nil]
  have hlength := List.length_pos_iff.2 hstart
  unfold suffixOf
  simp only [hafter, List.isEmpty_reverse, List.reverse_reverse, List.length_append,
    List.length_cons, List.length_reverse]
  rw [if_neg]
  rw [Bool.or_eq_true, List.isEmpty_iff, decide_eq_true_iff, not_or]
  exact ⟨hne, by omega⟩

/-! ## Texts of paths as sources -/

/-- No two slashes stand behind a name in the text of a path. -/
theorem text_ne_append {p : Path} (hp : p.IsProper) {start : List Char} (hne : start ≠ [])
    (hstart : '/' ∉ start) (rest : List Char) : p.text.toList ≠ start ++ '/' :: '/' :: rest := by
  intro h
  -- the text does not start with a slash, so it starts with a name
  have hhere : p.anchor = .here := by
    refine Classical.byContradiction fun hanchor => ?_
    obtain ⟨c, cs, rfl⟩ := List.exists_cons_of_ne_nil hne
    have hhead := head?_text hanchor
    rw [h, List.cons_append, List.head?_cons, Option.some.injEq] at hhead
    exact hstart (hhead ▸ List.mem_cons_self)
  have hparts : p.parts ≠ [] := by
    intro hparts
    rw [text, hhere, hparts] at h
    have hslash : '/' ∈ ".".toList := h ▸ List.mem_append_right _ List.mem_cons_self
    exact absurd hslash (by decide)
  -- but between the two slashes there is none
  have hpieces : Text.splitAt '/' p.text.toList = p.parts.map String.toList := by
    rw [toList_text fun e => hparts e.2, hhere]
    refine Text.splitAt_intercalate (by simpa using hparts) fun piece hpiece => ?_
    obtain ⟨name, hname, rfl⟩ := List.mem_map.1 hpiece
    exact (hp name hname).2.2
  rw [h, Text.splitAt_append hstart, Text.splitAt, if_pos rfl] at hpieces
  have hempty : [] ∈ p.parts.map String.toList :=
    hpieces ▸ List.mem_cons_of_mem _ List.mem_cons_self
  obtain ⟨name, hname, hnil⟩ := List.mem_map.1 hempty
  exact (hp name hname).1 (String.toList_injective hnil)

/-- The text of a path is no address. -/
theorem not_isRemote_text {p : Path} (hp : p.IsProper) : Source.isRemote p.text = false := by
  rw [Bool.eq_false_iff]
  intro hremote
  obtain ⟨scheme, hscheme, hprefix⟩ := List.any_eq_true.1 hremote
  obtain ⟨rest, htext⟩ := List.isPrefixOf_iff_prefix.1 hprefix
  rw [Source.schemes, List.mem_pair] at hscheme
  rcases hscheme with rfl | rfl
  · exact text_ne_append hp (show "http:".toList ≠ [] by decide) (by decide) rest htext.symm
  · exact text_ne_append hp (show "https:".toList ≠ [] by decide) (by decide) rest htext.symm

/-- The text of a path is a file as a source, unless it is taken for the input. -/
theorem isLocal_text_iff {p : Path} (hp : p.IsProper) :
    Source.isLocal p.text = true ↔ p ≠ ⟨.here, ["-"]⟩ := by
  rw [Source.isLocal, not_isRemote_text hp, Bool.not_false, Bool.and_true, bne_iff_ne]
  refine not_congr ⟨fun h => ?_, ?_⟩
  · rw [← ofText_text hp, h]
    decide
  · rintro rfl
    decide

end Path

namespace Environment

/-! ## Directories of an environment -/

theorem map_eq_ok_iff {α β ε : Type} {x : Except ε α} {f : α → β} {b : β} :
    x.map f = .ok b ↔ ∃ a, x = .ok a ∧ f a = b := by
  cases x <;> simp [Except.map]

theorem expandPath_of_anchor {env : Environment} {p : Path} (h : p.anchor ≠ .here) :
    env.expandPath p = .ok p := by
  unfold expandPath
  split
  · next hhere _ => exact absurd hhere h
  · rfl

theorem isProper_expandPath {env : Environment} {p expanded : Path} (hp : p.IsProper)
    (h : env.expandPath p = .ok expanded) : expanded.IsProper := by
  unfold expandPath at h
  split at h
  · next first rest hanchor hparts =>
      split at h
      · split at h
        · cases h
        · split at h
          · cases h
          · cases h
            refine List.forall_mem_append.2 ⟨Path.isProper_ofText _, fun name hname => ?_⟩
            exact hp name (hparts ▸ List.mem_cons_of_mem _ hname)
      · cases h
        exact hp
  · cases h
    exact hp

theorem isProper_home {env : Environment} {p : Path} (h : env.home = .ok p) : p.IsProper :=
  isProper_expandPath (Path.isProper_ofText _) h

theorem isProper_baseDirectory {env : Environment} {name : String} {inHome : List String} {p : Path}
    (h : env.baseDirectory name inHome = .ok p) : p.IsProper := by
  have hfallback : ∀ {q}, baseDirectory.fallback env inHome = .ok q → q.IsProper := by
    intro q hq
    obtain ⟨home, hhome, rfl⟩ := map_eq_ok_iff.1 hq
    have hproper := isProper_home hhome
    clear hhome hq h
    induction inHome generalizing home with
    | nil => exact hproper
    | cons first rest ih => exact ih (home.join first) (hproper.join first)
  unfold baseDirectory at h
  split at h
  · split at h
    · exact hfallback h
    · cases h
      exact Path.isProper_ofText _
  · exact hfallback h

theorem isProper_programDirectory {env : Environment} {name : String} {inHome : List String}
    {p : Path} (h : env.programDirectory name inHome = .ok p) : p.IsProper := by
  unfold programDirectory at h
  split at h
  · obtain ⟨base, hbase, rfl⟩ := map_eq_ok_iff.1 h
    exact (isProper_baseDirectory hbase).join _
  · obtain ⟨home, hhome, rfl⟩ := map_eq_ok_iff.1 h
    exact (isProper_home hhome).join _

/-- The grammars of a user are kept in the directory `grammars` of that of the program. -/
theorem grammarsDirectory_eq_ok_iff {env : Environment} {p : Path} :
    env.grammarsDirectory = .ok p ↔
      ∃ q, env.configDirectory = .ok q ∧ p = ⟨q.anchor, q.parts ++ ["grammars"]⟩ := by
  rw [grammarsDirectory, map_eq_ok_iff]
  simp only [Path.join_of_isName _ (show Path.IsName "grammars" by decide), eq_comm]

theorem isProper_grammarsDirectory {env : Environment} {p : Path}
    (h : env.grammarsDirectory = .ok p) : p.IsProper := by
  obtain ⟨q, hq, rfl⟩ := grammarsDirectory_eq_ok_iff.1 h
  have hconfig : q.IsProper := isProper_programDirectory hq
  exact List.forall_mem_append.2 ⟨hconfig, List.forall_mem_singleton.2 (by decide)⟩

end Environment

end TabCompletion
