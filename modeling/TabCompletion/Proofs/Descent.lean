import Mathlib.Data.List.TakeWhile
import TabCompletion.Proofs.OfferedPaths
import TabCompletion.Proofs.Utf8

/-!
# Going down

A candidate that names a directory is typed on with a slash behind it. What is then listed is the
directory that the candidate named, and each of its entries is offered behind the slash
(`Host.offerPaths_descend`): the path of the candidate goes one name further than the path of the
directory in which it was found (`Path.GoesTo`), also after its `~` is expanded
(`Environment.exists_expandHome_goesTo`), and so does the walk along it (`Disk.locate_of_leadsTo`).

There are exceptions. A bare name may start with `~`; it was found in the working directory, but
with a slash behind it, it names a home directory. And a listing may fail: there is a bound on the
length of a path, and the system may refuse to list a directory that it names.
-/

namespace TabCompletion

open TypedPath (Cuts nameBehind)

/-! ## Paths that go one name further -/

/-- The path goes from where another leads to a name there. -/
structure Path.GoesTo (above name path : String) : Prop where
  steps : Tree.stepsOf path = Tree.stepsOf above ++ [name]
  start : Tree.startsAtRoot path = Tree.startsAtRoot above
  noZero : '\x00' ∉ above.toList → '\x00' ∉ path.toList

namespace Path

section

variable {above name : String}

theorem goesTo_slash (hne : above ≠ "") (hname : Tree.IsFileName name) :
    GoesTo above name (above ++ "/" ++ name) := by
  have hlist := TypedPath.toList_behind above name
  refine ⟨?_, ?_, fun habove => ?_⟩
  · rw [Tree.stepsOf, hlist, namesOf_append_slash, namesOf_of_isName hname.1]
    rfl
  · obtain ⟨c, cs, hc⟩ := List.exists_cons_of_ne_nil
      (fun e => hne (String.toList_injective e) : above.toList ≠ [])
    rw [Tree.startsAtRoot, Tree.startsAtRoot, hlist, hc]
    rfl
  · rw [hlist, List.mem_append, List.mem_cons]
    rintro (h | h | h)
    · exact habove h
    · exact absurd h (by decide)
    · exact hname.2.2 h

theorem goesTo_root (hname : Tree.IsFileName name) : GoesTo "/" name ("/" ++ name) := by
  have hlist : ("/" ++ name).toList = '/' :: name.toList := String.toList_append
  refine ⟨?_, ?_, fun _ => ?_⟩
  · rw [Tree.stepsOf, hlist, namesOf_slash, namesOf_of_isName hname.1]
    rfl
  · rw [Tree.startsAtRoot, hlist]
    rfl
  · rw [hlist, List.mem_cons]
    rintro (h | h)
    · exact absurd h (by decide)
    · exact hname.2.2 h

/-- The path of a name in a directory has no second slash in front of the name. -/
theorem goesTo_pathIn (hne : above ≠ "") (hname : Tree.IsFileName name) :
    GoesTo above name (Disk.pathIn above name) := by
  unfold Disk.pathIn
  by_cases hslash : above.toList.getLast? = some '/'
  · rw [if_pos hslash]
    -- the slash that is there stands for the one that is not put
    obtain ⟨cs, hcs⟩ : ∃ cs, above.toList = cs ++ ['/'] :=
      ⟨_, (List.dropLast_append_getLast? '/' hslash).symm⟩
    have hlist : (above ++ name).toList = cs ++ '/' :: name.toList := by
      rw [String.toList_append, hcs, List.append_assoc]
      rfl
    refine ⟨?_, ?_, fun habove => ?_⟩
    · rw [Tree.stepsOf, Tree.stepsOf, hlist, hcs, namesOf_append_slash, namesOf_append_slash,
        namesOf_of_isName hname.1]
      simp [namesOf, Text.splitAt]
    · rw [Tree.startsAtRoot, Tree.startsAtRoot, hlist, hcs]
      cases cs <;> rfl
    · rw [String.toList_append, List.mem_append]
      rintro (h | h)
      · exact habove h
      · exact hname.2.2 h
  · rw [if_neg hslash]
    exact goesTo_slash hne hname

end

end Path

/-! ## Walks that go one name further -/

/-- A path that goes on to a name leads to the directory to which the name leads. -/
theorem Disk.locate_of_leadsTo {d : Disk} {above name path : String} {place target : Place}
    (hne : above ≠ "") (habove : d.locate true above = .ok (.found place .directory))
    (hname : Tree.IsFileName name) (hleads : d.LeadsTo above place name target)
    (hgoes : Path.GoesTo above name path) (hpath : IsPath path) :
    d.locate true path = .ok (.found target .directory) := by
  rw [locate_eq_ok_iff]
  refine ⟨hpath, ?_⟩
  have hstart : d.startOf path = d.startOf above := by rw [startOf, startOf, hgoes.start]
  rw [hgoes.steps, hstart]
  cases hleads with
  | itself hentry =>
      obtain ⟨left, hway⟩ := Tree.exists_way_of_directory (locate_eq_ok_iff.1 habove).2
      rw [hway.walk (.inr rfl), Tree.walk_directory hname.2.1 hentry, Tree.walk_nil]
  | link hentry htarget =>
      -- the path on which the link was followed goes along the same names
      have hin := Path.goesTo_pathIn hne hname
      have hwalk := (locate_eq_ok_iff.1 htarget).2
      rw [startOf, hin.start, hin.steps] at hwalk
      exact hwalk

/-! ## Home directories -/

namespace Environment

variable {env : Environment} {before path name : String}

theorem expandHome_of_head? (h : path.toList.head? ≠ some '~') :
    env.expandHome path = .ok path := by
  unfold expandHome
  split
  · next hlist => exact absurd (by rw [hlist]; rfl) h
  · rfl

theorem expandHome_ne_empty (hne : before ≠ "") (h : env.expandHome before = .ok path) :
    path ≠ "" := by
  unfold expandHome at h
  split at h
  · dsimp only at h
    split at h
    · cases h
    · cases h
      exact hne
    · next home _ =>
        cases h
        split
        · decide
        · next hexpanded =>
            rw [List.isEmpty_iff] at hexpanded
            exact fun e => hexpanded (String.ofList_eq_empty_iff.1 e)
  · cases h
    exact hne

/-- What is put behind a slash has no part in the expansion. -/
theorem expandHome_append (hne : before ≠ "") (h : env.expandHome before = .ok path)
    (name : String) :
    env.expandHome (before ++ "/" ++ name) = .ok (path ++ "/" ++ name) ∨
      path = "/" ∧ env.expandHome (before ++ "/" ++ name) = .ok ("/" ++ name) := by
  have hlist := TypedPath.toList_behind before name
  obtain ⟨c, rest, hc⟩ := List.exists_cons_of_ne_nil
    (fun e => hne (String.toList_injective e) : before.toList ≠ [])
  by_cases htilde : c = '~'
  · rw [htilde] at hc
    -- the name of the user ends before the slash
    have huser : (rest ++ '/' :: name.toList).takeWhile (· != '/') = rest.takeWhile (· != '/') := by
      rw [List.takeWhile_append]
      split
      · next hall =>
          rw [List.takeWhile_cons_of_neg (by decide), List.append_nil]
          exact ((List.takeWhile_sublist _).eq_of_length hall).symm
      · rfl
    have hdrop : (rest ++ '/' :: name.toList).drop (rest.takeWhile (· != '/')).length =
        rest.drop (rest.takeWhile (· != '/')).length ++ '/' :: name.toList :=
      List.drop_append_of_le_length (List.takeWhile_sublist _).length_le
    rw [hc, List.cons_append] at hlist
    unfold expandHome at h ⊢
    simp only [hc] at h
    simp only [hlist, huser, hdrop]
    cases hhome : env.homeOf? (rest.takeWhile (· != '/')) with
    | error fault =>
        rw [hhome] at h
        cases h
    | ok home? =>
        rw [hhome] at h
        cases home? with
        | none =>
            cases h
            exact .inl rfl
        | some home =>
            dsimp only at h ⊢
            rw [if_neg (by simp)]
            split at h
            · next hempty =>
                -- the home directory is the root
                cases h
                rw [← List.append_assoc, List.isEmpty_iff.1 hempty]
                refine .inr ⟨rfl, congrArg Except.ok (String.toList_injective ?_)⟩
                rw [String.toList_ofList, String.toList_append]
                rfl
            · cases h
              refine .inl (congrArg Except.ok (String.toList_injective ?_))
              rw [String.toList_ofList, TypedPath.toList_behind, String.toList_ofList,
                List.append_assoc]
  · have hhead : ∀ {cs : List Char}, cs = c :: rest ++ '/' :: name.toList →
        cs.head? ≠ some '~' := by
      rintro cs rfl hcs
      exact htilde (Option.some.inj hcs)
    rw [expandHome_of_head? (by rw [hc]; exact fun e => htilde (Option.some.inj e))] at h
    cases h
    exact .inl (expandHome_of_head? (hhead (by rw [hlist, hc])))

end Environment

namespace Host

/-! ## Candidates with a slash behind them -/

section

variable {h : Host} {before : Option String} {above name : String}

theorem pathBefore_ne_empty (habove : h.pathBefore before = .ok above) : above ≠ "" := by
  unfold pathBefore at habove
  split at habove
  · cases habove
    decide
  · split at habove
    · cases habove
      decide
    · next hne => exact Environment.expandHome_ne_empty hne habove

theorem expandHome_root (h : Host) (name : String) :
    h.environment.expandHome ("/" ++ name) = .ok ("/" ++ name) := by
  apply Environment.expandHome_of_head?
  rw [String.toList_append]
  exact fun e => absurd (Option.some.inj e) (by decide)

/-- A name is offered as a path that leads to it in the directory that is listed, unless it is a
bare name that stands for a home directory. -/
theorem exists_expandHome_goesTo (habove : h.pathBefore before = .ok above)
    (hname : Tree.IsFileName name)
    (hbare : before = none → h.environment.expandHome name = .ok name) :
    ∃ path, h.environment.expandHome (nameBehind before name) = .ok path ∧
      Path.GoesTo above name path := by
  cases before with
  | none =>
      cases habove
      refine ⟨name, hbare rfl, Path.namesOf_of_isName hname.1, ?_, fun _ => hname.2.2⟩
      rw [Tree.startsAtRoot, decide_eq_false fun e => hname.1.2.2 (List.mem_of_head? e)]
      rfl
  | some before =>
      unfold pathBefore at habove
      unfold nameBehind
      by_cases hroot : before = "" ∨ before = "/"
      · have hslash : above = "/" := by
          rcases hroot with rfl | rfl
          · exact (Except.ok.inj habove).symm
          · have hexpand := habove
            dsimp only at hexpand
            rw [if_neg (by decide), Environment.expandHome_of_head? (by decide)] at hexpand
            exact (Except.ok.inj hexpand).symm
        dsimp only
        rw [if_pos hroot, hslash]
        exact ⟨_, h.expandHome_root name, Path.goesTo_root hname⟩
      · rw [not_or] at hroot
        dsimp only at habove ⊢
        rw [if_neg hroot.1] at habove
        rw [if_neg (not_or.2 hroot)]
        rcases Environment.expandHome_append hroot.1 habove name with hexpand | ⟨rfl, hexpand⟩
        · exact ⟨_, hexpand,
            Path.goesTo_slash (Environment.expandHome_ne_empty hroot.1 habove) hname⟩
        · exact ⟨_, hexpand, Path.goesTo_root hname⟩

end

/-- What is offered behind a slash is all that the directory in front of it has in it. -/
theorem value_offerPaths_slash {h : Host} {c path : String} {target : Place}
    (hc : c ≠ "" ∧ c ≠ "/") (hpath : h.environment.expandHome c = .ok path)
    (hgrants : h.disk.Grants .list path)
    (hlocate : h.disk.locate true path = .ok (.found target .directory)) (marks : Bool) :
    (h.offerPaths ⟨marks, true⟩ (c ++ "/")).value =
      .ok ((h.disk.tree.names target).map fun n =>
        c ++ "/" ++ n ++ if marks && h.disk.isDirectoryAt path target n then "/" else "") := by
  have hcut : Cuts (c ++ "/") (some c) "" := .behind String.append_empty.symm nofun
  have hbefore : h.pathBefore (some c) = .ok path := (if_neg hc.1).trans hpath
  have hall : ∀ n ∈ h.disk.tree.names target, Listing.lets "" true n = true := fun _ _ => rfl
  rw [value_offerPaths h hcut, listing_of_locate hbefore hgrants hlocate]
  simp only [Listing.texts_offers, List.filter_eq_self.2 hall]
  refine congrArg Except.ok (List.map_congr_left fun n _ => ?_)
  rw [Listing.candidate, nameBehind, if_neg (not_or.2 hc)]

/-- A listing that fails makes no offers, or ends in a fault. -/
theorem value_offerPaths_slash_of_error {h : Host} {c path : String} {kind : FileFault.Kind}
    (hc : c ≠ "") (hpath : h.environment.expandHome c = .ok path)
    (hlist : h.disk.list path = .error (Disk.faultAt kind path)) (settings : PathSettings) :
    (h.offerPaths settings (c ++ "/")).value =
      if isNoDirectory (.at kind path) then .ok []
      else .error (.fault (Disk.faultAt kind path)) := by
  have hcut : Cuts (c ++ "/") (some c) "" := .behind String.append_empty.symm nofun
  have hbefore : h.pathBefore (some c) = .ok path := (if_neg hc).trans hpath
  have hlisting : h.listing (some c) = .error (Disk.faultAt kind path) := by
    unfold listing
    simp only [hbefore, hlist]
    rfl
  rw [value_offerPaths h hcut, hlisting]
  rfl

theorem list_of_tooLong {d : Disk} {path : String} (hgrants : d.Grants .list path)
    (hzero : '\x00' ∉ path.toList) (hlong : Disk.maxPathBytes < Text.Utf8.byteCount path) :
    d.list path = .error (Disk.faultAt .tooLong path) := by
  rw [Disk.list, Disk.granted_of_grants hgrants, Disk.locate, if_neg (by simpa using hzero),
    if_pos hlong]

theorem value_offerPaths_slash_of_tooLong {h : Host} {c path : String} (hc : c ≠ "")
    (hpath : h.environment.expandHome c = .ok path) (hgrants : h.disk.Grants .list path)
    (hzero : '\x00' ∉ path.toList) (hlong : Disk.maxPathBytes < Text.Utf8.byteCount path)
    (settings : PathSettings) :
    (h.offerPaths settings (c ++ "/")).value = .error (.fault (Disk.faultAt .tooLong path)) :=
  value_offerPaths_slash_of_error hc hpath (list_of_tooLong hgrants hzero hlong) settings

/-- What a candidate that names a directory offers with a slash behind it: what the directory at
the place `target` has in it, each behind the candidate and the slash. If the system refuses to list
the path that is a fault, or nothing is offered if the system says that there is no directory; and
where the path is too long that is a fault. -/
def Descends (h : Host) (c path : String) (target : Place) (marks : Bool)
    (value : Except Escape (List String)) : Prop :=
  match h.disk.refused? .list path with
  | some kind =>
    value = if isNoDirectory (.at kind path) then .ok []
      else .error (.fault (Disk.faultAt kind path))
  | none =>
    value =
      if Disk.maxPathBytes < Text.Utf8.byteCount path then
        .error (.fault (Disk.faultAt .tooLong path))
      else .ok ((h.disk.tree.names target).map fun n => c ++ "/" ++ n ++
        if marks && h.disk.isDirectoryAt path target n then "/" else "")

/-- A candidate that names a directory, with a slash behind it, makes the offers of exactly this
directory, each behind the candidate and the slash. A bare name is supposed not to be one that
stands for a home directory. Where the path is too long, or the system refuses to list it, that is
what comes of it. -/
theorem offerPaths_descend (h : Host) (hsound : h.disk.tree.IsSound) {shows : Bool}
    {typed : String} {offered : List String}
    (hoffered : (h.offerPaths ⟨false, shows⟩ typed).value = .ok offered) {c : String}
    (hc : c ∈ offered) :
    ∃ before start l name, Cuts typed before start ∧ h.listing before = .ok l ∧ name ∈ l.names ∧
      c = nameBehind before name ∧
        ∀ target, h.disk.LeadsTo l.path l.place name target →
          (before = none → h.environment.expandHome c = .ok c) →
            ∃ path, h.environment.expandHome c = .ok path ∧ ∀ marks,
              h.Descends c path target marks (h.offerPaths ⟨marks, true⟩ (c ++ "/")).value := by
  obtain ⟨before, start, hcut⟩ := TypedPath.exists_cuts typed
  rcases h.eq_texts_or_eq_nil hcut hoffered with ⟨l, hlist, rfl⟩ | rfl
  · rw [Listing.texts_offers] at hc
    obtain ⟨name, hmem, rfl⟩ := List.mem_map.1 hc
    have hlisted := (List.mem_filter.1 hmem).1
    have hcandidate : l.candidate h.disk before false name = nameBehind before name :=
      String.append_empty
    obtain ⟨habove, hlocate, hnames⟩ := locate_of_listing hlist
    have hname : Tree.IsFileName name := hsound.isFileName (hnames ▸ hlisted)
    rw [hcandidate]
    refine ⟨before, start, l, name, hcut, hlist, hlisted, rfl, fun target hleads hbare => ?_⟩
    have hbare' : before = none → h.environment.expandHome name = .ok name := by
      rintro rfl
      exact hbare rfl
    obtain ⟨path, hpath, hgoes⟩ := exists_expandHome_goesTo habove hname hbare'
    have hne := TypedPath.nameBehind_ne before hname.1
    have hzero : '\x00' ∉ path.toList :=
      hgoes.noZero (by simpa using (Disk.locate_eq_ok_iff.1 hlocate).1.1)
    refine ⟨path, hpath, fun marks => ?_⟩
    unfold Descends
    split
    · -- the system refuses to list the directory
      next kind hrefused =>
        have hlist : h.disk.list path = .error (Disk.faultAt kind path) :=
          Disk.granted_eq_error_iff.2 (.inl ⟨kind, hrefused, rfl⟩)
        exact value_offerPaths_slash_of_error hne.1 hpath hlist _
    · next hgrants =>
        split
        · next hlong => exact value_offerPaths_slash_of_tooLong hne.1 hpath hgrants hzero hlong _
        · next hshort =>
            have hispath : Disk.IsPath path := ⟨by simpa using hzero, Nat.not_lt.1 hshort⟩
            have htarget := Disk.locate_of_leadsTo (pathBefore_ne_empty habove) hlocate hname hleads
              hgoes hispath
            exact value_offerPaths_slash hne hpath hgrants htarget marks
  · cases hc

/-! ## A directory named `~` -/

/-- A host with a directory named `~`, to which a link in the home directory leads. -/
def tildeHost : Host where
  environment := { values := [("HOME", "home")], users := [], ownHome := none, platform := "Linux" }
  disk :=
    { tree := ⟨[(["~"], .directory), (["~", "inner.txt"], .file []), (["home"], .directory),
        (["home", "docs"], .link "../~")]⟩,
      cwd := [] }

/-- Nothing is refused there. -/
theorem grants_tildeHost (call : Call) (path : String) : tildeHost.disk.Grants call path :=
  Disk.grants_of_refusals_eq_nil rfl call path

theorem isSound_tildeHost : tildeHost.disk.tree.IsSound := ⟨by decide, by decide⟩

theorem locate_home_tildeHost :
    tildeHost.disk.locate true "home" = .ok (.found ["home"] .directory) := by
  have hreaches : tildeHost.disk.Reaches "home" ["home"] := by decide
  exact hreaches.locate (by decide) (by simp) true

theorem listing_home_tildeHost :
    tildeHost.listing (some "~") = .ok ⟨"home", ["home"], ["docs"]⟩ :=
  listing_of_locate (by decide) (grants_tildeHost _ _) locate_home_tildeHost

/-- The link in the home directory leads to the directory named `~`. -/
theorem leadsTo_docs_tildeHost : tildeHost.disk.LeadsTo "home" ["home"] "docs" ["~"] := by
  have hsteps : Tree.stepsOf "home/docs" = ["home", "docs"] := by decide
  have hentry : tildeHost.disk.tree.entry? (["home"] ++ ["docs"]) = some (.link "../~") := by
    decide
  have hwalk : tildeHost.disk.tree.walk true Tree.maxLinks [] ["home", "docs"] =
      .ok (.found ["~"] .directory) :=
    calc
      _ = tildeHost.disk.tree.walk true Tree.maxLinks ["home"] ["docs"] :=
        Tree.walk_directory (by decide) (by decide) _
      _ = tildeHost.disk.tree.walk true 39 ["home"] (Tree.linkSteps "../~" ++ []) :=
        Tree.walk_link (by decide) hentry (.inr rfl)
      _ = tildeHost.disk.tree.walk true 39 ["home"] ["..", "~"] := by
        rw [show Tree.linkSteps "../~" = ["..", "~"] by decide, List.append_nil]
      _ = tildeHost.disk.tree.walk true 39 [] ["~"] := Tree.Step.up.walk (.inr rfl)
      _ = tildeHost.disk.tree.walk true 39 ["~"] [] :=
        Tree.walk_directory (by decide) (by decide) _
      _ = .ok (.found ["~"] .directory) := Tree.walk_nil
  refine .link hentry (Disk.locate_eq_ok_iff.2 ⟨by decide, ?_⟩)
  rw [show Disk.pathIn "home" "docs" = "home/docs" by decide, hsteps]
  exact hwalk

/-- With `n` times `./` in front of a dot, a path does not leave the working directory. -/
def stays : Nat → String
  | 0 => "."
  | n + 1 => "./" ++ stays n

theorem toList_stays_succ (n : Nat) : (stays (n + 1)).toList = '.' :: '/' :: (stays n).toList :=
  String.toList_append

theorem exists_toList_stays (n : Nat) : ∃ cs, (stays n).toList = '.' :: cs := by
  cases n with
  | zero => exact ⟨[], rfl⟩
  | succ n => exact ⟨_, toList_stays_succ n⟩

theorem stepsOf_stays (n : Nat) : Tree.stepsOf (stays n) = [] := by
  induction n with
  | zero => decide
  | succ n ih =>
      rw [Tree.stepsOf, toList_stays_succ]
      exact (Path.namesOf_append_slash ['.'] _).trans ih

theorem byteCount_stays (n : Nat) : Text.Utf8.byteCount (stays n) = 2 * n + 1 := by
  induction n with
  | zero => decide
  | succ n ih =>
      have hfront : Text.Utf8.byteCount "./" = 2 := by decide
      rw [stays, Text.Utf8.byteCount_append, ih, hfront]
      omega

theorem noZero_stays (n : Nat) : '\x00' ∉ (stays n).toList := by
  induction n with
  | zero => decide
  | succ n ih =>
      rw [toList_stays_succ, List.mem_cons, List.mem_cons]
      rintro (h | h | h)
      · exact absurd h (by decide)
      · exact absurd h (by decide)
      · exact ih h

theorem stays_ne (n : Nat) : stays n ≠ "" ∧ stays n ≠ "/" := by
  obtain ⟨cs, hcs⟩ := exists_toList_stays n
  refine ⟨fun e => ?_, fun e => ?_⟩ <;> rw [e] at hcs <;> cases hcs

theorem isPath_stays {n : Nat} (hn : 2 * n + 1 ≤ Disk.maxPathBytes) : Disk.IsPath (stays n) :=
  ⟨by simpa using noZero_stays n, by rwa [byteCount_stays]⟩

theorem expandHome_stays (env : Environment) (n : Nat) (rest : String) :
    env.expandHome (stays n ++ rest) = .ok (stays n ++ rest) := by
  obtain ⟨cs, hcs⟩ := exists_toList_stays n
  apply Environment.expandHome_of_head?
  rw [String.toList_append, hcs]
  exact fun e => absurd (Option.some.inj e) (by decide)

theorem listing_stays_tildeHost {n : Nat} (hn : 2 * n + 1 ≤ Disk.maxPathBytes) :
    tildeHost.listing (some (stays n)) = .ok ⟨stays n, [], ["~", "home"]⟩ := by
  have hpath : tildeHost.pathBefore (some (stays n)) = .ok (stays n) := by
    have hexpand := expandHome_stays tildeHost.environment n ""
    rw [String.append_empty] at hexpand
    exact (if_neg (stays_ne n).1).trans hexpand
  have hstart : tildeHost.disk.startOf (stays n) = [] := ite_self _
  refine listing_of_locate hpath (grants_tildeHost _ _) ?_
  rw [Disk.locate_eq_walk (isPath_stays hn), stepsOf_stays, Tree.walk_nil, hstart]

theorem value_offerPaths_stays_tildeHost {n : Nat} (hn : 2 * n + 1 ≤ Disk.maxPathBytes) :
    (tildeHost.offerPaths {} (stays n ++ "/")).value =
      .ok [stays n ++ "/" ++ "~", stays n ++ "/" ++ "home"] := by
  have hcut : Cuts (stays n ++ "/") (some (stays n)) "" := .behind String.append_empty.symm nofun
  have hall : ∀ name ∈ ["~", "home"], Listing.lets "" true name = true := fun _ _ => rfl
  rw [value_offerPaths tildeHost hcut, listing_stays_tildeHost hn]
  simp only [Listing.texts_offers, List.filter_eq_self.2 hall]
  simp [Listing.candidate, nameBehind, stays_ne n]

/-- The listing of the working directory. -/
theorem value_offerPaths_here {h : Host} (hgrants : h.disk.Grants .list ".")
    (hcwd : h.disk.cwd = []) (hnames : h.disk.tree.names [] = ["~", "home"]) :
    (h.offerPaths {} "").value = .ok ["~", "home"] := by
  have hsteps : Tree.stepsOf "." = [] := by decide
  have hstart : h.disk.startOf "." = [] := by
    rw [Disk.startOf, hcwd, ite_self]
  have hlist : h.listing none = .ok ⟨".", [], h.disk.tree.names []⟩ := by
    refine listing_of_locate rfl hgrants ?_
    rw [Disk.locate_eq_walk (by decide), hsteps, Tree.walk_nil, hstart]
  rw [value_offerPaths h (.whole (by decide)), hlist]
  simp only [Listing.texts_offers, hnames]
  rfl

/-- The same host, but nobody may list the home directory. -/
def lockedHost : Host :=
  { tildeHost with disk := { tildeHost.disk with refusals := [((.list, "home"), .denied)] } }

theorem value_offerPaths_lockedHost :
    (lockedHost.offerPaths {} "home/").value = .error (.fault (Disk.faultAt .denied "home")) := by
  have hrefused : lockedHost.disk.refused? .list "home" = some .denied := by decide
  have hlist : lockedHost.disk.list "home" = .error (Disk.faultAt .denied "home") :=
    Disk.granted_eq_error_iff.2 (.inl ⟨.denied, hrefused, rfl⟩)
  exact value_offerPaths_slash_of_error (c := "home") (by decide) (by decide) hlist {}

/-- A directory named `~` is offered, but with a slash behind it what is offered are the entries of
the home directory. A directory at the end of a path may be offered, but the path of the candidate
is too long for a listing. And a directory may be offered that the system refuses to list. -/
theorem not_offerPaths_descend :
    (tildeHost.disk.tree.IsSound ∧ (tildeHost.offerPaths {} "").value = .ok ["~", "home"] ∧
      tildeHost.disk.LeadsTo "." [] "~" ["~"] ∧ tildeHost.disk.tree.names ["~"] = ["inner.txt"] ∧
        (tildeHost.offerPaths {} "~/").value = .ok ["~/docs"]) ∧
    ((tildeHost.offerPaths {} (stays 2046 ++ "/")).value =
        .ok [stays 2046 ++ "/" ++ "~", stays 2046 ++ "/" ++ "home"] ∧
      tildeHost.disk.LeadsTo (stays 2046) [] "home" ["home"] ∧
        (tildeHost.offerPaths {} (stays 2046 ++ "/" ++ "home" ++ "/")).value =
          .error (.fault (Disk.faultAt .tooLong (stays 2046 ++ "/" ++ "home")))) ∧
    (lockedHost.offerPaths {} "").value = .ok ["~", "home"] ∧
      lockedHost.disk.LeadsTo "." [] "home" ["home"] ∧
        (lockedHost.offerPaths {} "home/").value =
          .error (.fault (Disk.faultAt .denied "home")) := by
  refine ⟨⟨isSound_tildeHost, value_offerPaths_here (grants_tildeHost _ _) rfl (by decide),
      .itself (by decide), by decide, ?_⟩,
    ⟨value_offerPaths_stays_tildeHost (by decide), .itself (by decide), ?_⟩,
    value_offerPaths_here (by decide) rfl (by decide), .itself (by decide),
    value_offerPaths_lockedHost⟩
  · have hcut : Cuts "~/" (some "~") "" := .behind (by decide) nofun
    rw [value_offerPaths tildeHost hcut, listing_home_tildeHost]
    decide
  · have hgoes : Path.GoesTo (stays 2046) "home" (stays 2046 ++ "/" ++ "home") :=
      Path.goesTo_slash (stays_ne 2046).1 (by decide)
    have hexpand := expandHome_stays tildeHost.environment 2046 ("/" ++ "home")
    have hlong : Text.Utf8.byteCount (stays 2046 ++ "/" ++ "home") = 4098 := by
      rw [Text.Utf8.byteCount_append, Text.Utf8.byteCount_append, byteCount_stays]
      decide
    rw [← String.append_assoc] at hexpand
    refine value_offerPaths_slash_of_tooLong ?_ hexpand (grants_tildeHost _ _)
      (hgoes.noZero (noZero_stays 2046)) ?_ _
    · intro e
      rw [e] at hlong
      exact absurd hlong (by decide)
    · rw [hlong]
      decide

/-- Behind a `~` that is typed, a link in the home directory is offered, and with a slash behind it
the entry of the directory to which it leads. -/
theorem offerPaths_descend_tildeHost :
    tildeHost.disk.tree.IsSound ∧ (tildeHost.offerPaths {} "~/").value = .ok ["~/docs"] ∧
      (tildeHost.offerPaths ⟨true, true⟩ "~/docs/").value = .ok ["~/docs/inner.txt"] := by
  have hcut : Cuts "~/" (some "~") "" := .behind (by decide) nofun
  have hoffered : (tildeHost.offerPaths {} "~/").value = .ok ["~/docs"] := by
    rw [value_offerPaths tildeHost hcut, listing_home_tildeHost]
    decide
  obtain ⟨before, start, l, name, hcut', hlist, hmem, hname, hdescend⟩ :=
    offerPaths_descend tildeHost isSound_tildeHost hoffered (List.mem_singleton.2 rfl)
  obtain rfl := hcut'.unique hcut
  obtain rfl := Except.ok.inj (listing_home_tildeHost.symm.trans hlist)
  obtain rfl := List.mem_singleton.1 hmem
  obtain ⟨path, hpath, hall⟩ := hdescend ["~"] leadsTo_docs_tildeHost nofun
  obtain rfl : "home/docs" = path := by
    rw [show tildeHost.environment.expandHome "~/docs" = .ok "home/docs" by decide] at hpath
    exact Except.ok.inj hpath
  have hnone : tildeHost.disk.refused? .list "home/docs" = none := grants_tildeHost _ _
  have hdocs := hall true
  unfold Descends at hdocs
  rw [hnone] at hdocs
  refine ⟨isSound_tildeHost, hoffered, hdocs.trans ?_⟩
  rw [if_neg (by decide)]
  decide

end Host

end TabCompletion
