import Mathlib.Data.List.Nodup
import TabCompletion.Proofs.Listing
import TabCompletion.Proofs.Narrowing

/-!
# Candidates for paths

A candidate for a path is of use only if it starts with what is typed: no other passes the filter.
All candidates do, unless what is typed is two slashes and the start of a name: then the entries of
the root are offered behind one slash, and none of them is kept. `Host.offersEach_iff` says that
this is the only case in which candidates are lost, and that in any other the engine offers one for
each entry that the settings let through. The names in a directory are supposed to be those of a
file system (`Tree.IsSound`).
-/

namespace TabCompletion

open Candidates (extendsTyped)
open TypedPath (Cuts IsDoubleRoot nameBehind)

/-! ## The trees of file systems -/

namespace Tree

/-- The text may be the name of an entry: it is a name on a path, neither `.` nor `..`, not too
long, and without a zero character. -/
def IsFileName (name : String) : Prop :=
  Path.IsName name ∧ IsEntryName name ∧ '\x00' ∉ name.toList

instance (name : String) : Decidable (IsFileName name) :=
  inferInstanceAs (Decidable (_ ∧ _ ∧ _))

/-- The tree may be that of a file system: each place is listed once, and the names on it are those
of entries. -/
structure IsSound (t : Tree) : Prop where
  nodup : (t.entries.map Prod.fst).Nodup
  named : ∀ e ∈ t.entries, ∀ name ∈ e.1, IsFileName name

variable {t : Tree}

/-- A directory does not list a name twice. -/
theorem IsSound.nodup_names (h : t.IsSound) (place : Place) : (t.names place).Nodup := by
  have hnames : t.names place = (t.entries.map Prod.fst).filterMap fun q =>
      if q.dropLast = place then q.getLast? else none := by
    rw [List.filterMap_map]
    rfl
  -- a name and the place of its directory are the place of the entry
  have hplace : ∀ {p : Place} {n : String},
      (if p.dropLast = place then p.getLast? else none) = some n → p = place ++ [n] := by
    intro p n hp
    split at hp
    · next hdirectory => rw [← hdirectory, List.dropLast_append_getLast? n hp]
    · cases hp
  rw [hnames]
  refine List.Pairwise.filterMap _ (fun q q' hne name hname name' hname' heq => hne ?_) h.nodup
  rw [hplace hname, hplace hname', heq]

theorem IsSound.isFileName (h : t.IsSound) {place : Place} {name : String}
    (hname : name ∈ t.names place) : IsFileName name := by
  obtain ⟨e, hmem⟩ := isSome_entry?_append.1 (mem_names_iff.1 hname)
  exact h.named _ hmem name (List.mem_append_right _ List.mem_cons_self)

end Tree

/-- A directory is listed if its path leads to it. -/
theorem Host.locate_of_listing {h : Host} {before : Option String} {l : Listing}
    (hlist : h.listing before = .ok l) :
    h.pathBefore before = .ok l.path ∧
      h.disk.locate true l.path = .ok (.found l.place .directory) ∧
        l.names = h.disk.tree.names l.place := by
  unfold listing at hlist
  split at hlist
  · cases hlist
  · next path hpath =>
      cases hlisted : h.disk.list path with
      | error fault =>
          rw [hlisted] at hlist
          cases hlist
      | ok listed =>
          rw [hlisted] at hlist
          cases hlist
          exact ⟨hpath, Disk.locate_of_list hlisted⟩

/-! ## What is offered of a listing -/

namespace Listing

variable {l : Listing} {d : Disk} {typed start : String} {before : Option String}
  {settings : PathSettings}

/-- Marks do not make candidates the same, as there is no slash in a name. -/
theorem candidate_injOn {marks : Bool} {name name' : String} (hname : '/' ∉ name.toList)
    (hname' : '/' ∉ name'.toList)
    (h : l.candidate d before marks name = l.candidate d before marks name') : name = name' := by
  obtain ⟨front, hfront⟩ := TypedPath.exists_front before
  have hlist := congrArg String.toList h
  unfold candidate at hlist
  rw [hfront, hfront, String.append_assoc, String.append_assoc, String.toList_append,
    String.toList_append (s := front)] at hlist
  have hrest := List.append_cancel_left hlist
  apply String.toList_injective
  split at hrest <;> split at hrest
  · simpa using hrest
  · rw [String.append_empty, String.toList_append] at hrest
    exact absurd (hrest ▸ List.mem_append_right _ List.mem_cons_self) hname'
  · rw [String.append_empty, String.toList_append] at hrest
    exact absurd (hrest ▸ List.mem_append_right _ List.mem_cons_self) hname
  · simpa using hrest

theorem nodup_texts_offers (hnames : l.names.Nodup)
    (hslash : ∀ name ∈ l.names, Tree.IsFileName name) :
    (Offer.texts (l.offers d before start settings)).Nodup := by
  rw [texts_offers]
  refine List.Nodup.map_on (fun name hname name' hname' heq => ?_) (hnames.filter _)
  have hfile := hslash name (List.mem_filter.1 hname).1
  have hfile' := hslash name' (List.mem_filter.1 hname').1
  exact candidate_injOn hfile.1.2.2 hfile'.1.2.2 heq

/-- Every candidate starts with what is typed, unless nothing but two slashes is typed in front of
the start of a name; then none does. -/
theorem extendsTyped_of_mem_offers (hcut : Cuts typed before start)
    (hnames : ∀ name ∈ l.names, Tree.IsFileName name) {c : String}
    (hc : c ∈ Offer.texts (l.offers d before start settings)) :
    extendsTyped typed c = true ↔ before ≠ some "/" := by
  rw [texts_offers] at hc
  obtain ⟨name, hname, rfl⟩ := List.mem_map.1 hc
  obtain ⟨hmem, hlets⟩ := List.mem_filter.1 hname
  exact TypedPath.extendsTyped_nameBehind_iff hcut (hnames name hmem).1
    (Bool.and_eq_true_iff.1 hlets).1 _

end Listing

/-! ## What the engine offers -/

/-- The engine offers for the value of a path what the filter keeps of the candidates. -/
theorem Engine.offered_explain_path {e : Engine} {words : List String} {cursor : Int}
    {offered : List String} (h : e.CompletesPath words cursor.toNat)
    (hpaths : (e.paths (wordAt words cursor.toNat)).value = .ok offered) :
    (e.explain words cursor).value.offered =
      Candidates.filter offered (wordAt words cursor.toNat) := by
  obtain ⟨i, g, o, hi, hg, ho, hform, hdomain⟩ := h
  obtain ⟨hne, hcommand, hprevious⟩ := Request.resolvedBy_of_agree hi fun _ _ => rfl
  have hoption : g.findOption? (wordAt words i) = some o :=
    (g.findOption?_eq_some_iff _ o).2 ⟨ho, hform⟩
  have hresolve : (e.resolve (Request.ofWords words cursor)).value =
      .ok { state := .expectOptionValue, candidates := offered, grammar := some g,
            option := some o } := by
    rw [resolve_option e hne (hcommand ▸ hg) (hprevious ▸ hoption), hdomain,
      resolveValue_path e g _ hdomain, Request.current_ofWords, hpaths]
    rfl
  rw [value_explain_of_resolve hresolve]

namespace Host

/-- What is offered for a text is offered of a listing, unless it is nothing. -/
theorem eq_texts_or_eq_nil (h : Host) {settings : PathSettings} {typed start : String}
    {before : Option String} {offered : List String} (hcut : Cuts typed before start)
    (hoffered : (h.offerPaths settings typed).value = .ok offered) :
    (∃ l, h.listing before = .ok l ∧
      offered = Offer.texts (l.offers h.disk before start settings)) ∨ offered = [] := by
  rw [value_offerPaths h hcut] at hoffered
  cases hlist : h.listing before with
  | ok l =>
      rw [hlist] at hoffered
      exact .inl ⟨l, rfl, (Except.ok.inj hoffered).symm⟩
  | error fault =>
      rw [hlist] at hoffered
      cases fault with
      | file f =>
          dsimp only at hoffered
          split at hoffered
          · exact .inr (Except.ok.inj hoffered).symm
          · cases hoffered
      | _ => cases hoffered

/-- All that is offered for a text is of use: it starts with the text, the filter keeps it, and an
engine that completes the text as a path offers it. -/
structure OffersEach (h : Host) (settings : PathSettings) (typed : String)
    (offered : List String) : Prop where
  isPrefix : ∀ c ∈ offered, typed.toList <+: c.toList
  filter_eq : Candidates.filter offered typed = offered
  explain_eq : ∀ (e : Engine) words cursor, e.paths = h.offerPaths settings →
    e.CompletesPath words cursor.toNat → wordAt words cursor.toNat = typed →
      (e.explain words cursor).value.offered = offered

/-- Candidates without repetition that all start with what is typed are all of use. -/
theorem offersEach_of_nodup {h : Host} {settings : PathSettings} {typed : String}
    {offered : List String} (hoffered : (h.offerPaths settings typed).value = .ok offered)
    (hnodup : offered.Nodup) (hall : ∀ c ∈ offered, extendsTyped typed c = true) :
    h.OffersEach settings typed offered := by
  have hfilter : Candidates.filter offered typed = offered := by
    rw [Candidates.filter_of_nodup hnodup, List.filter_eq_self]
    exact hall
  refine ⟨fun c hc => Candidates.extendsTyped_iff.1 (hall c hc), hfilter, ?_⟩
  rintro e words cursor hpaths hpath rfl
  rw [Engine.offered_explain_path hpath (hpaths ▸ hoffered), hfilter]

/-- Of the offers for a text each is kept, unless two slashes and the start of a name are typed;
then none is. There is one for each listed entry whose name starts with what is typed behind the
last slash, hidden ones excepted. -/
theorem offersEach_iff (h : Host) (hsound : h.disk.tree.IsSound) (settings : PathSettings)
    {typed : String} {offered : List String}
    (hoffered : (h.offerPaths settings typed).value = .ok offered) :
    (h.OffersEach settings typed offered ↔ offered = [] ∨ ¬ IsDoubleRoot typed) ∧
      (IsDoubleRoot typed → Candidates.filter offered typed = []) ∧
      ∃ before start, Cuts typed before start ∧ ∀ l, h.listing before = .ok l →
        ∃ offers : List Offer, offered = Offer.texts offers ∧
          offers.map Offer.name = l.names.filter fun name =>
            start.toList.isPrefixOf name.toList && (settings.showHidden ||
              start.toList.head? = some '.' || name.toList.head? != some '.') := by
  obtain ⟨before, start, hcut⟩ := TypedPath.exists_cuts typed
  -- the candidates are different, and what one of them starts with all do
  have hcandidates : offered.Nodup ∧
      ∀ c ∈ offered, (extendsTyped typed c = true ↔ ¬ IsDoubleRoot typed) := by
    rw [hcut.isDoubleRoot_iff]
    rcases h.eq_texts_or_eq_nil hcut hoffered with ⟨l, hlist, rfl⟩ | rfl
    · obtain ⟨-, -, hnames⟩ := locate_of_listing hlist
      have hfile : ∀ name ∈ l.names, Tree.IsFileName name :=
        fun name hname => hsound.isFileName (hnames ▸ hname)
      exact ⟨Listing.nodup_texts_offers (hnames ▸ hsound.nodup_names _) hfile,
        fun c hc => Listing.extendsTyped_of_mem_offers hcut hfile hc⟩
    · exact ⟨List.nodup_nil, nofun⟩
  obtain ⟨hnodup, hextends⟩ := hcandidates
  refine ⟨⟨fun heach => ?_, ?_⟩, fun hroot => ?_, before, start, hcut, fun l hlist => ?_⟩
  · cases offered with
    | nil => exact .inl rfl
    | cons c rest =>
        have hc := heach.isPrefix c List.mem_cons_self
        exact .inr ((hextends c List.mem_cons_self).1 (Candidates.extendsTyped_iff.2 hc))
  · rintro (rfl | hroot)
    · exact offersEach_of_nodup hoffered List.nodup_nil nofun
    · exact offersEach_of_nodup hoffered hnodup fun c hc => (hextends c hc).2 hroot
  · rw [Candidates.filter_of_nodup hnodup, List.filter_eq_nil_iff]
    exact fun c hc hkept => (hextends c hc).1 hkept hroot
  · refine ⟨l.offers h.disk before start settings, ?_, l.map_name_offers ..⟩
    rw [value_offerPaths h hcut, hlist] at hoffered
    exact (Except.ok.inj hoffered).symm

/-! ## One root, typed in two ways -/

/-- A host with a directory at the root, and a directory and a file in that. -/
def rootHost : Host where
  environment := { values := [("HOME", "home")], users := [], ownHome := none, platform := "Linux" }
  disk :=
    { tree := ⟨[(["tmp"], .directory), (["tmp", "a"], .directory), (["tmp", "b"], .file [])]⟩,
      cwd := [] }

/-- Nothing is refused there. -/
theorem grants_rootHost (call : Call) (path : String) : rootHost.disk.Grants call path :=
  Disk.grants_of_refusals_eq_nil rfl call path

theorem isSound_rootHost : rootHost.disk.tree.IsSound := ⟨by decide, by decide⟩

theorem cuts_doubleRoot : Cuts "//tmp" (some "/") "tmp" := .behind (by decide) (by decide)

theorem value_offerPaths_rootHost :
    (rootHost.offerPaths {} "//tmp").value = .ok ["/tmp"] := by
  have hlist : rootHost.listing (some "/") = .ok ⟨"/", [], ["tmp"]⟩ := by
    have hsteps : Tree.stepsOf "/" = [] := by decide
    refine listing_of_locate (by decide) (grants_rootHost _ _) ?_
    rw [Disk.locate_eq_walk (by decide), hsteps, Tree.walk_nil]
    rfl
  rw [value_offerPaths rootHost cuts_doubleRoot, hlist]
  decide

/-- Two slashes and the start of a name that is there are typed: it is offered behind one slash, and
is lost in the filter, so that nothing comes of the completion. -/
theorem not_offersEach_rootHost :
    rootHost.disk.tree.IsSound ∧ (rootHost.offerPaths {} "//tmp").value = .ok ["/tmp"] ∧
      ¬ "//tmp".toList <+: "/tmp".toList ∧ Candidates.filter ["/tmp"] "//tmp" = [] ∧
        (Engine.explain ⟨Library.start, rootHost.offerPaths {}⟩ ["peerd", "-d", "//tmp"]
          2).value.offered = [] := by
  refine ⟨isSound_rootHost, value_offerPaths_rootHost, by decide, by decide, ?_⟩
  have hlookup : Library.start.lookup? "peerd" = some Grammar.peerd := by decide
  have hdomain : (Grammar.peerd.findOption? "-d").map OptionSpec.domain = some .path := by decide
  obtain ⟨o, ho, hpath⟩ := Option.map_eq_some_iff.1 hdomain
  obtain ⟨hmem, hform⟩ := (Grammar.peerd.findOption?_eq_some_iff "-d" o).1 ho
  have hcompletes : Engine.CompletesPath ⟨Library.start, rootHost.offerPaths {}⟩
      ["peerd", "-d", "//tmp"] (2 : Int).toNat :=
    ⟨1, Grammar.peerd, o, rfl, hlookup, hmem, hform, hpath⟩
  rw [Engine.offered_explain_path hcompletes value_offerPaths_rootHost]
  decide

/-- With a third slash what is typed is kept. -/
theorem offersEach_rootHost :
    rootHost.disk.tree.IsSound ∧
      (rootHost.offerPaths { markDirectories := true } "//tmp/").value =
        .ok ["//tmp/a/", "//tmp/b"] ∧
      rootHost.OffersEach { markDirectories := true } "//tmp/" ["//tmp/a/", "//tmp/b"] := by
  have hcut : Cuts "//tmp/" (some "//tmp") "" := .behind (by decide) (by decide)
  have hlist : rootHost.listing (some "//tmp") = .ok ⟨"//tmp", ["tmp"], ["a", "b"]⟩ := by
    have hreaches : rootHost.disk.Reaches "//tmp" ["tmp"] := by decide
    exact listing_of_locate (by decide) (grants_rootHost _ _)
      (hreaches.locate (by decide) (by simp) true)
  have hoffered : (rootHost.offerPaths { markDirectories := true } "//tmp/").value =
      .ok ["//tmp/a/", "//tmp/b"] := by
    rw [value_offerPaths rootHost hcut, hlist]
    decide
  have hroot : ¬ IsDoubleRoot "//tmp/" := by
    rw [hcut.isDoubleRoot_iff]
    decide
  exact ⟨isSound_rootHost, hoffered,
    (offersEach_iff rootHost isSound_rootHost _ hoffered).1.2 (.inr hroot)⟩

end Host

end TabCompletion
