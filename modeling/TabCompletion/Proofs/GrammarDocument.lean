import TabCompletion.Grammar.Reading
import TabCompletion.Proofs.Options
import TabCompletion.Proofs.Validation

/-!
# The documents that are grammars

A document says a command and options in a fixed form (`GrammarForm`): a record with a command
and a list of records, each with a long form, a short form that may be left out, and a domain
that may be written in full, by the name of its kind, or by its values alone. What it says is
plain data (`GrammarContent`), of which only some is a grammar (`GrammarContent.Valid`). The
main statement is that `Grammar.Coded.ofDocument` accepts exactly the JSON documents of this form
that say a grammar, and that the grammar it gives is the one they say
(`ofDocument_eq_ok_iff`).
-/

namespace TabCompletion

open Validation

/-! ## What documents say -/

/-- What a document says of an option. -/
structure OptionContent where
  long : List Nat
  short : Option (List Nat)
  domain : Domain.Coded

/-- What a document says of a command. -/
structure GrammarContent where
  command : List Nat
  options : List OptionContent

/-- The document is the name of a kind of domain. -/
def KindForm (d : Document) (kind : Domain.Kind) : Prop := d = .text kind.name

/-- The document is a list of the strings of these code points. -/
def ValuesForm : Document → List (List Nat) → Prop := ListForm CodesForm

/-- The document says this of what may follow an option: by nothing, by the name of a kind, by
values alone, or by a record of a kind and values, either of which may be left out. Only an
enumeration has values, so a name says an enumeration without any and a record of another kind
holds none. -/
inductive DomainForm : Document → Domain.Coded → Prop
  | nothing : DomainForm .null .none
  | name {d : Document} {domain : Domain.Coded} (hk : KindForm d domain.kind)
      (hv : domain.values = []) : DomainForm d domain
  | values {d : Document} {values : List (List Nat)} (h : ValuesForm d values) :
      DomainForm d (.enum values)
  | record {entries : List (Document × Document)} {domain : Domain.Coded}
      (hk : FieldForm "kind" KindForm (some .none) entries domain.kind)
      (hv : FieldForm "values" ValuesForm (some []) entries domain.values) :
      DomainForm (.map entries) domain

/-- The document says this of an option. -/
inductive OptionForm : Document → OptionContent → Prop
  | record {entries : List (Document × Document)} {o : OptionContent}
      (hl : FieldForm "long" CodesForm none entries o.long)
      (hs : FieldForm "short" (OrNothing CodesForm) (some none) entries o.short)
      (hd : FieldForm "domain" DomainForm (some .none) entries o.domain) :
      OptionForm (.map entries) o

/-- The document says this of a command. -/
inductive GrammarForm : Document → GrammarContent → Prop
  | record {entries : List (Document × Document)} {g : GrammarContent}
      (hc : FieldForm "command" CodesForm none entries g.command)
      (ho : FieldForm "options" (ListForm OptionForm) (some []) entries g.options) :
      GrammarForm (.map entries) g

/-! ## What of it is a grammar -/

/-- A long form is `--` and at least one code point more, without blanks; a short form is `-`
and a code point that is neither that of `-` nor of a space or tab. -/
structure OptionContent.Valid (o : OptionContent) : Prop where
  long_prefix : [0x2D, 0x2D] <+: o.long
  long_length : 3 ≤ o.long.length
  long_blank : ∀ n ∈ o.long, Text.isBlankCode n = false
  short_shape : ∀ s ∈ o.short, ∃ n, s = [0x2D, n] ∧ n ≠ 0x2D ∧ n ≠ 0x20 ∧ n ≠ 9

/-- A command is a text without blanks, not empty, and no two of its options share a form. -/
structure GrammarContent.Valid (g : GrammarContent) : Prop where
  command_ne : g.command ≠ []
  command_blank : ∀ n ∈ g.command, Text.isBlankCode n = false
  options_valid : ∀ o ∈ g.options, o.Valid
  long_nodup : (g.options.map OptionContent.long).Nodup
  short_nodup : (g.options.filterMap OptionContent.short).Nodup

/-- What an option holds. -/
def OptionSpec.Coded.content (o : OptionSpec.Coded) : OptionContent := ⟨o.long, o.short, o.domain⟩

/-- What a grammar holds. -/
def Grammar.Coded.content (g : Grammar.Coded) : GrammarContent :=
  ⟨g.command, g.options.map OptionSpec.Coded.content⟩

theorem isCodedLong_iff (codes : List Nat) :
    isCodedLong codes = true ↔
      [0x2D, 0x2D] <+: codes ∧ 3 ≤ codes.length ∧ ∀ n ∈ codes, Text.isBlankCode n = false := by
  simp only [isCodedLong, Bool.and_eq_true, decide_eq_true_eq, List.isPrefixOf_iff_prefix,
    Bool.not_eq_eq_eq_not, Bool.not_true, List.any_eq_false, Bool.not_eq_true]
  exact and_assoc

theorem isCodedShort_iff (codes : List Nat) :
    isCodedShort codes = true ↔
      ∃ n, codes = [0x2D, n] ∧ n ≠ 0x2D ∧ n ≠ 0x20 ∧ n ≠ 9 := by
  unfold isCodedShort
  split
  · next n => simp [and_assoc]
  · next hcodes =>
      constructor
      · intro h
        cases h
      · rintro ⟨n, hn, -⟩
        exact absurd hn (hcodes n)

theorem isCodedCommand_iff (codes : List Nat) :
    isCodedCommand codes = true ↔ codes ≠ [] ∧ ∀ n ∈ codes, Text.isBlankCode n = false := by
  simp [isCodedCommand]

theorem OptionSpec.Coded.valid_content (o : OptionSpec.Coded) : o.content.Valid := by
  obtain ⟨hdashes, hlength, hblank⟩ := (isCodedLong_iff o.long).1 o.long_form
  exact ⟨hdashes, hlength, hblank, fun s hs => (isCodedShort_iff s).1 (o.short_form s hs)⟩

/-- The option of valid content. -/
def OptionContent.toSpec (o : OptionContent) (h : o.Valid) : OptionSpec.Coded where
  long := o.long
  short := o.short
  domain := o.domain
  long_form := (isCodedLong_iff o.long).2 ⟨h.long_prefix, h.long_length, h.long_blank⟩
  short_form := fun s hs => (isCodedShort_iff s).2 (h.short_shape s hs)

theorem OptionSpec.Coded.map_long_content (options : List OptionSpec.Coded) :
    (options.map OptionSpec.Coded.content).map OptionContent.long =
      options.map OptionSpec.Coded.long := by
  rw [List.map_map]
  rfl

theorem OptionSpec.Coded.filterMap_short_content (options : List OptionSpec.Coded) :
    (options.map OptionSpec.Coded.content).filterMap OptionContent.short =
      options.filterMap OptionSpec.Coded.short := by
  rw [List.filterMap_map]
  rfl

theorem Grammar.Coded.valid_content (g : Grammar.Coded) : g.content.Valid := by
  obtain ⟨hne, hblank⟩ := (isCodedCommand_iff g.command).1 g.command_name
  refine ⟨hne, hblank, ?_, ?_, ?_⟩
  · intro o ho
    obtain ⟨spec, -, rfl⟩ := List.mem_map.1 ho
    exact spec.valid_content
  · exact (OptionSpec.Coded.map_long_content g.options).symm ▸ g.long_nodup
  · exact (OptionSpec.Coded.filterMap_short_content g.options).symm ▸ g.short_nodup

/-- Valid content is that of a grammar. -/
theorem GrammarContent.Valid.exists_grammar {c : GrammarContent} (h : c.Valid) :
    ∃ g : Grammar.Coded, g.content = c := by
  obtain ⟨command, options⟩ := c
  have hoptions : (options.pmap OptionContent.toSpec h.options_valid).map OptionSpec.Coded.content =
      options := by
    rw [List.map_pmap]
    exact List.pmap_eq_self.2 fun _ _ => rfl
  refine ⟨⟨command, options.pmap OptionContent.toSpec h.options_valid, ?_, ?_, ?_⟩, ?_⟩
  · exact (isCodedCommand_iff command).2 ⟨h.command_ne, h.command_blank⟩
  · rw [← OptionSpec.Coded.map_long_content, hoptions]
    exact h.long_nodup
  · rw [← OptionSpec.Coded.filterMap_short_content, hoptions]
    exact h.short_nodup
  · exact congrArg (GrammarContent.mk command) hoptions

/-! ## What is read -/

namespace Domain

theorem kind_ofName?_eq_some_iff (name : String) (kind : Kind) :
    Kind.ofName? name = some kind ↔ name = kind.name := by
  constructor
  · intro h
    have hname : kind.name = name := by simpa using List.find?_some h
    exact hname.symm
  · rintro rfl
    cases kind <;> rfl

theorem readKind_eq_ok_iff (d : Document) (hd : d.IsJson) (kind : Kind) :
    readKind d = .ok kind ↔ KindForm d kind := by
  unfold KindForm
  cases hd with
  | text s =>
      rw [Document.text.injEq, ← kind_ofName?_eq_some_iff]
      simp only [readKind, readText_text]
      cases Kind.ofName? s <;> simp [refuse]
  | _ => simp [readKind, readText, readCodes, refuse, Except.map]

end Domain

namespace Domain.Coded

theorem readValues_eq_ok_iff (d : Document) (hd : d.IsJson) (values : List (List Nat)) :
    readItems .notSequence readCodes d = .ok values ↔ ValuesForm d values :=
  readItems_eq_ok_iff hd readCodes_eq_ok_iff

theorem ofParts_eq_ok_iff {kind : Kind} {values : List (List Nat)} {domain : Domain.Coded} :
    ofParts kind values = .ok domain ↔ domain.kind = kind ∧ domain.values = values := by
  obtain ⟨kind', values', hvalues⟩ := domain
  unfold ofParts
  constructor
  · intro h
    split at h
    · cases h
      exact ⟨rfl, rfl⟩
    · cases h
  · rintro ⟨rfl, rfl⟩
    exact dif_pos hvalues

theorem readFull_eq_ok_iff {d : Document} (hd : d.IsJson) {domain : Domain.Coded} :
    readFull d = .ok domain ↔ ∃ entries, d = .map entries ∧
      FieldForm "kind" KindForm (some .none) entries domain.kind ∧
      FieldForm "values" ValuesForm (some []) entries domain.values := by
  unfold readFull
  simp only [bind_eq_ok_iff, readRecord_eq_ok_iff]
  refine exists_congr fun entries => and_congr_right fun hentries => ?_
  subst hentries
  simp only [both_eq_ok_iff, ofParts_eq_ok_iff, readField_eq_ok_iff hd readKind_eq_ok_iff,
    readField_eq_ok_iff hd readValues_eq_ok_iff]
  constructor
  · rintro ⟨⟨kind, values⟩, ⟨hk, hv⟩, rfl, rfl⟩
    exact ⟨hk, hv⟩
  · rintro ⟨hk, hv⟩
    exact ⟨(domain.kind, domain.values), ⟨hk, hv⟩, rfl, rfl⟩

theorem read_name_eq_ok_iff {d : Document} (hd : d.IsJson) {domain : Domain.Coded} :
    (do let kind ← within "kind" (readKind d); ofParts kind []) = .ok domain ↔
      KindForm d domain.kind ∧ domain.values = [] := by
  simp only [bind_eq_ok_iff, within_eq_ok_iff, ofParts_eq_ok_iff, readKind_eq_ok_iff d hd]
  constructor
  · rintro ⟨kind, hk, rfl, hv⟩
    exact ⟨hk, hv⟩
  · rintro ⟨hk, hv⟩
    exact ⟨domain.kind, hk, rfl, hv⟩

/-- A document that is neither nothing nor a list, nor a record, says a domain by the name of its
kind. -/
theorem domainForm_iff_of_name (d : Document) {domain : Domain.Coded} (hnull : d ≠ .null)
    (hlist : ∀ items, d ≠ .list items) (hmap : ∀ entries, d ≠ .map entries) :
    DomainForm d domain ↔ KindForm d domain.kind ∧ domain.values = [] := by
  constructor
  · intro h
    cases h with
    | nothing => exact absurd rfl hnull
    | name hk hv => exact ⟨hk, hv⟩
    | values h =>
        obtain ⟨items, hitems, -⟩ := h
        exact absurd hitems (hlist items)
    | record => exact absurd rfl (hmap _)
  · exact fun h => .name h.1 h.2

/-- A document that is neither nothing nor a list, nor a string, says a domain in full. -/
theorem domainForm_iff_of_full (d : Document) {domain : Domain.Coded} (hnull : d ≠ .null)
    (htext : ∀ s, d ≠ .text s) (hlist : ∀ items, d ≠ .list items) :
    DomainForm d domain ↔ ∃ entries, d = .map entries ∧
      FieldForm "kind" KindForm (some .none) entries domain.kind ∧
      FieldForm "values" ValuesForm (some []) entries domain.values := by
  constructor
  · intro h
    cases h with
    | nothing => exact absurd rfl hnull
    | name hk => exact absurd hk (htext _)
    | values h =>
        obtain ⟨items, hitems, -⟩ := h
        exact absurd hitems (hlist items)
    | @record entries domain hk hv => exact ⟨entries, rfl, hk, hv⟩
  · rintro ⟨entries, rfl, hk, hv⟩
    exact .record hk hv

/-- The domain of a JSON document is the one that it says. -/
theorem read_eq_ok_iff (d : Document) (hd : d.IsJson) (domain : Domain.Coded) :
    read d = .ok domain ↔ DomainForm d domain := by
  -- the readings by name, by values and in full each take documents of their own shape
  cases hd with
  | null =>
      constructor
      · intro h
        cases h
        exact .nothing
      · intro h
        cases h with
        | nothing => rfl
        | name hk => cases hk
        | values h =>
            obtain ⟨items, hitems, -⟩ := h
            cases hitems
  | text s =>
      rw [domainForm_iff_of_name (.text s) nofun nofun nofun]
      exact read_name_eq_ok_iff (.text s)
  | brokenText codes =>
      rw [domainForm_iff_of_name (.brokenText codes) nofun nofun nofun]
      exact read_name_eq_ok_iff (.brokenText codes)
  | list h =>
      rw [read, map_eq_ok_iff]
      simp only [within_eq_ok_iff, readValues_eq_ok_iff _ (.list h)]
      constructor
      · rintro ⟨values, hvalues, rfl⟩
        exact .values hvalues
      · intro h
        cases h with
        | name hk => cases hk
        | values hvalues => exact ⟨_, hvalues, rfl⟩
  | @map entries hk hv =>
      rw [domainForm_iff_of_full (.map entries) nofun nofun nofun]
      exact readFull_eq_ok_iff (.map hk hv)
  | bool b =>
      rw [domainForm_iff_of_full (.bool b) nofun nofun nofun]
      exact readFull_eq_ok_iff (.bool b)
  | int n =>
      rw [domainForm_iff_of_full (.int n) nofun nofun nofun]
      exact readFull_eq_ok_iff (.int n)
  | float x =>
      rw [domainForm_iff_of_full (.float x) nofun nofun nofun]
      exact readFull_eq_ok_iff (.float x)

end Domain.Coded

/-! ## Options and grammars -/

/-- A string that is accepted by a test is read exactly if the document is that string. -/
theorem readTested_eq_ok_iff {test : List Nat → Bool} {cause : List Nat → Cause} {d : Document}
    (hd : d.IsJson) (s : { s : List Nat // test s = true }) :
    (do
        let s ← readCodes d
        if h : test s = true then .ok ⟨s, h⟩ else refuse (cause s)) = Except.ok s ↔
      CodesForm d s.1 := by
  rw [bind_eq_ok_iff]
  constructor
  · rintro ⟨t, ht, h⟩
    split at h
    · cases h
      exact (readCodes_eq_ok_iff d hd t).1 ht
    · cases h
  · intro h
    exact ⟨s.1, (readCodes_eq_ok_iff d hd s.1).2 h, dif_pos s.2⟩

theorem readLong_eq_ok_iff (d : Document) (hd : d.IsJson)
    (s : { s : List Nat // isCodedLong s = true }) :
    readLong d = .ok s ↔ CodesForm d s.1 :=
  readTested_eq_ok_iff hd s

theorem readShort_eq_ok_iff (d : Document) (hd : d.IsJson)
    (s : { s : Option (List Nat) // ∀ t ∈ s, isCodedShort t = true }) :
    readShort d = .ok s ↔ OrNothing CodesForm d s.1 := by
  unfold readShort
  simp only [bind_eq_ok_iff, readOptionalCodes_eq_ok_iff d hd]
  obtain ⟨s, hs⟩ := s
  constructor
  · rintro ⟨t, ht, h⟩
    cases t with
    | none =>
        cases h
        exact ht
    | some t =>
        simp only at h
        split at h
        · cases h
          exact ht
        · cases h
  · intro h
    refine ⟨s, h, ?_⟩
    cases s with
    | none => rfl
    | some t =>
        have ht : isCodedShort t = true := hs t rfl
        simp only [ht, dite_true]

theorem OptionSpec.Coded.content_injective : Function.Injective OptionSpec.Coded.content := by
  rintro ⟨long, short, domain, _, _⟩ ⟨long', short', domain', _, _⟩ h
  cases h
  rfl

/-- An option is read from a JSON document exactly if the document says what it holds. -/
theorem OptionSpec.Coded.read_eq_ok_iff (d : Document) (hd : d.IsJson) (o : OptionSpec.Coded) :
    OptionSpec.Coded.read d = .ok o ↔ OptionForm d o.content := by
  have hfields : ∀ entries, d = .map entries → ∀ p,
      both (both (readField "long" readLong none entries)
        (readField "short" readShort (some ⟨none, by simp⟩) entries))
        (readField "domain" Domain.Coded.read (some .none) entries) = .ok p ↔
      OptionForm d ⟨p.1.1.1, p.1.2.1, p.2⟩ := by
    -- the three fields side by side
    rintro entries rfl ⟨⟨long, short⟩, domain⟩
    simp only [both_eq_ok_iff, readField_eq_ok_iff hd readLong_eq_ok_iff,
      readField_eq_ok_iff hd readShort_eq_ok_iff,
      readField_eq_ok_iff hd Domain.Coded.read_eq_ok_iff,
      fieldForm_map_iff Subtype.val_injective, Option.map_none, Option.map_some]
    constructor
    · rintro ⟨⟨hl, hs⟩, hdomain⟩
      exact .record hl hs hdomain
    · intro h
      cases h with
      | record hl hs hdomain => exact ⟨⟨hl, hs⟩, hdomain⟩
  unfold OptionSpec.Coded.read
  simp only [bind_eq_ok_iff, readRecord_eq_ok_iff]
  constructor
  · rintro ⟨entries, rfl, p, hp, ho⟩
    cases ho
    exact (hfields entries rfl p).1 hp
  · intro h
    obtain ⟨entries, rfl⟩ : ∃ entries, d = .map entries := by
      cases h with
      | record => exact ⟨_, rfl⟩
    exact ⟨entries, rfl, ((⟨o.long, o.long_form⟩, ⟨o.short, o.short_form⟩), o.domain),
      (hfields entries rfl _).2 h, rfl⟩

theorem readCommand_eq_ok_iff (d : Document) (hd : d.IsJson)
    (s : { s : List Nat // isCodedCommand s = true }) :
    readCommand d = .ok s ↔ CodesForm d s.1 :=
  readTested_eq_ok_iff hd s

theorem readOptions_eq_ok_iff (d : Document) (hd : d.IsJson) (options : List OptionSpec.Coded) :
    readItems .notSequence OptionSpec.Coded.read d = .ok options ↔
      ListForm OptionForm d (options.map OptionSpec.Coded.content) := by
  rw [readItems_eq_ok_iff hd OptionSpec.Coded.read_eq_ok_iff]
  simp only [ListForm, List.forall₂_map_right_iff]

theorem Grammar.Coded.ofParts_eq_ok_iff {command : List Nat} {h : isCodedCommand command = true}
    {options : List OptionSpec.Coded} {g : Grammar.Coded} :
    Grammar.Coded.ofParts command h options = .ok g ↔
      g.command = command ∧ g.options = options := by
  unfold Grammar.Coded.ofParts
  constructor
  · intro hg
    split at hg
    · cases hg
      exact ⟨rfl, rfl⟩
    · split at hg <;> cases hg
  · rintro ⟨rfl, rfl⟩
    rw [dif_pos ⟨g.long_nodup, g.short_nodup⟩]

/-- A grammar is read from a JSON document exactly if the document says what it holds. -/
theorem Grammar.Coded.read_eq_ok_iff {d : Document} (hd : d.IsJson) {g : Grammar.Coded} :
    Grammar.Coded.read d = .ok g ↔ GrammarForm d g.content := by
  have hfields : ∀ entries, d = .map entries → ∀ p,
      both (readField "command" readCommand none entries)
          (readField "options" (readItems .notSequence OptionSpec.Coded.read) (some []) entries) =
        .ok p ↔
      GrammarForm d ⟨p.1.1, p.2.map OptionSpec.Coded.content⟩ := by
    -- the two fields side by side; what options hold determines them
    rintro entries rfl ⟨command, options⟩
    simp only [both_eq_ok_iff, readField_eq_ok_iff hd readCommand_eq_ok_iff,
      readField_eq_ok_iff hd readOptions_eq_ok_iff, fieldForm_map_iff Subtype.val_injective,
      fieldForm_map_iff (List.map_injective_iff.2 OptionSpec.Coded.content_injective),
      Option.map_none, Option.map_some, List.map_nil]
    constructor
    · rintro ⟨hc, ho⟩
      exact .record hc ho
    · intro h
      cases h with
      | record hc ho => exact ⟨hc, ho⟩
  unfold Grammar.Coded.read
  simp only [bind_eq_ok_iff, readRecord_eq_ok_iff, Grammar.Coded.ofParts_eq_ok_iff]
  constructor
  · rintro ⟨entries, rfl, p, hp, hcommand, hoptions⟩
    have hform := (hfields entries rfl p).1 hp
    rw [← hcommand, ← hoptions] at hform
    exact hform
  · intro h
    obtain ⟨entries, rfl⟩ : ∃ entries, d = .map entries := by
      cases h with
      | record => exact ⟨_, rfl⟩
    exact ⟨entries, rfl, (⟨g.command, g.command_name⟩, g.options), (hfields entries rfl _).2 h,
      rfl, rfl⟩

/-- A JSON document is accepted exactly if it has the form of a grammar and what it says is
valid, and the grammar then holds what the document says. -/
theorem Grammar.Coded.ofDocument_eq_ok_iff (d : Document) (hd : d.IsJson) (c : GrammarContent) :
    (∃ g, Grammar.Coded.ofDocument d = .ok g ∧ g.content = c) ↔ GrammarForm d c ∧ c.Valid := by
  simp only [Grammar.Coded.ofDocument, orRefuse_eq_ok_iff, Grammar.Coded.read_eq_ok_iff hd]
  constructor
  · rintro ⟨g, hform, rfl⟩
    exact ⟨hform, g.valid_content⟩
  · rintro ⟨hform, hvalid⟩
    obtain ⟨g, rfl⟩ := hvalid.exists_grammar
    exact ⟨g, hform, rfl⟩

/-- A document that leaves out what may be left out. Two of its long forms differ in a surrogate
only. -/
def shortDocument : Document :=
  .record [("command", .text "copy"), ("options", .list [
    .record [("long", .text "--mode"), ("short", .null), ("domain", .texts ["fast"])],
    .record [("long", .brokenText [0x2D, 0x2D, 0xD800])],
    .record [("long", .brokenText [0x2D, 0x2D, 0xD801])]])]

/-- What it says. -/
def shortContent : GrammarContent :=
  ⟨Text.codes "copy",
    [⟨Text.codes "--mode", none, .enum [Text.codes "fast"]⟩,
      ⟨[0x2D, 0x2D, 0xD800], none, .none⟩, ⟨[0x2D, 0x2D, 0xD801], none, .none⟩]⟩

/-- An option that is given by a long form alone. -/
theorem optionForm_long {d : Document} {codes : List Nat} (h : CodesForm d codes) :
    OptionForm (.record [("long", d)]) ⟨codes, none, .none⟩ :=
  .record (.given rfl h) (.absent rfl rfl) (.absent rfl rfl)

theorem optionContent_valid {codes : List Nat} (h : isCodedLong codes = true)
    (domain : Domain.Coded) : OptionContent.Valid ⟨codes, none, domain⟩ := by
  obtain ⟨hdashes, hlength, hblank⟩ := (isCodedLong_iff codes).1 h
  exact ⟨hdashes, hlength, hblank, fun s hs => absurd hs (Option.not_mem_none s)⟩

theorem isJson_record {fields : List (String × Document)} (h : ∀ f ∈ fields, f.2.IsJson) :
    (Document.record fields).IsJson := by
  refine .map (fun e he => ?_) fun e he => ?_
  · obtain ⟨f, -, rfl⟩ := List.mem_map.1 he
    exact .inl ⟨f.1, rfl⟩
  · obtain ⟨f, hf, rfl⟩ := List.mem_map.1 he
    exact h f hf

theorem ofDocument_shortDocument :
    shortDocument.IsJson ∧
      ∃ g, Grammar.Coded.ofDocument shortDocument = .ok g ∧ g.content = shortContent := by
  have hjson : shortDocument.IsJson := by
    refine isJson_record (List.forall_mem_cons.2 ⟨.text _, List.forall_mem_singleton.2 ?_⟩)
    refine .list (List.forall_mem_cons.2 ⟨?_, List.forall_mem_cons.2
      ⟨?_, List.forall_mem_singleton.2 ?_⟩⟩)
    · refine isJson_record (List.forall_mem_cons.2 ⟨.text _, List.forall_mem_cons.2
        ⟨.null, List.forall_mem_singleton.2 ?_⟩⟩)
      exact .list (List.forall_mem_singleton.2 (.text _))
    · exact isJson_record (List.forall_mem_singleton.2 (.brokenText _))
    · exact isJson_record (List.forall_mem_singleton.2 (.brokenText _))
  have hmode : OptionForm
      (.record [("long", .text "--mode"), ("short", .null), ("domain", .texts ["fast"])])
      ⟨Text.codes "--mode", none, .enum [Text.codes "fast"]⟩ :=
    .record (.given rfl rfl) (.given rfl .nothing)
      (.given rfl (.values ⟨_, rfl, .cons rfl .nil⟩))
  have hform : GrammarForm shortDocument shortContent :=
    .record (.given rfl rfl) (.given rfl ⟨_, rfl,
      .cons hmode (.cons (optionForm_long rfl) (.cons (optionForm_long rfl) .nil))⟩)
  have hvalid : shortContent.Valid := by
    obtain ⟨hne, hblank⟩ := (isCodedCommand_iff (Text.codes "copy")).1 (by decide)
    refine ⟨hne, hblank, ?_, by decide, by decide⟩
    refine List.forall_mem_cons.2 ⟨optionContent_valid (by decide) _, List.forall_mem_cons.2
      ⟨optionContent_valid (by decide) _, List.forall_mem_singleton.2 ?_⟩⟩
    exact optionContent_valid (by decide) _
  exact ⟨hjson,
    (Grammar.Coded.ofDocument_eq_ok_iff shortDocument hjson shortContent).2 ⟨hform, hvalid⟩⟩

end TabCompletion
