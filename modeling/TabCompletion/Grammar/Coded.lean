import TabCompletion.Grammar.Basic
import TabCompletion.Text.Codes
import TabCompletion.Validation.Issue

/-!
# Grammars as documents say them

The texts of a document are code points, and these need not be characters. So what a document
says is a grammar whose texts are code points: `Domain.Coded`, `OptionSpec.Coded` and
`Grammar.Coded` hold the rules of a domain, an option and a grammar for such texts.

The rest of the library takes texts to be of characters. `Grammar.Coded.inCharacters` is the
grammar in characters, with the replacement character for every surrogate; a grammar of characters
is had back from its code points (`Grammar.Coded.inCharacters_coded`). What becomes of surrogates
after that is left out: two forms that differ in surrogates alone are one form in characters, so a
grammar that has both is refused there, although its document is in order.
-/

namespace TabCompletion

/-! ## Forms -/

/-- The code points are the long form of an option. -/
def isCodedLong (codes : List Nat) : Bool :=
  [0x2D, 0x2D].isPrefixOf codes && 3 ≤ codes.length && !codes.any Text.isBlankCode

/-- The code points are the short form of an option. -/
def isCodedShort (codes : List Nat) : Bool :=
  match codes with
  | [0x2D, n] => n != 0x2D && n != 0x20 && n != 9
  | _ => false

/-- The code points are the name of a command. -/
def isCodedCommand (codes : List Nat) : Bool := !codes.isEmpty && !codes.any Text.isBlankCode

theorem any_isBlank_inCharacters (codes : List Nat) :
    (Text.inCharacters codes).toList.any Text.isBlank = codes.any Text.isBlankCode := by
  rw [Text.toList_inCharacters, List.any_map]
  exact congrArg codes.any (funext Text.isBlank_characterOf)

/-- A code point is read as `-` only if it is the one of `-`. -/
theorem characterOf_eq_dash_iff (n : Nat) : Text.characterOf n = '-' ↔ n = 0x2D :=
  Text.characterOf_eq_iff (by decide)

theorem isLongForm_inCharacters (codes : List Nat) :
    isLongForm (Text.inCharacters codes) = isCodedLong codes := by
  have hdashes : ['-', '-'].isPrefixOf (codes.map Text.characterOf) =
      [0x2D, 0x2D].isPrefixOf codes := by
    match codes with
    | [] => rfl
    | [m] => simp [List.isPrefixOf]
    | m :: n :: rest =>
        rw [Bool.eq_iff_iff]
        simp [eq_comm (a := '-'), eq_comm (a := 0x2D), characterOf_eq_dash_iff]
  rw [isLongForm, isCodedLong, any_isBlank_inCharacters, Text.toList_inCharacters, hdashes,
    List.length_map]

theorem isShortForm_inCharacters (codes : List Nat) :
    isShortForm (Text.inCharacters codes) = isCodedShort codes := by
  have hchar : ∀ {n : Nat} {c : Char}, c ≠ Char.ofNat 0xFFFD →
      (Text.characterOf n != c) = (n != c.toNat) := by
    intro n c hc
    rw [Bool.eq_iff_iff, bne_iff_ne, bne_iff_ne, Ne, Text.characterOf_eq_iff hc]
  rw [isShortForm, Text.toList_inCharacters]
  match codes with
  | [] => rfl
  | [_] | _ :: _ :: _ :: _ => simp [isCodedShort]
  | [m, n] =>
      by_cases hm : m = 0x2D
      · subst hm
        show (Text.characterOf n != '-' && _ && _) = _
        rw [hchar (by decide), hchar (by decide), hchar (by decide)]
        rfl
      · have hdash : Text.characterOf m ≠ '-' := mt (characterOf_eq_dash_iff m).1 hm
        simp [isCodedShort, hm, hdash]

theorem isCommandName_inCharacters (codes : List Nat) :
    isCommandName (Text.inCharacters codes) = isCodedCommand codes := by
  rw [isCommandName, isCodedCommand, any_isBlank_inCharacters, Text.toList_inCharacters,
    List.isEmpty_map]

theorem isCodedLong_codes (s : String) : isCodedLong (Text.codes s) = isLongForm s := by
  rw [← isLongForm_inCharacters, Text.inCharacters_codes]

theorem isCodedShort_codes (s : String) : isCodedShort (Text.codes s) = isShortForm s := by
  rw [← isShortForm_inCharacters, Text.inCharacters_codes]

theorem isCodedCommand_codes (s : String) : isCodedCommand (Text.codes s) = isCommandName s := by
  rw [← isCommandName_inCharacters, Text.inCharacters_codes]

/-! ## Domains -/

/-- A domain as a document says it: a kind and values, which only an enumeration has. -/
structure Domain.Coded where
  kind : Domain.Kind
  values : List (List Nat)
  values_nil : kind ≠ .enum → values = []
  deriving DecidableEq

/-- The domain in characters. -/
def Domain.Coded.inCharacters (d : Domain.Coded) : Domain :=
  match d.kind with
  | .none => .none
  | .enum => .enum (d.values.map Text.inCharacters)
  | .path => .path

/-- A domain in code points. -/
def Domain.coded (d : Domain) : Domain.Coded where
  kind := d.kind
  values := d.values.map Text.codes
  values_nil := by cases d <;> simp [Domain.kind, Domain.values]

@[simp] theorem Domain.Coded.inCharacters_coded (d : Domain) : d.coded.inCharacters = d := by
  cases d with
  | none => rfl
  | path => rfl
  | enum values => simp [Domain.coded, Domain.Coded.inCharacters, Domain.kind, Domain.values]

/-! ## Options -/

/-- An option as a document says it. -/
structure OptionSpec.Coded where
  long : List Nat
  short : Option (List Nat)
  domain : Domain.Coded
  long_form : isCodedLong long = true
  short_form : ∀ s ∈ short, isCodedShort s = true
  deriving DecidableEq

/-- The option in characters. -/
def OptionSpec.Coded.inCharacters (o : OptionSpec.Coded) : OptionSpec where
  long := Text.inCharacters o.long
  short := o.short.map Text.inCharacters
  domain := o.domain.inCharacters
  long_form := (isLongForm_inCharacters o.long).trans o.long_form
  short_form := by
    intro s hs
    obtain ⟨codes, hcodes, rfl⟩ := Option.map_eq_some_iff.1 hs
    exact (isShortForm_inCharacters codes).trans (o.short_form codes hcodes)

/-- An option in code points. -/
def OptionSpec.coded (o : OptionSpec) : OptionSpec.Coded where
  long := Text.codes o.long
  short := o.short.map Text.codes
  domain := o.domain.coded
  long_form := (isCodedLong_codes o.long).trans o.long_form
  short_form := by
    intro codes hcodes
    obtain ⟨s, hs, rfl⟩ := Option.map_eq_some_iff.1 hcodes
    exact (isCodedShort_codes s).trans (o.short_form s hs)

@[simp] theorem OptionSpec.Coded.inCharacters_coded (o : OptionSpec) :
    o.coded.inCharacters = o := by
  obtain ⟨long, short, domain, _, _⟩ := o
  simp [OptionSpec.coded, OptionSpec.Coded.inCharacters]

/-! ## Grammars -/

/-- A command and its options as a document says them. -/
structure Grammar.Coded where
  command : List Nat
  options : List OptionSpec.Coded
  command_name : isCodedCommand command = true
  long_nodup : (options.map OptionSpec.Coded.long).Nodup
  short_nodup : (options.filterMap OptionSpec.Coded.short).Nodup
  deriving DecidableEq

namespace Grammar.Coded

/-- The first form that an earlier option already has. -/
def firstRepeated (command : List Nat) (longs shorts : List (List Nat)) :
    List OptionSpec.Coded → Option Validation.Rule
  | [] => none
  | o :: rest =>
    if longs.contains o.long then
      some (.repeatedLong (Text.inCharacters o.long) (Text.inCharacters command))
    else match o.short with
      | none => firstRepeated command (o.long :: longs) shorts rest
      | some s =>
        if shorts.contains s then
          some (.repeatedShort (Text.inCharacters s) (Text.inCharacters command))
        else firstRepeated command (o.long :: longs) (s :: shorts) rest

/-- The grammar of a command with those options, if no two of them share a form. -/
def ofParts (command : List Nat) (h : isCodedCommand command = true)
    (options : List OptionSpec.Coded) : Validation.Checked Grammar.Coded :=
  if h' : (options.map OptionSpec.Coded.long).Nodup ∧
      (options.filterMap OptionSpec.Coded.short).Nodup then
    .ok ⟨command, options, h, h'.1, h'.2⟩
  else
    match firstRepeated command [] [] options with
    | some rule => Validation.refuse (.broken rule)
    | none => .error []

/-- The grammar in characters, if its forms can be told apart there. -/
def inCharacters (g : Grammar.Coded) : Validation.Checked Grammar :=
  let options := g.options.map OptionSpec.Coded.inCharacters
  if h : (options.map OptionSpec.long).Nodup ∧ (options.filterMap OptionSpec.short).Nodup then
    .ok
      { command := Text.inCharacters g.command
        options
        command_name := (isCommandName_inCharacters g.command).trans g.command_name
        long_nodup := h.1
        short_nodup := h.2 }
  else Validation.refuse .notCharacters

end Grammar.Coded

/-- A grammar in code points. -/
def Grammar.coded (g : Grammar) : Grammar.Coded where
  command := Text.codes g.command
  options := g.options.map OptionSpec.coded
  command_name := (isCodedCommand_codes g.command).trans g.command_name
  long_nodup := by
    have hlong : (g.options.map OptionSpec.coded).map OptionSpec.Coded.long =
        (g.options.map OptionSpec.long).map Text.codes := by
      simp [OptionSpec.coded, Function.comp_def]
    rw [hlong]
    exact List.Pairwise.map Text.codes (fun _ _ hne heq => hne (Text.codes_injective heq))
      g.long_nodup
  short_nodup := by
    have hshort : (g.options.map OptionSpec.coded).filterMap OptionSpec.Coded.short =
        (g.options.filterMap OptionSpec.short).map Text.codes := by
      simp [OptionSpec.coded, List.filterMap_map, List.map_filterMap, Function.comp_def]
    rw [hshort]
    exact List.Pairwise.map Text.codes (fun _ _ hne heq => hne (Text.codes_injective heq))
      g.short_nodup

/-- A grammar of characters is had back from its code points. -/
@[simp] theorem Grammar.Coded.inCharacters_coded (g : Grammar) :
    g.coded.inCharacters = .ok g := by
  obtain ⟨command, options, hcommand, hlong, hshort⟩ := g
  have hoptions : (options.map OptionSpec.coded).map OptionSpec.Coded.inCharacters = options := by
    simp [Function.comp_def]
  simp [Grammar.coded, Grammar.Coded.inCharacters, hoptions, hlong, hshort]

theorem Grammar.coded_injective : Function.Injective Grammar.coded := by
  intro g g' h
  have hok := Grammar.Coded.inCharacters_coded g
  rw [h, Grammar.Coded.inCharacters_coded] at hok
  exact (Except.ok.inj hok).symm

end TabCompletion
