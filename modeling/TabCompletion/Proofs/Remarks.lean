import TabCompletion.Proofs.Markup
import TabCompletion.Proofs.Pieces
import TabCompletion.Report.Basic

/-!
# Remarks with and without colour

Without colour a remark is printed as it is. With colour it is a text with markup, and the message
stands in it unchanged, so what the message has in brackets may be read as a tag, and what it has
between colons as the code of a picture. `Reporter.SaysTheSame` is that both can be made and show
the same characters. They do for exactly the messages in which nothing is read as markup and no code
has a picture (`Reporter.saysTheSame_iff`). Blanks are not counted among the characters that are
shown, since lines are broken where the terminal ends and tabs become blanks.
-/

namespace TabCompletion

namespace Report

/-! ## What is shown -/

/-- The character leaves a mark where it is printed. -/
def leavesMark (c : Char) : Bool := !Text.isBlank c && !Markup.isControl c

/-- The characters of a text that are shown. -/
def marks (cs : List Char) : List Char := cs.filter leavesMark

theorem marks_append (cs cs' : List Char) : marks (cs ++ cs') = marks cs ++ marks cs' :=
  List.filter_append ..

theorem marks_stripControls (cs : List Char) : marks (Markup.stripControls cs) = marks cs := by
  rw [marks, Markup.stripControls, List.filter_filter]
  congr 1
  funext c
  rw [leavesMark]
  cases Markup.isControl c <;> simp

theorem marks_expandTabs (column : Nat) (cs : List Char) :
    marks (Text.expandTabs column cs) = marks cs := by
  fun_induction Text.expandTabs column cs with
  | case1 => rfl
  | case2 column cs ih =>
      have hblank : marks (List.replicate (8 - column % 8) ' ') = [] := by
        refine List.filter_eq_nil_iff.2 fun c hc => ?_
        rw [List.eq_of_mem_replicate hc]
        decide
      rw [marks_append, ih, hblank]
      rfl
  | case3 column c cs _ ih =>
      have hcons : ∀ cs, marks (c :: cs) = marks [c] ++ marks cs := fun cs => marks_append [c] cs
      rw [hcons, hcons cs, ih]

/-- What is printed of markup shows what is seen of it. -/
theorem marks_of_seen {renderer : Markup.Renderer} {markup text : String}
    (h : seen renderer markup = .ok text) :
    ∃ out, renderer.visible markup.toList = .ok out ∧ marks text.toList = marks out := by
  unfold seen at h
  cases hvisible : renderer.visible markup.toList with
  | error fault =>
      rw [hvisible] at h
      cases h
  | ok out =>
      rw [hvisible] at h
      cases h
      refine ⟨out, rfl, ?_⟩
      have hlines : marks (['\n'].intercalate ((Text.splitAt '\n' out).map (Text.expandTabs 0))) =
          marks (['\n'].intercalate (Text.splitAt '\n' out)) :=
        Text.filter_intercalate_map (marks_expandTabs 0) _
      rw [String.toList_ofList, hlines, Text.intercalate_splitAt]

/-! ## Messages -/

/-- What a remark without colour says before its message. -/
def Kind.label : Kind → String
  | .success => ""
  | .suggestion => "→ "
  | .warning => "Warning: "
  | .error => "Error: "
  | .debug => "[debug] "

/-- The markup before the message of a remark. -/
def Kind.opening : Kind → String
  | .success => "[green]"
  | .suggestion => "[dim]→ "
  | .warning => "[yellow]Warning:[/yellow] "
  | .error => "[bold red]Error:[/bold red] "
  | .debug => "[dim]\\[debug] "

/-- The markup behind the message of a remark. -/
def Kind.closing : Kind → String
  | .success => "[/green]"
  | .suggestion | .debug => "[/dim]"
  | .warning | .error => ""

theorem Kind.plain_eq (kind : Kind) (message : String) :
    kind.plain message = kind.label ++ message := by
  cases kind with
  | success => exact (String.empty_append).symm
  | _ => rfl

theorem Kind.markup_eq (kind : Kind) (message : String) :
    kind.markup message = kind.opening ++ message ++ kind.closing := by
  cases kind with
  | warning => exact (String.append_empty).symm
  | error => exact (String.append_empty).symm
  | _ => rfl

theorem Kind.toList_markup (kind : Kind) (message : String) :
    (kind.markup message).toList =
      kind.opening.toList ++ (message.toList ++ kind.closing.toList) := by
  rw [kind.markup_eq, String.toList_append, String.toList_append, List.append_assoc]

/-- The label of a remark as far as a tag stands behind it. -/
def Kind.head : Kind → String
  | .success | .suggestion => ""
  | .warning => "Warning:"
  | .error => "Error:"
  | .debug => "[debug]"

/-- The rest of the label, with which the message makes one plain text. -/
def Kind.lead : Kind → String
  | .success => ""
  | .suggestion => "→ "
  | .warning | .error | .debug => " "

theorem Kind.label_eq (kind : Kind) : kind.label = kind.head ++ kind.lead := by
  cases kind <;> decide

/-- Nothing in the message is read as markup where it stands in a remark. It is literal, and it does
not end in a backslash if a tag follows it. -/
structure Kind.IsLiteral (kind : Kind) (message : String) : Prop where
  literal : Markup.IsLiteral message.toList
  unslashed : kind.closing ≠ "" → message.toList.getLast? ≠ some '\\'

/-- No code in the message is shown as a picture. -/
def Kind.IsUnpictured (kind : Kind) (renderer : Markup.Renderer) (message : String) : Prop :=
  marks (renderer.picture (kind.lead ++ message).toList) = marks (kind.lead ++ message).toList

section

variable {kind : Kind} {message : String} {renderer : Markup.Renderer}

open Markup (tags escapes)

/-- Of the markup around a message, two brackets open tags, and all others are seen. A backslash of
it is not seen if it stands before a bracket. -/
theorem Kind.count_markup (kind : Kind) :
    kind.opening.toList.count '[' + kind.closing.toList.count '[' =
        kind.label.toList.count '[' + 2 ∧
      kind.opening.toList.count '\\' + kind.closing.toList.count '\\' =
        kind.label.toList.count '\\' + escapes kind.opening.toList ∧
      tags kind.opening.toList + tags kind.closing.toList =
        2 + escapes kind.opening.toList := by
  cases kind <;> decide

theorem Kind.tags_opening (kind : Kind) (cs : List Char) :
    tags (kind.opening.toList ++ cs) = tags kind.opening.toList + tags cs := by
  cases kind with
  | success => exact Nat.add_comm (tags cs) 1
  | suggestion => exact Nat.add_comm (tags cs) 1
  | warning => exact Nat.add_comm (tags cs) 2
  | error => exact Nat.add_comm (tags cs) 2
  | debug => exact Nat.add_comm (tags cs) 2

theorem Kind.escapes_opening (kind : Kind) (cs : List Char) :
    escapes (kind.opening.toList ++ cs) = escapes kind.opening.toList + escapes cs := by
  have hlast : kind.opening.toList.getLast? ≠ some '\\' := by cases kind <;> decide
  exact Markup.escapes_append fun h => absurd h hlast

theorem Kind.closing_cases (kind : Kind) :
    kind.closing = "" ∨ ∃ rest, kind.closing.toList = '[' :: rest := by
  cases kind with
  | success => exact .inr ⟨_, rfl⟩
  | suggestion => exact .inr ⟨_, rfl⟩
  | warning => exact .inl rfl
  | error => exact .inl rfl
  | debug => exact .inr ⟨_, rfl⟩

theorem Kind.tags_closing (kind : Kind) (cs : List Char) :
    tags (cs ++ kind.closing.toList) = tags cs + tags kind.closing.toList := by
  rcases kind.closing_cases with hnone | ⟨rest, hrest⟩
  · rw [hnone, String.toList_empty, List.append_nil]
    rfl
  · rw [hrest, Markup.tags_append_bracket]

/-- A message is literal if as many brackets and backslashes are seen with colour as are said
without it. -/
theorem Kind.isLiteral_of_count (hsound : renderer.IsSound) {out : List Char}
    (hvisible : renderer.visible (kind.markup message).toList = .ok out)
    (hbrackets : out.count '[' = (kind.plain message).toList.count '[')
    (hslashes : out.count '\\' = (kind.plain message).toList.count '\\') :
    kind.IsLiteral message := by
  rw [kind.toList_markup] at hvisible
  rw [kind.plain_eq, String.toList_append] at hbrackets hslashes
  obtain ⟨hbrackets', hslashes', htags'⟩ := kind.count_markup
  obtain ⟨hparts, hseen, hmarks⟩ := Markup.tally_pieces hsound
    (kind.opening.toList ++ (message.toList ++ kind.closing.toList))
  rw [← Markup.visiblePieces_eq_ok hvisible] at hparts hseen
  rw [kind.escapes_opening] at hseen hmarks
  rw [kind.tags_opening, kind.tags_closing] at hmarks
  simp only [List.count_append] at hparts hseen hbrackets hslashes
  -- the opening tag of a style and the closing one leave no room for a tag in the message
  have htags : tags message.toList = 0 := by omega
  have hescapes : escapes (message.toList ++ kind.closing.toList) = 0 := by omega
  rw [Markup.escapes_eq_zero_iff] at hescapes
  constructor
  case literal =>
    refine ⟨Markup.tags_eq_zero_iff.1 htags, fun hpart => hescapes ?_⟩
    exact hpart.trans (List.prefix_append _ _).isInfix
  case unslashed =>
    intro hclosing hlast
    -- the backslash at the end would stand before the tag that follows
    obtain ⟨first, hfirst⟩ := List.getLast?_eq_some_iff.1 hlast
    rcases kind.closing_cases with hnone | ⟨rest, hrest⟩
    · exact hclosing hnone
    · refine hescapes ⟨first, rest, ?_⟩
      rw [hfirst, hrest]
      simp

theorem Kind.opening_append (kind : Kind) (cs : List Char) :
    kind.opening.toList ++ cs =
      match kind with
      | .success => '[' :: ("green".toList ++ ']' :: cs)
      | .suggestion => '[' :: ("dim".toList ++ ']' :: ("→ ".toList ++ cs))
      | .warning => '[' :: ("yellow".toList ++ ']' :: ("Warning:".toList ++
          '[' :: ('/' :: "yellow".toList ++ ']' :: (" ".toList ++ cs))))
      | .error => '[' :: ("bold red".toList ++ ']' :: ("Error:".toList ++
          '[' :: ('/' :: "bold red".toList ++ ']' :: (" ".toList ++ cs))))
      | .debug => '[' :: ("dim".toList ++ ']' ::
          ('\\' :: '[' :: ("debug".toList ++ ']' :: (" ".toList ++ cs)))) := by
  cases kind <;> rfl

theorem Kind.closing_eq (kind : Kind) :
    kind.closing.toList =
      match kind with
      | .success => '[' :: ('/' :: "green".toList ++ [']'])
      | .suggestion | .debug => '[' :: ('/' :: "dim".toList ++ [']'])
      | .warning | .error => [] := by
  cases kind <;> rfl

/-- With colour, what is seen of a literal message is what is said without colour, but for its
pictures. -/
theorem Kind.visible_of_isLiteral (hsound : renderer.IsSound) (h : kind.IsLiteral message) :
    renderer.visible (kind.markup message).toList =
      .ok (renderer.shown kind.head.toList ++ renderer.shown (kind.lead ++ message).toList) := by
  obtain ⟨hliteral, hlast⟩ := h
  have hspace : Markup.IsLiteral (" ".toList ++ message.toList) :=
    hliteral.prepend (by decide) (by decide)
  rw [kind.toList_markup, String.toList_append, kind.opening_append, kind.closing_eq]
  -- the style covers the message in three kinds, and a head before it in the other two
  cases kind with
  | success =>
      have hstyle : Markup.IsStyle "green".toList := by decide
      have hvisible := Markup.visible_styled hsound hstyle hliteral (hlast (by decide))
      refine hvisible.trans (congrArg Except.ok ?_)
      exact (congrArg (· ++ _) hsound.shown_nil).symm
  | suggestion =>
      have harrow : Markup.IsLiteral ("→ ".toList ++ message.toList) :=
        hliteral.prepend (by decide) (by decide)
      have hlast' := Markup.getLast?_append_ne (by decide : "→ ".toList.getLast? ≠ some '\\')
        (hlast (by decide))
      dsimp only
      rw [← List.append_assoc]
      have hstyle : Markup.IsStyle "dim".toList := by decide
      have hvisible := Markup.visible_styled hsound hstyle harrow hlast'
      refine hvisible.trans (congrArg Except.ok ?_)
      exact (congrArg (· ++ _) hsound.shown_nil).symm
  | warning =>
      have hhead : Markup.IsLiteral "Warning:".toList := Markup.isLiteral_of_notMem (by decide)
      dsimp only
      rw [List.append_nil]
      exact Markup.visible_headed hsound (by decide) hhead (by decide) hspace
  | error =>
      have hhead : Markup.IsLiteral "Error:".toList := Markup.isLiteral_of_notMem (by decide)
      dsimp only
      rw [List.append_nil]
      exact Markup.visible_headed hsound (by decide) hhead (by decide) hspace
  | debug =>
      have hinside : Markup.IsInside "debug".toList := by decide
      have hlast' := Markup.getLast?_append_ne (by decide : " ".toList.getLast? ≠ some '\\')
        (hlast (by decide))
      dsimp only
      rw [← List.append_assoc]
      exact Markup.visible_styled_escaped hsound (by decide) hinside hspace hlast'

/-- With colour a literal message shows what it shows without colour exactly if no code in it is
shown as a picture. -/
theorem Kind.marks_visible_iff (hsound : renderer.IsSound) (h : kind.IsLiteral message)
    {out : List Char} (hvisible : renderer.visible (kind.markup message).toList = .ok out) :
    marks out = marks (kind.plain message).toList ↔ kind.IsUnpictured renderer message := by
  have hunescaped : ∀ {cs}, Markup.escapes cs = 0 →
      marks (renderer.shown cs) = marks (renderer.picture cs) := by
    intro cs hescapes
    rw [Markup.Renderer.shown, marks_stripControls, Markup.unescape_eq_self hescapes]
  have hhead : marks (renderer.shown kind.head.toList) = marks kind.head.toList := by
    rw [hunescaped (by cases kind <;> decide), hsound.between _ (by cases kind <;> decide)]
  have hlead : Markup.escapes (kind.lead ++ message).toList = 0 := by
    rw [String.toList_append]
    have hliteral : Markup.IsLiteral (kind.lead.toList ++ message.toList) :=
      h.literal.prepend (by cases kind <;> decide) (by cases kind <;> decide)
    exact (Markup.isLiteral_iff.1 hliteral).2
  have hplain : (kind.plain message).toList =
      kind.head.toList ++ (kind.lead ++ message).toList := by
    rw [kind.plain_eq, kind.label_eq, String.append_assoc, String.toList_append]
  rw [Kind.visible_of_isLiteral hsound h] at hvisible
  cases hvisible
  rw [hplain, marks_append, marks_append, hhead, hunescaped hlead, List.append_cancel_left_eq,
    Kind.IsUnpictured]

end

end Report

namespace Reporter

open Report

/-- Without colour the remark can be made, and with colour it can be made too and shows the same. -/
def SaysTheSame (r : Reporter) (kind : Kind) (message : String) : Prop :=
  ∃ plain coloured, { r with colorless := true }.remark kind message = .ok plain ∧
    { r with colorless := false }.remark kind message = .ok coloured ∧
      marks coloured.toList = marks plain.toList

variable {r : Reporter} {kind : Kind} {message : String}

theorem saysTheSame_of_not_wants (h : r.wants kind = false) : r.SaysTheSame kind message := by
  have hwants : ∀ colorless, { r with colorless }.wants kind = false := fun _ => h
  have hnothing : ∀ colorless, { r with colorless }.remark kind message = .ok "" := by
    intro colorless
    rw [remark, hwants]
    rfl
  exact ⟨"", "", hnothing true, hnothing false, rfl⟩

/-- A remark that is wanted says the same exactly if what is seen of its markup shows what is said
without colour. -/
theorem saysTheSame_iff_of_wants (h : r.wants kind = true) :
    r.SaysTheSame kind message ↔
      ∃ out, r.renderer.visible (kind.markup message).toList = .ok out ∧
        marks out = marks (kind.plain message).toList := by
  have hwants : ∀ colorless, { r with colorless }.wants kind = true := fun _ => h
  have hplain : { r with colorless := true }.remark kind message =
      .ok (kind.plain message ++ "\n") := by
    rw [remark, hwants]
    rfl
  have hcolour : { r with colorless := false }.remark kind message =
      (seen r.renderer (kind.markup message)).map (· ++ "\n") := by
    rw [remark, hwants]
    rfl
  -- the end of the line leaves no mark
  have hend : ∀ text : String, marks (text ++ "\n").toList = marks text.toList := by
    intro text
    rw [String.toList_append, marks_append]
    exact List.append_nil _
  unfold SaysTheSame
  rw [hplain, hcolour]
  cases hseen : seen r.renderer (kind.markup message) with
  | error fault =>
      refine iff_of_false (by rintro ⟨_, _, -, hnone, -⟩; cases hnone) ?_
      rintro ⟨out, hvisible, -⟩
      rw [seen, hvisible] at hseen
      cases hseen
  | ok text =>
      obtain ⟨out, hvisible, hmarks⟩ := marks_of_seen hseen
      rw [hvisible]
      constructor
      · rintro ⟨_, _, ⟨⟩, ⟨⟩, hsame⟩
        rw [hend, hend, hmarks] at hsame
        exact ⟨out, rfl, hsame⟩
      · rintro ⟨_, ⟨⟩, hsame⟩
        exact ⟨_, _, rfl, rfl, by rw [hend, hend, hmarks, hsame]⟩

/-- A remark says the same with colour as without it, exactly if nothing in its message is read as
markup and no code in it is shown as a picture, or the remark is not wanted. -/
theorem saysTheSame_iff (r : Reporter) (hsound : r.renderer.IsSound) (kind : Kind)
    (message : String) :
    r.SaysTheSame kind message ↔
      (r.wants kind = true → kind.IsLiteral message ∧ kind.IsUnpictured r.renderer message) := by
  cases hwants : r.wants kind with
  | false => exact iff_of_true (saysTheSame_of_not_wants hwants) nofun
  | true =>
      rw [saysTheSame_iff_of_wants hwants]
      constructor
      · rintro ⟨out, hvisible, hmarks⟩ -
        have hcount : ∀ c, leavesMark c = true →
            out.count c = (kind.plain message).toList.count c := by
          intro c hc
          have hkept := congrArg (List.count c) hmarks
          rwa [marks, marks, List.count_filter hc, List.count_filter hc] at hkept
        have hliteral := Kind.isLiteral_of_count hsound hvisible
          (hcount '[' (by decide)) (hcount '\\' (by decide))
        exact ⟨hliteral, (Kind.marks_visible_iff hsound hliteral hvisible).1 hmarks⟩
      · intro h
        obtain ⟨hliteral, hunpictured⟩ := h rfl
        have hvisible := Kind.visible_of_isLiteral hsound hliteral
        exact ⟨_, hvisible, (Kind.marks_visible_iff hsound hliteral hvisible).2 hunpictured⟩

/-- The report of a file that is not there says the same if no bracket is in its name. -/
theorem saysTheSame_noFile :
    ∃ r : Reporter, r.renderer.IsSound ∧ r.wants .error = true ∧
      r.SaysTheSame .error "Grammar file not found: draft/swap.yaml" := by
  have hsound : ({} : Markup.Renderer).IsSound := Markup.Renderer.isSound_of_picture_eq_id rfl
  let r : Reporter := { format := .plain, colorless := false }
  refine ⟨r, hsound, rfl, (saysTheSame_iff r hsound .error _).2 fun _ => ⟨⟨?_, nofun⟩, rfl⟩⟩
  exact Markup.isLiteral_of_notMem (by decide)

theorem not_saysTheSame {plain : String}
    (hplain : { r with colorless := true }.remark kind message = .ok plain)
    (hcolour : ({ r with colorless := false }.remark kind message).map (marks ∘ String.toList) ≠
      .ok (marks plain.toList)) : ¬ r.SaysTheSame kind message := by
  rintro ⟨plain', coloured, hplain', hcoloured, hmarks⟩
  rw [hplain] at hplain'
  cases hplain'
  rw [hcoloured] at hcolour
  exact hcolour (congrArg Except.ok hmarks)

/-- With colour, a name in brackets goes missing, a bracket with a slash is a fault, and a message
that ends in a backslash shows the tag behind it. -/
theorem not_saysTheSame_samples :
    ∃ r : Reporter,
      ({ r with colorless := true }.remark .error "Grammar file not found: [draft]/swap.yaml" =
          .ok "Error: Grammar file not found: [draft]/swap.yaml\n" ∧
        { r with colorless := false }.remark .error "Grammar file not found: [draft]/swap.yaml" =
          .ok "Error: Grammar file not found: /swap.yaml\n" ∧
        ¬ r.SaysTheSame .error "Grammar file not found: [draft]/swap.yaml") ∧
      ({ r with colorless := false }.remark .error "[/x]" = .error .badMarkup ∧
        ¬ r.SaysTheSame .error "[/x]") ∧
      { r with colorless := false }.remark .success "C:\\" = .ok "C:[/green]\n" ∧
        ¬ r.SaysTheSame .success "C:\\" := by
  refine ⟨{ format := .plain, colorless := false }, ⟨by decide, by decide, ?_⟩, ⟨by decide, ?_⟩,
    by decide, ?_⟩
  · exact not_saysTheSame rfl (by decide)
  · exact not_saysTheSame rfl (by decide)
  · exact not_saysTheSame rfl (by decide)

end Reporter

end TabCompletion
