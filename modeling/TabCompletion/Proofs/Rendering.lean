import TabCompletion.Candidates
import TabCompletion.Proofs.JsonDocument
import TabCompletion.Proofs.Pieces
import TabCompletion.Proofs.Words

/-!
# Candidates as text

What becomes of candidates that are written in one of the styles. As JSON and as an assignment for
bash nothing of them is lost: they are read back from the document, or from the words between the
parentheses (`readsBack_render`). Written one to a line, they are read back from the lines unless
one of them holds a line end, or there is only one and it is empty (`readsByLine_iff`).
-/

namespace TabCompletion.Candidates

open Shell.Words

/-! ## JSON -/

theorem isPlain_toDocument (candidates : List String) : Json.IsPlain (toDocument candidates) := by
  refine Json.isPlain_record (List.nodup_singleton _) ?_
  exact List.forall_mem_singleton.2 (Json.isPlain_texts candidates)

theorem read_render_json (candidates : List String) :
    Json.read (render .json candidates) = .ok (toDocument candidates) := by
  have hend : ∀ c ∈ ([] : List Char), Json.isSpace c = true := nofun
  have hread := Json.readChars_form (isPlain_toDocument candidates) .line hend
  rw [List.append_nil] at hread
  rwa [render, Json.read, Json.write, String.toList_ofList]

theorem isAscii_render_json (candidates : List String) :
    ∀ c ∈ (render .json candidates).toList, c.toNat < 128 := by
  intro c hc
  rw [render, Json.write, String.toList_ofList] at hc
  rcases (isPlain_toDocument candidates).isWritten .line c hc with rfl | ⟨-, hhigh⟩
  · decide
  · exact Nat.lt_succ_of_lt hhigh

/-! ## An assignment for bash -/

/-- The words of an assignment are the candidates in their quoted forms. -/
theorem quotes_quotedWords {candidates : List String} (hne : candidates ≠ []) :
    Quotes candidates (quotedWords candidates) := by
  induction candidates with
  | nil => exact absurd rfl hne
  | cons c rest ih =>
      cases rest with
      | nil =>
          rw [quotedWords, List.map_singleton, List.intercalate_singleton]
          exact .last c
      | cons next rest =>
          have hrest := ih (List.cons_ne_nil _ _)
          rw [quotedWords, List.map_cons, List.map_cons, List.intercalate_cons_cons,
            List.append_assoc]
          -- the blank between two words is a gap
          exact .cons c (by decide) (List.cons_ne_nil _ _) hrest

theorem split_quotedWords {candidates : List String} (hne : candidates ≠ []) :
    split (quotedWords candidates) = some (candidates.map String.toList) := by
  have hgap : IsGap [] := nofun
  have hsplit := (quotes_quotedWords hne).split hgap hgap
  rwa [List.nil_append, List.append_nil] at hsplit

theorem ofLine_quotedWords {candidates : List String} (hne : candidates ≠ []) :
    ofLine (String.ofList (quotedWords candidates)) = candidates := by
  rw [ofLine, String.toList_ofList, splitOpen, split_quotedWords hne, Option.getD_some,
    List.map_map]
  simp

theorem render_bash {candidates : List String} (hne : candidates ≠ []) :
    render .bash candidates =
      "COMPREPLY=( " ++ String.ofList (quotedWords candidates) ++ " )" := by
  have hempty : candidates.isEmpty = false := by simpa using hne
  simp only [render, hempty, Bool.false_eq_true, if_false, String.ofList_append,
    String.ofList_toList]

/-- Candidates are read back from the two styles that are made for programs. As JSON they are ASCII
text, which is read as their document. As an assignment they stand between parentheses as closed
words, and the splitter finds these. -/
theorem readsBack_render (candidates : List String) :
    (∀ c ∈ (render .json candidates).toList, c.toNat < 128) ∧
      Json.read (render .json candidates) =
        .ok (.map [(.text "candidates", .list (candidates.map .text))]) ∧
      render .bash [] = "COMPREPLY=()" ∧
      (candidates ≠ [] → ∃ words : String,
        render .bash candidates = "COMPREPLY=( " ++ words ++ " )" ∧
          split words.toList = some (candidates.map String.toList) ∧
          ofLine words = candidates) := by
  refine ⟨isAscii_render_json candidates, read_render_json candidates, rfl, fun hne => ?_⟩
  refine ⟨_, render_bash hne, ?_, ofLine_quotedWords hne⟩
  rw [String.toList_ofList]
  exact split_quotedWords hne

/-- An empty candidate, one with a quote, a backslash and a line end in it, and one beyond the
basic plane. -/
def hardCandidates : List String := ["", "it's\\\n", "é😀"]

theorem readsBack_render_hardCandidates :
    'u' ∈ (render .json hardCandidates).toList ∧ 'u'.toNat < 128 ∧ hardCandidates ≠ [] ∧
      Json.read (render .json hardCandidates) =
        .ok (.map [(.text "candidates", .list [.text "", .text "it's\\\n", .text "é😀"])]) ∧
      ∃ words : String, render .bash hardCandidates = "COMPREPLY=( " ++ words ++ " )" ∧
        ofLine words = hardCandidates := by
  obtain ⟨hascii, hjson, -, hbash⟩ := readsBack_render hardCandidates
  have hescape : 'u' ∈ (render .json hardCandidates).toList := by decide
  have hne : hardCandidates ≠ [] := List.cons_ne_nil _ _
  obtain ⟨words, hwords, -, hline⟩ := hbash hne
  exact ⟨hescape, hascii _ hescape, hne, hjson, words, hwords, hline⟩

/-! ## Lines -/

/-- The candidates are read back from their lines: nothing is written exactly if there are none,
and otherwise the lines are the candidates. -/
structure ReadsByLine (candidates : List String) : Prop where
  render_eq_empty_iff : render .lines candidates = "" ↔ candidates = []
  splitLines_eq : candidates ≠ [] → Text.splitLines (render .lines candidates) = candidates

theorem toList_render_lines (candidates : List String) :
    (render .lines candidates).toList = ['\n'].intercalate (candidates.map String.toList) := by
  rw [render, String.toList_intercalate]
  rfl

/-- Nothing is written for an empty candidate that is the only one, as if there were none. -/
theorem render_lines_eq_empty_iff {candidates : List String} :
    render .lines candidates = "" ↔ candidates = [] ∨ candidates = [""] := by
  rw [← String.toList_eq_nil_iff, toList_render_lines]
  cases candidates with
  | nil => simp
  | cons c rest =>
      cases rest with
      | nil => simp
      | cons next rest => simp [List.intercalate_cons_cons]

theorem splitLines_render_lines_iff {candidates : List String} :
    Text.splitLines (render .lines candidates) = candidates ↔
      candidates ≠ [] ∧ ∀ c ∈ candidates, '\n' ∉ c.toList := by
  rw [Text.splitLines_eq_iff, toList_render_lines, Text.splitAt_intercalate_eq_iff]
  simp

/-- A candidate that holds a line end takes more than one line, and one that is empty takes none if
it is the only one. All other candidates are read back. -/
theorem readsByLine_iff {candidates : List String} :
    ReadsByLine candidates ↔ candidates ≠ [""] ∧ ∀ c ∈ candidates, '\n' ∉ c.toList := by
  constructor
  · intro h
    refine ⟨?_, ?_⟩
    · rintro rfl
      exact absurd (h.render_eq_empty_iff.1 rfl) (List.cons_ne_nil _ _)
    · intro c hc
      have hne := List.ne_nil_of_mem hc
      exact (splitLines_render_lines_iff.1 (h.splitLines_eq hne)).2 c hc
  · rintro ⟨hblank, hclosed⟩
    refine ⟨?_, fun hne => splitLines_render_lines_iff.2 ⟨hne, hclosed⟩⟩
    rw [render_lines_eq_empty_iff]
    exact or_iff_left hblank

end TabCompletion.Candidates
