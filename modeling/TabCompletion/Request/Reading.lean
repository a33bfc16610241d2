import TabCompletion.Request.Basic
import TabCompletion.Validation.Scalar

/-!
# Requests as documents

`Request.ofDocument` reads a request that is written out: its tokens with their marks, and
the cursor. `Request.ofValues` makes a request of words that may not be texts.
-/

namespace TabCompletion

open Validation

/-- A word and its mark. -/
def Token.read (d : Document) : Checked Token := do
  let entries ← readRecord d
  let (text, isCurrent) ← both (readField "text" readText none entries)
    (readField "is_current" readTruth (some false) entries)
  return ⟨text, isCurrent⟩

/-- The request of those tokens, if the cursor stands on a marked one. -/
def Request.ofTokens (tokens : List Token) (cursor : Int) : Checked Request :=
  if h : 0 ≤ cursor ∧ cursor.toNat < tokens.length then
    if h' : (tokens.get ⟨cursor.toNat, h.2⟩).isCurrent = true then
      .ok ⟨tokens, cursor.toNat, h.2, h'⟩
    else refuse (.broken .cursorMark)
  else refuse (.broken (.cursorRange cursor tokens.length))

/-- A request, or all issues of the document. -/
def Request.read (d : Document) : Checked Request := do
  let entries ← readRecord d
  let (tokens, cursor) ← both (readField "tokens" (readItems .notSequence Token.read) none entries)
    (readField "cursor_index" readInteger (some 0) entries)
  Request.ofTokens tokens cursor

/-- The request of a document. -/
def Request.ofDocument (d : Document) : Except Refusal Request :=
  (Request.read d).orRefuse "CompletionRequest"

/-- The words, if all of them are texts; the first that is none is refused. -/
def readWords (words : List Document) : Except Refusal (List String) :=
  words.mapM fun d => (within "text" (readText d)).orRefuse "Token"

/-- The request with those words and the cursor on the word at `cursor`. The empty words are put
behind them before any of them is looked at. -/
def Request.ofValues (room : Room) (words : List Document) (cursor : Int) :
    Except Fault Request :=
  match Request.refusal? room words.length cursor with
  | some fault => .error fault
  | none =>
    match readWords words with
    | .error refusal => .error (.refused refusal)
    | .ok words => .ok (Request.ofWords words cursor)

end TabCompletion
