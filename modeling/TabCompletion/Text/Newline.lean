/-!
# Line ends

Texts come with three spellings of a line end. `unifyNewlines` reads each of them as a
line feed; `splitLines` cuts a text at its line feeds.
-/

namespace TabCompletion.Text

/-- The text with every `CR LF` and every lone `CR` read as a line feed. -/
def unifyNewlines : List Char → List Char
  | [] => []
  | '\r' :: '\n' :: rest => '\n' :: unifyNewlines rest
  | '\r' :: rest => '\n' :: unifyNewlines rest
  | c :: rest => c :: unifyNewlines rest

/-- The pieces of a text between the occurrences of `sep`; one more than there are
occurrences. -/
def splitAt (sep : Char) : List Char → List (List Char)
  | [] => [[]]
  | c :: rest =>
    if c = sep then [] :: splitAt sep rest
    else match splitAt sep rest with
      | [] => [[c]]
      | piece :: pieces => (c :: piece) :: pieces

/-- The lines of a text. -/
def splitLines (s : String) : List String := (splitAt '\n' s.toList).map String.ofList

end TabCompletion.Text
