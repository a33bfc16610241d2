/-!
# Blank characters

The characters that separate words in running text: the ASCII blanks, the four
information separators, the next-line character and the Unicode space and line
separators. `strip` removes them from both ends and `blankSplit` cuts a text at
every run of them. Around a number the information separators do not count as blanks, and
`stripMargin` leaves them in place.
-/

namespace TabCompletion.Text

/-- The code point separates words. -/
def isBlankCode (n : Nat) : Bool :=
  (9 ≤ n && n ≤ 13) || (28 ≤ n && n ≤ 32) || n == 0x85 || n == 0xA0 || n == 0x1680 ||
    (0x2000 ≤ n && n ≤ 0x200A) || n == 0x2028 || n == 0x2029 || n == 0x202F || n == 0x205F ||
    n == 0x3000

/-- The character separates words. -/
def isBlank (c : Char) : Bool := isBlankCode c.toNat

/-- The text without the blanks at its start. -/
def stripStart (cs : List Char) : List Char := cs.dropWhile isBlank

/-- The text without the blanks at its end. -/
def stripEnd (cs : List Char) : List Char := (cs.reverse.dropWhile isBlank).reverse

/-- The text without the blanks at either end. -/
def strip (cs : List Char) : List Char := stripEnd (stripStart cs)

/-- A blank that may stand around a number: no information separator. -/
def isMargin (c : Char) : Bool := isBlank c && !(28 ≤ c.toNat && c.toNat ≤ 31)

/-- The text without the blanks around a number. -/
def stripMargin (cs : List Char) : List Char :=
  ((cs.dropWhile isMargin).reverse.dropWhile isMargin).reverse

/-- The text holds nothing but blanks. -/
def isBlankText (s : String) : Bool := s.toList.all isBlank

/-- The maximal runs of characters that are not blank; `word` is the run being read. -/
def blankSplitFrom (word : List Char) : List Char → List (List Char)
  | [] => if word.isEmpty then [] else [word]
  | c :: cs =>
    if isBlank c then
      if word.isEmpty then blankSplitFrom [] cs else word :: blankSplitFrom [] cs
    else blankSplitFrom (word ++ [c]) cs

/-- The words of a text, cut at every run of blanks. -/
def blankSplit (cs : List Char) : List (List Char) := blankSplitFrom [] cs

end TabCompletion.Text
