import TabCompletion.Text.Blank

/-!
# The words of a command line

`split` cuts a command line into words by the rules of a shell: blanks, tabs and line ends
separate words, single quotes keep everything, double quotes keep everything but a
backslash before a double quote or a backslash, and outside quotes a backslash keeps the
next character. A line that ends inside quotes or behind a backslash has no split;
`splitOpen` then cuts it at its blanks. `quote` writes a word so that `split` reads it back.
-/

namespace TabCompletion.Shell.Words

/-- Where the splitter stands. -/
inductive Mode where
  /-- Between two words. -/
  | gap
  /-- In a word, outside quotes. -/
  | bare
  /-- In single quotes. -/
  | single
  /-- In double quotes. -/
  | double
  /-- Behind a backslash outside quotes. -/
  | bareEscape
  /-- Behind a backslash in double quotes. -/
  | doubleEscape
  deriving DecidableEq, Repr

/-- The character separates words. -/
def isSeparator (c : Char) : Bool := c = ' ' || c = '\t' || c = '\r' || c = '\n'

/-- The words of the rest of a line; `word` holds what is read of the current word. -/
def splitFrom : Mode → List Char → List Char → Option (List (List Char))
  | .gap, _, [] => some []
  | .bare, word, [] => some [word]
  | .single, _, [] | .double, _, [] | .bareEscape, _, [] | .doubleEscape, _, [] => none
  | .gap, word, c :: cs =>
    if isSeparator c then splitFrom .gap word cs
    else if c = '\\' then splitFrom .bareEscape [] cs
    else if c = '\x27' then splitFrom .single [] cs
    else if c = '\x22' then splitFrom .double [] cs
    else splitFrom .bare [c] cs
  | .bare, word, c :: cs =>
    if isSeparator c then (splitFrom .gap [] cs).map (word :: ·)
    else if c = '\\' then splitFrom .bareEscape word cs
    else if c = '\x27' then splitFrom .single word cs
    else if c = '\x22' then splitFrom .double word cs
    else splitFrom .bare (word ++ [c]) cs
  | .single, word, c :: cs =>
    if c = '\x27' then splitFrom .bare word cs else splitFrom .single (word ++ [c]) cs
  | .double, word, c :: cs =>
    if c = '\x22' then splitFrom .bare word cs
    else if c = '\\' then splitFrom .doubleEscape word cs
    else splitFrom .double (word ++ [c]) cs
  | .bareEscape, word, c :: cs => splitFrom .bare (word ++ [c]) cs
  | .doubleEscape, word, c :: cs =>
    if c = '\x22' || c = '\\' then splitFrom .double (word ++ [c]) cs
    else splitFrom .double (word ++ ['\\', c]) cs

/-- The words of a line, if every quote in it is closed. -/
def split (line : List Char) : Option (List (List Char)) := splitFrom .gap [] line

/-- The words of a line that may still be open. -/
def splitOpen (line : List Char) : List (List Char) :=
  (split line).getD (Text.blankSplit line)

/-- The words of a line of text. -/
def ofLine (line : String) : List String := (splitOpen line.toList).map String.ofList

/-- The character needs no quotes. -/
def isPlain (c : Char) : Bool :=
  c.isAlphanum || c = '_' || c = '@' || c = '%' || c = '+' || c = '=' || c = ':' || c = ',' ||
    c = '.' || c = '/' || c = '-'

/-- A character inside single quotes; a single quote closes them, stands between double quotes,
and opens them again. -/
def quoteChar (c : Char) : List Char :=
  if c = '\x27' then ['\x27', '\x22', '\x27', '\x22', '\x27'] else [c]

/-- A word as the splitter reads it back. -/
def quote (word : List Char) : List Char :=
  if word.isEmpty then ['\x27', '\x27']
  else if word.all isPlain then word
  else '\x27' :: word.flatMap quoteChar ++ ['\x27']

end TabCompletion.Shell.Words
