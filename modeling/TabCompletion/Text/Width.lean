import TabCompletion.Text.Blank

/-!
# Columns

On a terminal most characters take one column. The ideographs, the syllables and the
pictures of the East take two, combining marks and control characters none. `wrap` cuts a
line into lines of at most so many columns, between two words where that is possible; `fit`
makes a text take exactly so many.
-/

namespace TabCompletion.Text

/-- Ranges of code points whose characters take two columns. -/
def wideRanges : List (Nat × Nat) :=
  [(0x1100, 0x115F), (0x231A, 0x231B), (0x2329, 0x232A), (0x23E9, 0x23EC), (0x23F0, 0x23F0),
   (0x23F3, 0x23F3), (0x25FD, 0x25FE), (0x2614, 0x2615), (0x2648, 0x2653), (0x267F, 0x267F),
   (0x2693, 0x2693), (0x26A1, 0x26A1), (0x26AA, 0x26AB), (0x26BD, 0x26BE), (0x26C4, 0x26C5),
   (0x26CE, 0x26CE), (0x26D4, 0x26D4), (0x26EA, 0x26EA), (0x26F2, 0x26F3), (0x26F5, 0x26F5),
   (0x26FA, 0x26FA), (0x26FD, 0x26FD), (0x2705, 0x2705), (0x270A, 0x270B), (0x2728, 0x2728),
   (0x274C, 0x274C), (0x274E, 0x274E), (0x2753, 0x2755), (0x2757, 0x2757), (0x2795, 0x2797),
   (0x27B0, 0x27B0), (0x27BF, 0x27BF), (0x2B1B, 0x2B1C), (0x2B50, 0x2B50), (0x2B55, 0x2B55),
   (0x2E80, 0x2E99), (0x2E9B, 0x2EF3), (0x2F00, 0x2FD5), (0x2FF0, 0x2FFB), (0x3000, 0x3029),
   (0x302E, 0x303E), (0x3041, 0x3096), (0x309B, 0x30FF), (0x3105, 0x312F), (0x3131, 0x318E),
   (0x3190, 0x31E3), (0x31F0, 0x321E), (0x3220, 0x3247), (0x3250, 0x4DBF), (0x4E00, 0xA48C),
   (0xA490, 0xA4C6), (0xA960, 0xA97C), (0xAC00, 0xD7A3), (0xF900, 0xFAFF), (0xFE10, 0xFE19),
   (0xFE30, 0xFE52), (0xFE54, 0xFE66), (0xFE68, 0xFE6B), (0xFF01, 0xFF60), (0xFFE0, 0xFFE6),
   (0x16FE0, 0x16FE3), (0x16FF0, 0x16FF1), (0x17000, 0x187F7), (0x18800, 0x18CD5),
   (0x18D00, 0x18D08), (0x1B000, 0x1B2FB), (0x1F004, 0x1F004), (0x1F0CF, 0x1F0CF),
   (0x1F18E, 0x1F18E), (0x1F191, 0x1F19A), (0x1F200, 0x1F202), (0x1F210, 0x1F23B),
   (0x1F240, 0x1F248), (0x1F250, 0x1F251), (0x1F260, 0x1F265), (0x1F300, 0x1F320),
   (0x1F32D, 0x1F335), (0x1F337, 0x1F37C), (0x1F37E, 0x1F393), (0x1F3A0, 0x1F3CA),
   (0x1F3CF, 0x1F3D3), (0x1F3E0, 0x1F3F0), (0x1F3F4, 0x1F3F4), (0x1F3F8, 0x1F3FA),
   (0x1F400, 0x1F43E), (0x1F440, 0x1F440), (0x1F442, 0x1F4FC), (0x1F4FF, 0x1F53D),
   (0x1F54B, 0x1F54E), (0x1F550, 0x1F567), (0x1F57A, 0x1F57A), (0x1F595, 0x1F596),
   (0x1F5A4, 0x1F5A4), (0x1F5FB, 0x1F64F), (0x1F680, 0x1F6C5), (0x1F6CC, 0x1F6CC),
   (0x1F6D0, 0x1F6D2), (0x1F6D5, 0x1F6D7), (0x1F6DC, 0x1F6DF), (0x1F6EB, 0x1F6EC),
   (0x1F6F4, 0x1F6FC), (0x1F7E0, 0x1F7EB), (0x1F7F0, 0x1F7F0), (0x1F90C, 0x1F93A),
   (0x1F93C, 0x1F945), (0x1F947, 0x1F9FF), (0x1FA70, 0x1FAFF), (0x20000, 0x2FFFD),
   (0x30000, 0x3FFFD)]

/-- Ranges of code points whose characters take no column. -/
def zeroRanges : List (Nat × Nat) :=
  [(0, 0x1F), (0x7F, 0x9F), (0x300, 0x36F), (0x483, 0x489), (0x591, 0x5BD), (0x5BF, 0x5BF),
   (0x5C1, 0x5C2), (0x5C4, 0x5C5), (0x5C7, 0x5C7), (0x610, 0x61A), (0x64B, 0x65F),
   (0x670, 0x670), (0x6D6, 0x6DC), (0x6DF, 0x6E4), (0x6E7, 0x6E8), (0x6EA, 0x6ED),
   (0x711, 0x711), (0x730, 0x74A), (0x900, 0x902), (0x93A, 0x93A), (0x93C, 0x93C),
   (0x941, 0x948), (0x94D, 0x94D), (0xE31, 0xE31), (0xE34, 0xE3A), (0xE47, 0xE4E),
   (0x1AB0, 0x1ACE), (0x1DC0, 0x1DFF), (0x200B, 0x200F), (0x2028, 0x202E), (0x2060, 0x2063),
   (0x20D0, 0x20F0), (0x302A, 0x302D), (0x3099, 0x309A), (0xFE00, 0xFE0F), (0xFE20, 0xFE2F),
   (0xE0100, 0xE01EF)]

/-- The character lies in one of the ranges. -/
def inRanges (ranges : List (Nat × Nat)) (c : Char) : Bool :=
  ranges.any fun r => r.1 ≤ c.toNat && c.toNat ≤ r.2

/-- The columns of a character. -/
def columnsOf (c : Char) : Nat :=
  if inRanges zeroRanges c then 0 else if inRanges wideRanges c then 2 else 1

/-- The columns of a text. -/
def columns (cs : List Char) : Nat := (cs.map columnsOf).foldr (· + ·) 0

/-- The words of a line, each with the blanks behind it, the first also with those before it. -/
def spacedWords (cs : List Char) : List (List Char) :=
  go cs.length (cs.takeWhile isBlank) (cs.dropWhile isBlank)
where
  /-- The words of `cs`, the first behind `lead`. -/
  go : Nat → List Char → List Char → List (List Char)
    | 0, _, _ => []
    | fuel + 1, lead, cs =>
      let word := cs.takeWhile fun c => !isBlank c
      let rest := cs.drop word.length
      let gap := rest.takeWhile isBlank
      if word.isEmpty then [] else (lead ++ word ++ gap) :: go fuel [] (rest.drop gap.length)

/-- The pieces of a word, each as long as fits into `width` columns. -/
def chop (width : Nat) (piece : List Char) : List Char → List (List Char)
  | [] => [piece]
  | c :: cs =>
    if width < columns piece + columnsOf c then piece :: chop width [c] cs
    else chop width (piece ++ [c]) cs

/-- The lines of words, the first of which continues `line`. A word goes to a new line if it
does not fit; one that fits on no line is cut if `cut` says so. -/
def fill (cut : Bool) (width : Nat) (line : List Char) : List (List Char) → List (List Char)
  | [] => [line]
  | word :: rest =>
    let size := columns (stripEnd word)
    let done := if line.isEmpty then [] else [line]
    if columns line + size ≤ width then fill cut width (line ++ word) rest
    else if width < size && cut then
      let pieces := chop width [] word
      done ++ pieces.dropLast ++ fill cut width (pieces.getLast?.getD []) rest
    else done ++ fill cut width word rest

/-- The text without as many of the blanks at its end as make it longer than `width`. -/
def dropExcess (width : Nat) (cs : List Char) : List Char :=
  cs.take (cs.length - min (cs.length - width) (cs.length - (stripEnd cs).length))

/-- The lines of a line that is wrapped at `width` columns. -/
def wrap (cut : Bool) (width : Nat) (cs : List Char) : List (List Char) :=
  let words := spacedWords cs
  (if words.isEmpty then [cs] else fill cut width [] words).map (dropExcess width)

/-- As much of the start of the text as fits into `width` columns. -/
def takeColumns (width : Nat) : List Char → List Char
  | [] => []
  | c :: cs => if width < columnsOf c then [] else c :: takeColumns (width - columnsOf c) cs

/-- The text with blanks behind it up to `width` columns. -/
def padTo (width : Nat) (cs : List Char) : List Char :=
  cs ++ List.replicate (width - columns cs) ' '

/-- The text in exactly `width` columns; what is too long ends in an ellipsis. -/
def fit (width : Nat) (cs : List Char) : List Char :=
  if width < columns cs then padTo (width - 1) (takeColumns (width - 1) cs) ++ ['…']
  else padTo width cs

/-- The text with each tab replaced by the blanks up to the next column of a multiple of
eight; `column` is the one reached. -/
def expandTabs (column : Nat) : List Char → List Char
  | [] => []
  | '\t' :: cs =>
    List.replicate (8 - column % 8) ' ' ++ expandTabs (column + (8 - column % 8)) cs
  | c :: cs => c :: expandTabs (column + columnsOf c) cs

end TabCompletion.Text
