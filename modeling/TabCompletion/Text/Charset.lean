import TabCompletion.Text.Blank
import TabCompletion.Text.Newline
import TabCompletion.Text.Utf8

/-!
# Character sets

The body of a network answer is bytes; its content type may name the character set they
are in. `Charset.parameter?` finds that name, and `Charset.decode` reads bytes in a
character set without refusing any: what has no meaning becomes the replacement
character. Only some sets are here; what comes of others is left to the network library.
-/

namespace TabCompletion.Text

/-- The character sets that can be read. -/
inductive Charset where
  | utf8
  | utf8Marked
  | latin1
  | ascii
  | windows1252
  | utf16
  | utf16le
  | utf16be
  deriving DecidableEq, Repr

namespace Charset

/-- The ASCII letters of a text in lower case. -/
def lowerAscii (cs : List Char) : List Char := cs.map Char.toLower

/-- Character sets by name. -/
def names : List (String × Charset) :=
  [("utf-8", .utf8), ("utf8", .utf8), ("u8", .utf8), ("utf", .utf8), ("cp65001", .utf8),
   ("utf-8-sig", .utf8Marked),
   ("latin-1", .latin1), ("latin1", .latin1), ("latin", .latin1), ("l1", .latin1),
   ("iso-8859-1", .latin1), ("iso8859-1", .latin1), ("8859", .latin1), ("cp819", .latin1),
   ("ascii", .ascii), ("us-ascii", .ascii), ("646", .ascii),
   ("windows-1252", .windows1252), ("cp1252", .windows1252), ("1252", .windows1252),
   ("utf-16", .utf16), ("utf16", .utf16), ("u16", .utf16),
   ("utf-16-le", .utf16le), ("utf-16le", .utf16le),
   ("utf-16-be", .utf16be), ("utf-16be", .utf16be)]

/-- The character set of that name; case, and `_` in the place of `-`, make no difference. -/
def ofName? (name : String) : Option Charset :=
  let key := (lowerAscii name.toList).map fun c => if c = '_' || c = ' ' then '-' else c
  names.lookup (String.ofList key)

/-- The value of a parameter without the double quotes around it. -/
def unquote (cs : List Char) : List Char :=
  match cs with
  | '\x22' :: rest => rest.takeWhile (· != '\x22')
  | _ => cs

/-- The value of the parameter `charset` in a content type. -/
def parameter? (contentType : String) : Option String :=
  (splitAt ';' contentType.toList).tail.findSome? fun piece =>
    let (name, value) := (piece.takeWhile (· != '='), (piece.dropWhile (· != '=')).tail)
    if lowerAscii (strip name) = "charset".toList then
      some (String.ofList (unquote (strip value)))
    else none

/-- Code points of the bytes 80 to 9F in the set `windows1252`; zero where there is none. -/
def windows1252Upper : List Nat :=
  [0x20AC, 0, 0x201A, 0x0192, 0x201E, 0x2026, 0x2020, 0x2021, 0x02C6, 0x2030, 0x0160, 0x2039,
   0x0152, 0, 0x017D, 0, 0, 0x2018, 0x2019, 0x201C, 0x201D, 0x2022, 0x2013, 0x2014, 0x02DC,
   0x2122, 0x0161, 0x203A, 0x0153, 0, 0x017E, 0x0178]

/-- The character of a byte in the set `windows1252`. -/
def windows1252Char (b : UInt8) : Char :=
  if 0x80 ≤ b && b < 0xA0 then
    match windows1252Upper[b.toNat - 0x80]? with
    | some 0 | none => Utf8.replacement
    | some n => Char.ofNat n
  else Char.ofNat b.toNat

/-- The 16-bit units of the bytes, and whether one byte is left over. -/
def units (bigEndian : Bool) : List UInt8 → List Nat × Bool
  | [] => ([], false)
  | [_] => ([], true)
  | a :: b :: rest =>
    let (more, odd) := units bigEndian rest
    ((if bigEndian then a.toNat * 256 + b.toNat else b.toNat * 256 + a.toNat) :: more, odd)

/-- The characters of 16-bit units; a surrogate without its partner is replaced. -/
def ofUnits : List Nat → List Char
  | [] => []
  | [u] => [if 0xD800 ≤ u && u < 0xE000 then Utf8.replacement else Char.ofNat u]
  | u :: v :: rest =>
    if 0xD800 ≤ u && u < 0xDC00 then
      if 0xDC00 ≤ v && v < 0xE000 then
        Char.ofNat (0x10000 + (u - 0xD800) * 1024 + (v - 0xDC00)) :: ofUnits rest
      else Utf8.replacement :: ofUnits (v :: rest)
    else if 0xDC00 ≤ u && u < 0xE000 then Utf8.replacement :: ofUnits (v :: rest)
    else Char.ofNat u :: ofUnits (v :: rest)

/-- The characters of the bytes of 16-bit units. -/
def decodeUnits (bigEndian : Bool) (bytes : List UInt8) : List Char :=
  let (us, odd) := units bigEndian bytes
  ofUnits us ++ if odd then [Utf8.replacement] else []

/-- The characters of the bytes in a character set. -/
def decode (set : Charset) (bytes : List UInt8) : List Char :=
  match set with
  | .utf8 => Utf8.decodeLenient bytes
  | .utf8Marked =>
    match bytes with
    | 0xEF :: 0xBB :: 0xBF :: rest => Utf8.decodeLenient rest
    | _ => Utf8.decodeLenient bytes
  | .latin1 => bytes.map fun b => Char.ofNat b.toNat
  | .ascii => bytes.map fun b => if b < 0x80 then Char.ofNat b.toNat else Utf8.replacement
  | .windows1252 => bytes.map windows1252Char
  | .utf16 =>
    match bytes with
    | 0xFF :: 0xFE :: rest => decodeUnits false rest
    | 0xFE :: 0xFF :: rest => decodeUnits true rest
    | _ => decodeUnits false bytes
  | .utf16le => decodeUnits false bytes
  | .utf16be => decodeUnits true bytes

end Charset

end TabCompletion.Text
