import TabCompletion.Text.Printable

/-!
# Quoted literals

How a text is shown inside a message: between single quotes, or between double
quotes when it holds a single quote and no double quote. The enclosing quote, the
backslash and every unprintable character are escaped, the latter by the shortest of
`\xNN`, `\uNNNN` and `\UNNNNNNNN` that fits, in lower-case hexadecimal.
-/

namespace TabCompletion.Text

/-- The `width` lowest hexadecimal digits of `n`, in lower case. -/
def hexDigits (width n : Nat) : List Char :=
  (List.range width).reverse.map fun i => Nat.digitChar (n / Nat.pow 16 i % 16)

/-- One character inside a literal enclosed by `quote`. -/
def escapeIn (quote c : Char) : List Char :=
  if c = quote || c = '\\' then ['\\', c]
  else if c = '\n' then ['\\', 'n']
  else if c = '\r' then ['\\', 'r']
  else if c = '\t' then ['\\', 't']
  else if isPrintable c then [c]
  else if c.toNat < 0x100 then ['\\', 'x'] ++ hexDigits 2 c.toNat
  else if c.toNat < 0x10000 then ['\\', 'u'] ++ hexDigits 4 c.toNat
  else ['\\', 'U'] ++ hexDigits 8 c.toNat

/-- The quote that encloses the literal of a text. -/
def literalQuote (cs : List Char) : Char :=
  if cs.contains '\x27' && !cs.contains '\x22' then '\x22' else '\x27'

/-- The literal of a text. -/
def quoted (s : String) : String :=
  let q := literalQuote s.toList
  String.ofList (q :: s.toList.flatMap (escapeIn q) ++ [q])

/-- One code point inside a literal enclosed by `quote`. One that is no character is escaped. -/
def escapeCode (quote : Char) (n : Nat) : List Char :=
  if n.isValidChar then escapeIn quote (Char.ofNat n) else ['\\', 'u'] ++ hexDigits 4 n

/-- The literal of a text given by its code points. -/
def quotedCodes (codes : List Nat) : String :=
  let q := literalQuote (codes.map Char.ofNat)
  String.ofList (q :: codes.flatMap (escapeCode q) ++ [q])

end TabCompletion.Text
