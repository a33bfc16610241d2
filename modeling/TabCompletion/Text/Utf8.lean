/-!
# UTF-8

Reading and writing texts as bytes. `decode` is strict: it refuses the text at the
first byte that rules it out, and says which bytes are at fault and why. A sequence
whose second byte is impossible covers its first byte alone, one that stops later
covers the bytes up to there, and one cut off by the end of the text covers all that is
left. `decodeLenient` puts the replacement character in the place of each such run of
bytes. `encode` writes the shortest form of every character.
-/

namespace TabCompletion.Text.Utf8

/-- Why bytes are not the form of a character. -/
inductive Reason where
  | startByte
  | continuationByte
  | endOfData
  deriving DecidableEq, Repr

/-- The bytes `start ≤ i < stop` of a text are no form of a character; `first` is the
byte at `start`. -/
structure DecodeError where
  start : Nat
  stop : Nat
  first : UInt8
  reason : Reason
  deriving DecidableEq, Repr

/-- The reason in words. -/
def Reason.message : Reason → String
  | .startByte => "invalid start byte"
  | .continuationByte => "invalid continuation byte"
  | .endOfData => "unexpected end of data"

/-- The error in words. -/
def DecodeError.message (e : DecodeError) : String :=
  if e.stop = e.start + 1 then
    let digits := [Nat.digitChar (e.first.toNat / 16), Nat.digitChar (e.first.toNat % 16)]
    "'utf-8' codec can't decode byte 0x" ++ String.ofList digits ++ " in position " ++
      toString e.start ++ ": " ++ e.reason.message
  else
    "'utf-8' codec can't decode bytes in position " ++ toString e.start ++ "-" ++
      toString (e.stop - 1) ++ ": " ++ e.reason.message

/-- What stands at the front of the bytes: a character whose form has `more` bytes after
the first, or `covered` bytes that are no form of a character. -/
inductive Front where
  | char (c : Char) (more : Nat)
  | bad (covered : Nat) (reason : Reason)
  deriving DecidableEq, Repr

/-- The byte continues a form. -/
def isTail (b : UInt8) : Bool := 0x80 ≤ b && b ≤ 0xBF

/-- The bytes that may follow the first byte `b` of a form of three bytes. -/
def secondOfThree (b second : UInt8) : Bool :=
  if b = 0xE0 then 0xA0 ≤ second && second ≤ 0xBF
  else if b = 0xED then 0x80 ≤ second && second ≤ 0x9F
  else isTail second

/-- The bytes that may follow the first byte `b` of a form of four bytes. -/
def secondOfFour (b second : UInt8) : Bool :=
  if b = 0xF0 then 0x90 ≤ second && second ≤ 0xBF
  else if b = 0xF4 then 0x80 ≤ second && second ≤ 0x8F
  else isTail second

/-- The six low bits of a continuing byte. -/
def low6 (b : UInt8) : Nat := b.toNat % 64

/-- The front of the bytes `b :: rest`. -/
def front (b : UInt8) (rest : List UInt8) : Front :=
  if b < 0x80 then .char (Char.ofNat b.toNat) 0
  else if b < 0xC2 || 0xF4 < b then .bad 1 .startByte
  else if b < 0xE0 then
    match rest with
    | [] => .bad 1 .endOfData
    | b₁ :: _ =>
      if isTail b₁ then .char (Char.ofNat (b.toNat % 32 * 64 + low6 b₁)) 1
      else .bad 1 .continuationByte
  else if b < 0xF0 then
    match rest with
    | [] => .bad 1 .endOfData
    | b₁ :: rest₁ =>
      if !secondOfThree b b₁ then .bad 1 .continuationByte
      else match rest₁ with
        | [] => .bad 2 .endOfData
        | b₂ :: _ =>
          if isTail b₂ then
            .char (Char.ofNat (b.toNat % 16 * 4096 + low6 b₁ * 64 + low6 b₂)) 2
          else .bad 2 .continuationByte
  else
    match rest with
    | [] => .bad 1 .endOfData
    | b₁ :: rest₁ =>
      if !secondOfFour b b₁ then .bad 1 .continuationByte
      else match rest₁ with
        | [] => .bad 2 .endOfData
        | b₂ :: rest₂ =>
          if !isTail b₂ then .bad 2 .continuationByte
          else match rest₂ with
            | [] => .bad 3 .endOfData
            | b₃ :: _ =>
              if isTail b₃ then
                .char (Char.ofNat
                  (b.toNat % 8 * 262144 + low6 b₁ * 4096 + low6 b₂ * 64 + low6 b₃)) 3
              else .bad 3 .continuationByte

/-- The characters of the bytes, the first of which stands at position `pos`; `done` holds
the characters before it, last first. -/
def decodeFrom (pos : Nat) (done : List Char) : List UInt8 → Except DecodeError (List Char)
  | [] => .ok done.reverse
  | b :: rest =>
    match front b rest with
    | .char c more => decodeFrom (pos + 1 + more) (c :: done) (rest.drop more)
    | .bad covered reason => .error ⟨pos, pos + covered, b, reason⟩
  termination_by bytes => bytes.length
  decreasing_by simp only [List.length_drop, List.length_cons]; omega

/-- The characters of the bytes. -/
def decode (bytes : List UInt8) : Except DecodeError (List Char) := decodeFrom 0 [] bytes

/-- The character that stands for bytes that are no form of a character. -/
def replacement : Char := '\uFFFD'

/-- The characters of the bytes, with the replacement character for every run of bytes that
is no form of a character; `done` holds the characters before them, last first. -/
def decodeLenientFrom (done : List Char) : List UInt8 → List Char
  | [] => done.reverse
  | b :: rest =>
    match front b rest with
    | .char c more => decodeLenientFrom (c :: done) (rest.drop more)
    | .bad covered _ => decodeLenientFrom (replacement :: done) (rest.drop (covered - 1))
  termination_by bytes => bytes.length
  decreasing_by all_goals (simp only [List.length_drop, List.length_cons]; omega)

/-- The characters of the bytes, none refused. -/
def decodeLenient (bytes : List UInt8) : List Char := decodeLenientFrom [] bytes

/-- A continuing byte with the six low bits of `n`. -/
def tail (n : Nat) : UInt8 := UInt8.ofNat (0x80 + n % 64)

/-- The form of a character. -/
def encodeChar (c : Char) : List UInt8 :=
  let n := c.toNat
  if n < 0x80 then [UInt8.ofNat n]
  else if n < 0x800 then [UInt8.ofNat (0xC0 + n / 64), tail n]
  else if n < 0x10000 then [UInt8.ofNat (0xE0 + n / 4096), tail (n / 64), tail n]
  else [UInt8.ofNat (0xF0 + n / 262144), tail (n / 4096), tail (n / 64), tail n]

/-- The bytes of a text. -/
def encode (s : String) : List UInt8 := s.toList.flatMap encodeChar

/-- How many bytes a text takes. -/
def byteCount (s : String) : Nat := (encode s).length

end TabCompletion.Text.Utf8
