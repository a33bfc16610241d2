/-!
# Binary floating-point numbers of 64 bits

A finite number is `± mantissa · 2 ^ exponent` with a mantissa below `2 ^ 53`. All results
are computed exactly on natural numbers and rounded once, to the nearest number, a tie to
the even mantissa.
-/

namespace TabCompletion.Number

/-- A number of 64 bits. The mantissa of a finite number has 53 bits unless the exponent is
the least one, -1074. -/
inductive Binary64 where
  | finite (negative : Bool) (mantissa : Nat) (exponent : Int)
  | infinite (negative : Bool)
  | nan
  deriving DecidableEq, Repr

/-- The integer nearest to `num / den`; a tie goes to the even one. -/
def roundQuotient (num den : Nat) : Nat :=
  let q := num / den
  let r := num % den
  if 2 * r < den then q
  else if den < 2 * r then q + 1
  else if q % 2 = 0 then q else q + 1

/-- `num / den` divided by `2 ^ e`, again as a numerator and a denominator. -/
def scaleDown (num den : Nat) (e : Int) : Nat × Nat :=
  match e with
  | .ofNat k => (num, den * Nat.pow 2 k)
  | .negSucc k => (num * Nat.pow 2 (k + 1), den)

namespace Binary64

/-- Zero of either sign. -/
def zero (negative : Bool) : Binary64 := .finite negative 0 (-1074)

/-- The number with that mantissa and exponent; too large a one is infinite. -/
def pack (negative : Bool) (mantissa : Nat) (exponent : Int) : Binary64 :=
  let (m, e) := if mantissa = Nat.pow 2 53 then (Nat.pow 2 52, exponent + 1) else (mantissa, exponent)
  if 971 < e then .infinite negative else .finite negative m e

/-- The number nearest to `± num / den`. -/
def ofRatio (negative : Bool) (num den : Nat) : Binary64 :=
  if num = 0 || den = 0 then zero negative
  else
    let e₀ : Int := (num.log2 : Int) - (den.log2 : Int) - 52
    let (n₀, d₀) := scaleDown num den e₀
    let e : Int := max (if n₀ < d₀ * Nat.pow 2 52 then e₀ - 1 else e₀) (-1074)
    let (n, d) := scaleDown num den e
    pack negative (roundQuotient n d) e

/-- The number nearest to `± m · 2 ^ e`. -/
def ofDyadic (negative : Bool) (m : Nat) (e : Int) : Binary64 :=
  match e with
  | .ofNat k => ofRatio negative (m * Nat.pow 2 k) 1
  | .negSucc k => ofRatio negative m (Nat.pow 2 (k + 1))

/-- The number nearest to `± digits · 10 ^ e`. Powers far outside the range are not computed. -/
def ofDecimal (negative : Bool) (digits : Nat) (e : Int) : Binary64 :=
  if digits = 0 then zero negative
  else if 400 < e then .infinite negative
  else if e + (digits.log2 : Int) / 3 + 1 < -330 then zero negative
  else match e with
    | .ofNat k => ofRatio negative (digits * Nat.pow 10 k) 1
    | .negSucc k => ofRatio negative digits (Nat.pow 10 (k + 1))

/-- The number nearest to an integer. -/
def ofInt (n : Int) : Binary64 := ofRatio (n < 0) n.natAbs 1

/-- The number is finite. -/
def isFinite : Binary64 → Bool
  | .finite .. => true
  | _ => false

/-- The number with the other sign. -/
def neg : Binary64 → Binary64
  | .finite s m e => .finite (!s) m e
  | .infinite s => .infinite (!s)
  | .nan => .nan

/-- The integer that the number is, if it is one. -/
def toInt? : Binary64 → Option Int
  | .finite s m e =>
    let magnitude : Option Nat :=
      match e with
      | .ofNat k => some (m * Nat.pow 2 k)
      | .negSucc k => if m % Nat.pow 2 (k + 1) = 0 then some (m / Nat.pow 2 (k + 1)) else none
    magnitude.map fun n => if s then -(n : Int) else (n : Int)
  | _ => none

/-- `m · 2 ^ e` with its sign, in units of `2 ^ least`. -/
def signedUnits (negative : Bool) (m : Nat) (e least : Int) : Int :=
  let n : Nat := m * Nat.pow 2 (e - least).toNat
  if negative then -(n : Int) else (n : Int)

/-- The sum. -/
def add : Binary64 → Binary64 → Binary64
  | .nan, _ | _, .nan => .nan
  | .infinite s, .infinite t => if s = t then .infinite s else .nan
  | .infinite s, _ | _, .infinite s => .infinite s
  | .finite s m e, .finite t n f =>
    let least := min e f
    let total := signedUnits s m e least + signedUnits t n f least
    if total = 0 then zero (s && t)
    else ofDyadic (total < 0) total.natAbs least

/-- The product. -/
def mul : Binary64 → Binary64 → Binary64
  | .nan, _ | _, .nan => .nan
  | .infinite s, .infinite t => .infinite (s != t)
  | .infinite s, .finite t n _ | .finite t n _, .infinite s =>
    if n = 0 then .nan else .infinite (s != t)
  | .finite s m e, .finite t n f => ofDyadic (s != t) (m * n) (e + f)

/-- The two numbers are equal as numbers: a `nan` equals nothing, and the two zeros are
equal. -/
def sameValue : Binary64 → Binary64 → Bool
  | .finite s m e, .finite t n f => (m = 0 && n = 0) || (s = t && m = n && e = f)
  | .infinite s, .infinite t => s = t
  | _, _ => false

end Binary64

end TabCompletion.Number
