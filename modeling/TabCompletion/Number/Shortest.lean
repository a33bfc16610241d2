import TabCompletion.Number.Binary64

/-!
# The shortest decimal text of a number

Among the decimals that round to a given number, `shortest` takes one with the fewest
digits, and of those the nearest. `Binary64.text` writes it positionally from `10 ^ -4`
up to `10 ^ 16`, with at least one digit on either side of the point, and with an exponent
of at least two digits elsewhere.
-/

namespace TabCompletion.Number

/-- A positive decimal `digits · 10 ^ exponent`. -/
structure Decimal where
  digits : Nat
  exponent : Int
  deriving DecidableEq, Repr

/-- The decimal without zeros at the end of its digits; `fuel` bounds their number. -/
def Decimal.trim : Nat → Decimal → Decimal
  | 0, d => d
  | fuel + 1, d =>
    if d.digits % 10 = 0 && d.digits != 0 then
      Decimal.trim fuel ⟨d.digits / 10, d.exponent + 1⟩
    else d

/-- `num / den` divided by `10 ^ e`, again as a numerator and a denominator. -/
def scaleDownTen (num den : Nat) (e : Int) : Nat × Nat :=
  match e with
  | .ofNat k => (num, den * Nat.pow 10 k)
  | .negSucc k => (num * Nat.pow 10 (k + 1), den)

/-- A positive number `num / den` and the interval, from `low / den` to `high / den`, of the
reals that round to it; the ends belong to it when `closed`. -/
structure Interval where
  low : Nat
  num : Nat
  high : Nat
  den : Nat
  closed : Bool

namespace Interval

/-- The interval of the finite number `m · 2 ^ e` with `0 < m`. Below a power of two the
numbers are twice as dense. -/
def ofFinite (m : Nat) (e : Int) : Interval :=
  let below := if m = Nat.pow 2 52 && (-1074 : Int) < e then 1 else 2
  let up := match e with
    | .ofNat k => Nat.pow 2 k
    | .negSucc _ => 1
  let down := match e with
    | .ofNat _ => 1
    | .negSucc k => Nat.pow 2 (k + 1)
  ⟨(4 * m - below) * up, 4 * m * up, (4 * m + 2) * up, 4 * down, m % 2 = 0⟩

/-- The decimal `n · 10 ^ e` lies in the interval. -/
def contains (i : Interval) (n : Nat) (e : Int) : Bool :=
  let (lowNum, den) := scaleDownTen i.low i.den e
  let (highNum, _) := scaleDownTen i.high i.den e
  if i.closed then lowNum ≤ n * den && n * den ≤ highNum
  else lowNum < n * den && n * den < highNum

/-- The nearest of the two neighbours of the number on the grid of multiples of `10 ^ e` that
lie in the interval. -/
def onGrid (i : Interval) (e : Int) : Option Decimal :=
  let (n, d) := scaleDownTen i.num i.den e
  let q := n / d
  let nearest := roundQuotient n d
  let other := if nearest = q then q + 1 else q
  if i.contains nearest e && nearest != 0 then some ⟨nearest, e⟩
  else if i.contains other e && other != 0 then some ⟨other, e⟩
  else none

/-- How many digits stand before the point of the number; zero or negative for a number
below one tenth. `guess` starts the count, `fuel` bounds its corrections. -/
def magnitude (i : Interval) : Nat → Int → Int
  | 0, guess => guess
  | fuel + 1, guess =>
    let (n, d) := scaleDownTen i.num i.den guess
    if d ≤ n then i.magnitude fuel (guess + 1)
    else if n * 10 < d then i.magnitude fuel (guess - 1)
    else guess

/-- The first grid with a decimal in the interval, from `10 ^ e` downwards. -/
def search (i : Interval) : Nat → Int → Decimal
  | 0, e => ⟨(roundQuotient (scaleDownTen i.num i.den e).1 (scaleDownTen i.num i.den e).2), e⟩
  | fuel + 1, e =>
    match i.onGrid e with
    | some d => d
    | none => i.search fuel (e - 1)

end Interval

/-- The shortest decimal that rounds to the finite number `m · 2 ^ e`. -/
def shortest (m : Nat) (e : Int) : Decimal :=
  let i := Interval.ofFinite m e
  let guess : Int := ((m.log2 : Int) + e) * 30103 / 100000 + 1
  let top := i.magnitude 8 guess
  (i.search 17 (top - 1)).trim 20

/-- The decimal digits of a natural number. -/
def digitsOf (n : Nat) : List Char := Nat.toDigits 10 n

/-- The digits of a decimal whose first digit stands `point` places before the point. -/
def positional (ds : List Char) (point : Int) : List Char :=
  if point ≤ 0 then '0' :: '.' :: (List.replicate (-point).toNat '0' ++ ds)
  else
    let k := point.toNat
    if ds.length ≤ k then ds ++ List.replicate (k - ds.length) '0' ++ ['.', '0']
    else ds.take k ++ '.' :: ds.drop k

/-- The digits of a decimal with an exponent. -/
def scientific (ds : List Char) (point : Int) : List Char :=
  let mantissa :=
    match ds with
    | d :: r@(_ :: _) => d :: '.' :: r
    | _ => ds
  let e := point - 1
  let digits := digitsOf e.natAbs
  let padded := if digits.length < 2 then '0' :: digits else digits
  mantissa ++ 'e' :: (if e < 0 then '-' else '+') :: padded

/-- The shortest text that reads back as the number. -/
def Binary64.text : Binary64 → String
  | .nan => "nan"
  | .infinite negative => if negative then "-inf" else "inf"
  | .finite negative m e =>
    let body :=
      if m = 0 then "0.0".toList
      else
        let d := shortest m e
        let ds := digitsOf d.digits
        let point : Int := ds.length + d.exponent
        if -4 < point && point ≤ 16 then positional ds point else scientific ds point
    String.ofList (if negative then '-' :: body else body)

end TabCompletion.Number
