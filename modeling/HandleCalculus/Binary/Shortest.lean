import HandleCalculus.Binary.Format

/-!
# The shortest decimal text of a floating-point number

Of the decimals that read back as the number, those with the fewest digits, and of these the one
nearest to the number; of two equally near ones the larger. The search is exact: the number and
the interval of reals that round to it are fractions of natural numbers, and on each decimal grid
only the two neighbours of the number matter. Numbers are written out in full, without an
exponent.
-/

set_option autoImplicit false

namespace HandleCalculus.Binary

/-- A decimal `digits * 10 ^ exponent`. -/
structure Decimal where
  digits : Nat
  exponent : Int

/-- The interval of reals that round to a number, in units of `1 / den`; the ends belong to it
when the significand is even. -/
structure Interval where
  low : Nat
  mid : Nat
  high : Nat
  den : Nat
  closed : Bool

/-- The rounding interval of a magnitude, in quarters of its last binary place. -/
def interval (x : Magnitude) : Interval :=
  let e := x.e - 2
  let up := twoPow e.toNat
  let low := if x.narrowBelow then 4 * x.m - 1 else 4 * x.m - 2
  ⟨low * up, 4 * x.m * up, (4 * x.m + 2) * up, twoPow (-e).toNat, x.m % 2 == 0⟩

namespace Interval

/-- Whether `num / den'` lies in the interval. -/
def contains (i : Interval) (num den' : Nat) : Bool :=
  let n := num * i.den
  if i.closed then i.low * den' ≤ n && n ≤ i.high * den'
  else i.low * den' < n && n < i.high * den'

/-- The decimal on the grid of `10 ^ exponent` that lies in the interval nearest to its middle, if
there is one; of two equally near ones the larger. -/
def onGrid? (i : Interval) (exponent : Int) : Option Decimal :=
  let up := tenPow exponent.toNat
  let down := tenPow (-exponent).toNat
  -- the middle is `below + rest / (i.den * up)` grid units
  let num := i.mid * down
  let den := i.den * up
  let below := num / den
  let rest := num % den
  let above := below + 1
  let lowHit := i.contains (below * up) down
  let highHit := i.contains (above * up) down
  match lowHit, highHit with
  | true, true => some ⟨if 2 * rest ≥ den then above else below, exponent⟩
  | true, false => some ⟨below, exponent⟩
  | false, true => some ⟨above, exponent⟩
  | false, false => none

/-- The least `k` up to `bound` with `mid * 10 ^ k ≥ den`: one more than the number of zeros after
the point of a middle below one. -/
def leadingPlaces (i : Interval) : Nat → Nat → Nat
  | 0, k => k
  | bound + 1, k => if i.mid * tenPow k ≥ i.den then k else i.leadingPlaces bound (k + 1)

/-- The place of the first digit of the middle: it is at least `10 ^ (place - 1)` and less than
`10 ^ place`. -/
def firstPlace (i : Interval) : Int :=
  if i.mid ≥ i.den then (Nat.toDigits 10 (i.mid / i.den)).length
  else 1 - (i.leadingPlaces 400 1 : Nat)

end Interval

/-- A double has a decimal of at most this many digits that reads back. -/
def maxDigits : Nat := 17

/-- The shortest decimal of a positive magnitude. -/
def shortest (x : Magnitude) : Decimal :=
  let i := interval x
  let place := i.firstPlace
  let found := (List.range maxDigits).findSome? fun (n : Nat) => i.onGrid? (place - (n + 1))
  found.getD ⟨0, 0⟩

/-- A decimal written out without an exponent. A last digit after the point is never zero. -/
def Decimal.text (d : Decimal) : String :=
  let cs := Nat.toDigits 10 d.digits
  if d.exponent ≥ 0 then String.ofList (cs ++ List.replicate d.exponent.toNat '0')
  else
    let places := (-d.exponent).toNat
    let padded := List.replicate (places + 1 - cs.length) '0' ++ cs
    let whole := padded.take (padded.length - places)
    let rest := ((padded.drop (padded.length - places)).reverse.dropWhile (· = '0')).reverse
    if rest.isEmpty then String.ofList whole
    else String.ofList (whole ++ '.' :: rest)

/-- The text of a bit pattern: `NaN`, `inf`, or the shortest decimal, with its sign. -/
def text (f : Format) (bits : Nat) : String :=
  let special := f.exponentField bits == f.specialExponent
  if special && f.fractionField bits != 0 then "NaN"
  else
    let sign := if f.isNegative bits then "-" else ""
    if special then sign ++ "inf"
    else
      let x := magnitude f bits
      if x.m = 0 then sign ++ "0" else sign ++ (shortest x).text

end HandleCalculus.Binary
