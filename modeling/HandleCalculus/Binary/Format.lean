/-!
# Binary floating point on bit patterns

A floating-point number is its bit pattern: a sign, a biased exponent and a fraction. Rounding an
integer is done on natural numbers: to nearest, ties to the even neighbour. Widening a single to a
double is exact; a NaN keeps its sign and payload and becomes quiet.
-/

set_option autoImplicit false

namespace HandleCalculus.Binary

/-- A power of two. -/
def twoPow (n : Nat) : Nat := Nat.pow 2 n

/-- A power of ten. -/
def tenPow (n : Nat) : Nat := Nat.pow 10 n

/-- A binary format: the widths of the fraction and of the exponent field. -/
structure Format where
  fraction : Nat
  exponent : Nat

/-- The 32-bit format. -/
def single : Format := ⟨23, 8⟩

/-- The 64-bit format. -/
def double : Format := ⟨52, 11⟩

namespace Format

/-- The exponent field of numbers from 1 up to 2. -/
def bias (f : Format) : Nat := twoPow (f.exponent - 1) - 1

/-- The exponent field of infinities and NaNs. -/
def specialExponent (f : Format) : Nat := twoPow f.exponent - 1

/-- The sign bit as a number. -/
def signBit (f : Format) : Nat := twoPow (f.fraction + f.exponent)

/-- Whether the sign bit is set. -/
def isNegative (f : Format) (bits : Nat) : Bool := bits / f.signBit % 2 == 1

/-- The exponent field. -/
def exponentField (f : Format) (bits : Nat) : Nat := bits / twoPow f.fraction % twoPow f.exponent

/-- The fraction field. -/
def fractionField (f : Format) (bits : Nat) : Nat := bits % twoPow f.fraction

end Format

/-- A quotient by `2 ^ shift` rounded to nearest, a tie to the even neighbour. -/
def roundShift (n shift : Nat) : Nat :=
  let q := n / twoPow shift
  let twice := 2 * (n % twoPow shift)
  if twice > twoPow shift || (twice == twoPow shift && q % 2 == 1) then q + 1 else q

/-- The bits of a natural number, rounded. A carry out of the fraction raises the exponent, since
the fields lie side by side. -/
def ofNat (f : Format) (n : Nat) : Nat :=
  if n = 0 then 0
  else
    let top := Nat.log2 n
    let significand :=
      if top ≤ f.fraction then n * twoPow (f.fraction - top) else roundShift n (top - f.fraction)
    (top + f.bias) * twoPow f.fraction + significand - twoPow f.fraction

/-- The bits of an integer, rounded. -/
def ofInt (f : Format) (z : Int) : Nat :=
  if z < 0 then f.signBit + ofNat f z.natAbs else ofNat f z.natAbs

/-- The bits of the double with the value of a single. -/
def doubleOfSingle (bits : Nat) : Nat :=
  let sign := if single.isNegative bits then double.signBit else 0
  let e := single.exponentField bits
  let m := single.fractionField bits
  let magnitude :=
    if e = single.specialExponent then
      let quiet := if m = 0 then 0 else twoPow 51
      double.specialExponent * twoPow 52 + (m * twoPow 29) ||| quiet
    else if e = 0 then
      if m = 0 then 0
      else
        let top := Nat.log2 m
        (top + double.bias - 149) * twoPow 52 + (m * twoPow (52 - top) - twoPow 52)
    else (e + double.bias - single.bias) * twoPow 52 + m * twoPow 29
  sign + magnitude

/-- The value of a finite bit pattern without its sign, as `m * 2 ^ e`, with the width of the gap
below it relative to the gap above: half of it at a power of two, the same elsewhere. -/
structure Magnitude where
  m : Nat
  e : Int
  narrowBelow : Bool

/-- The magnitude of a finite bit pattern. -/
def magnitude (f : Format) (bits : Nat) : Magnitude :=
  let e := f.exponentField bits
  let m := f.fractionField bits
  let least : Int := 1 - f.bias - f.fraction
  if e = 0 then ⟨m, least, false⟩
  else ⟨m + twoPow f.fraction, least + (e - 1), m == 0 && e != 1⟩

end HandleCalculus.Binary
