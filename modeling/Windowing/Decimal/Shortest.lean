/-!
# The shortest decimal of a float

A float stands for all reals that round to it. Of the decimals among those, the shortest
is the one with the fewest digits, and of several equally short ones the nearest to the
float. `Decimal.shortest` finds it by trying 1, 2, 3, … digits; on each of these grids
only the two points next to the float can be the one, because the reals that round to it
form an interval around it. All of it is exact arithmetic on natural numbers.
-/

namespace Windowing

/-- The number `digits * 10 ^ exponent`. -/
structure Decimal where
  digits : Nat
  exponent : Int

namespace Decimal

/-! ## The reals that round to a float -/

/-- A positive number `value / unit` with the interval of reals that round to it, from
`low / unit` to `high / unit`. The ends belong to it when `closed` holds. -/
structure Neighbourhood where
  low : Nat
  value : Nat
  high : Nat
  unit : Nat
  closed : Bool

/-- Neighbourhood of `mantissa * 2 ^ exponent`, a finite number of the given format.
Half a step away on either side lies the next tie; below a power of two the step is half
as long, except at the smallest exponent, where the numbers stay equally spaced. A tie
goes to the even mantissa. -/
def Neighbourhood.ofBinary (format : Float.Model.Format) (mantissa : Nat) (exponent : Int) :
    Neighbourhood :=
  let isPower := mantissa = 1 <<< format.mantissaBitsWithoutImplicit
  let below := if isPower ∧ format.minExponent < exponent then 1 else 2
  { low := (4 * mantissa - below) <<< exponent.toNat
    value := (4 * mantissa) <<< exponent.toNat
    high := (4 * mantissa + 2) <<< exponent.toNat
    unit := 4 <<< (-exponent).toNat
    closed := mantissa % 2 = 0 }

/-- Whether the point `point / (unit * stretch)` lies in the interval. Scaling both
sides by `stretch` keeps the comparison among natural numbers. -/
def Neighbourhood.holds (b : Neighbourhood) (stretch point : Nat) : Bool :=
  if b.closed then b.low * stretch ≤ point && point ≤ b.high * stretch
  else b.low * stretch < point && point < b.high * stretch

/-! ## Digits -/

/-- The power `10 ^ k`. -/
def ten (k : Nat) : Nat := Nat.pow 10 k

/-- The least power of ten above a positive number, as an exponent. -/
def Neighbourhood.magnitude (b : Neighbourhood) : Int :=
  if b.unit ≤ b.value then
    (Nat.toDigits 10 (b.value / b.unit)).length
  else
    1 - (Nat.toDigits 10 ((b.unit - 1) / b.value)).length

/-- The decimal with `count` digits that rounds to the float and is nearest to it, if
there is one. The candidates are the multiples of `10 ^ (magnitude - count)` on either
side of the float; halfway between them the upper one is taken. -/
def Neighbourhood.withDigits? (b : Neighbourhood) (count : Nat) : Option Decimal :=
  let exponent := b.magnitude - count
  let stretch := ten (-exponent).toNat
  let step := b.unit * ten exponent.toNat
  let value := b.value * stretch
  let lower := value / step
  match b.holds stretch (lower * step), b.holds stretch ((lower + 1) * step) with
  | true, true =>
    if value - lower * step < (lower + 1) * step - value then some ⟨lower, exponent⟩
    else some ⟨lower + 1, exponent⟩
  | true, false => some ⟨lower, exponent⟩
  | false, true => some ⟨lower + 1, exponent⟩
  | false, false => none

/-- Seventeen digits tell all floats apart, in either precision. -/
def mostDigits : Nat := 17

/-- The shortest decimal that rounds to `mantissa * 2 ^ exponent`. -/
def shortest (format : Float.Model.Format) (mantissa : Nat) (exponent : Int) : Decimal :=
  let b := Neighbourhood.ofBinary format mantissa exponent
  ((List.range' 1 mostDigits).findSome? b.withDigits?).getD ⟨0, 0⟩

end Decimal

end Windowing
