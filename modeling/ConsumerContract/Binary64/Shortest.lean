import ConsumerContract.Binary64.Basic

/-!
# The shortest decimal of a number

Of all decimals that round to a given number, `shortest` takes one with the fewest digits, and of
those the nearest to the number. If a point of a decimal grid lies in the interval of values that
round to the number, then so does one of the number's two neighbours on that grid: the search tries
these two on the grids of 1, 2, … 17 digits, and no number needs more.
-/

namespace ConsumerContract.Binary64

/-- A decimal `digits · 10 ^ exponent`. -/
structure Decimal where
  digits : Nat
  exponent : Int
  deriving DecidableEq, Repr

/-- The number of decimal digits of `n`. -/
def digitCount (n : Nat) : Nat :=
  (Nat.toDigits 10 n).length

/-- `10 ^ e` as a fraction. -/
def tenTo (e : Int) : Nat × Nat :=
  if 0 ≤ e then (Nat.pow 10 e.toNat, 1) else (1, Nat.pow 10 (-e).toNat)

/-- The greatest `e` with `10 ^ e ≤ num / den`, for positive `num` and `den`. -/
def log10Ratio (num den : Nat) : Int :=
  if den ≤ num then (digitCount (num / den) : Int) - 1
  else
    let count := digitCount (den / num)
    if den = num * Nat.pow 10 (count - 1) then -((count : Int) - 1) else -(count : Int)

/-- The values that round to `mantissa · 2 ^ exponent`, in quarters of `2 ^ exponent`. Below the
least mantissa of an exponent the neighbour is only half as far away. -/
structure Interval where
  low : Nat
  mid : Nat
  high : Nat
  closed : Bool

/-- The interval of a positive number. -/
def interval (mantissa : Nat) (exponent : Int) : Interval where
  low := if mantissa = leadingBit ∧ -1074 < exponent then 4 * mantissa - 1 else 4 * mantissa - 2
  mid := 4 * mantissa
  high := 4 * mantissa + 2
  closed := mantissa % 2 == 0

/-- The point `k` of a grid with step `step` lies in the interval, measured in steps of `unit`. -/
def Interval.holds (i : Interval) (unit step k : Nat) : Bool :=
  if i.closed then decide (i.low * unit ≤ k * step) && decide (k * step ≤ i.high * unit)
  else decide (i.low * unit < k * step) && decide (k * step < i.high * unit)

/-- The point of one grid that is in the interval and nearest to the number, if there is one. A tie
goes to the even point. -/
def Interval.nearest? (i : Interval) (unit step : Nat) : Option Nat :=
  let below := i.mid * unit / step
  let above := below + 1
  match i.holds unit step below, i.holds unit step above with
  | false, false => none
  | true, false => some below
  | false, true => some above
  | true, true =>
    let down := i.mid * unit - below * step
    let up := above * step - i.mid * unit
    if down < up ∨ (down = up ∧ below % 2 = 0) then some below else some above

/-- Searches the grids of `count`, `count + 1`, … digits, `fuel` of them; `top` is the exponent of
the number's leading digit. -/
def searchGrids (i : Interval) (exponent top : Int) (count : Nat) : (fuel : Nat) → Option Decimal
  | 0 => none
  | fuel + 1 =>
    let place := top - count + 1
    let (quarter, quarters) := fraction 1 (exponent - 2)
    let (ten, tens) := tenTo place
    match i.nearest? (quarter * tens) (ten * quarters) with
    | some k => some ⟨k, place⟩
    | none => searchGrids i exponent top (count + 1) fuel

/-- Moves zeros at the end of the digits into the exponent. -/
def Decimal.trimZeros (d : Decimal) : (fuel : Nat) → Decimal
  | 0 => d
  | fuel + 1 =>
    if d.digits % 10 = 0 ∧ d.digits ≠ 0 then
      Decimal.trimZeros ⟨d.digits / 10, d.exponent + 1⟩ fuel
    else d

/-- The shortest decimal that rounds to the positive number `mantissa · 2 ^ exponent`. -/
def shortest (mantissa : Nat) (exponent : Int) : Decimal :=
  if mantissa = 0 then ⟨0, 0⟩
  else
    let (num, den) := fraction mantissa exponent
    match searchGrids (interval mantissa exponent) exponent (log10Ratio num den) 1 17 with
    | some d => d.trimZeros 17
    | none => ⟨0, 0⟩

end ConsumerContract.Binary64
