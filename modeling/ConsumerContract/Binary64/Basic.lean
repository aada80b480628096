/-!
# Floating-point numbers of 64 bits

A number is its 64 bits: a sign, 11 bits of exponent and 52 bits of fraction. A finite one stands for
`± mantissa · 2 ^ exponent`, and every operation here is done on that pair in exact arithmetic, with
one rounding to the nearest number at the end, a tie going to the even mantissa.
-/

namespace ConsumerContract

/-- A binary floating-point number of 64 bits. -/
structure Binary64 where
  bits : UInt64
  deriving DecidableEq, Repr

namespace Binary64

/-- `2 ^ 52`: the leading bit of a mantissa, and the number of fractions. -/
def leadingBit : Nat :=
  0x10000000000000

/-- `2 ^ 63`: the bit of the sign. -/
def signBit : Nat :=
  0x8000000000000000

/-- What the bits of a number stand for. -/
inductive Meaning where
  | finite (negative : Bool) (mantissa : Nat) (exponent : Int)
  | infinite (negative : Bool)
  | notANumber
  deriving DecidableEq, Repr

/-- Decodes the three fields. A zero exponent field has no leading bit and the exponent of one. -/
def meaning (x : Binary64) : Meaning :=
  let negative := x.bits.toNat / signBit == 1
  let field : Nat := x.bits.toNat / leadingBit % 0x800
  let fraction : Nat := x.bits.toNat % leadingBit
  if field = 2047 then
    if fraction = 0 then .infinite negative else .notANumber
  else if field = 0 then .finite negative fraction (-1074)
  else .finite negative (leadingBit + fraction) ((field : Int) - 1075)

/-- Neither infinite nor not a number. -/
def isFinite (x : Binary64) : Bool :=
  match x.meaning with
  | .finite .. => true
  | _ => false

/-- Zero of either sign. -/
def isZero (x : Binary64) : Bool :=
  x.bits.toNat % signBit == 0

/-- Infinite, of either sign. -/
def isInfinite (x : Binary64) : Bool :=
  match x.meaning with
  | .infinite _ => true
  | _ => false

/-- The number with the other sign. -/
def neg (x : Binary64) : Binary64 :=
  ⟨UInt64.ofNat ((x.bits.toNat + signBit) % UInt64.size)⟩

/-- `x` or `-x`, as the sign asks. -/
def withSign (negative : Bool) (x : Binary64) : Binary64 :=
  if negative then x.neg else x

/-- Plus infinity. -/
def infinity : Binary64 :=
  ⟨0x7ff0000000000000⟩

/-- The quiet value that is not a number. -/
def nan : Binary64 :=
  ⟨0x7ff8000000000000⟩

/-- `num / den` rounded to the nearest whole number, a half to the even one. -/
def roundDiv (num den : Nat) : Nat :=
  let whole := num / den
  let twice := 2 * (num % den)
  if twice > den ∨ (twice = den ∧ whole % 2 = 1) then whole + 1 else whole

/-- `mantissa · 2 ^ exponent` as a fraction of two natural numbers. -/
def fraction (mantissa : Nat) (exponent : Int) : Nat × Nat :=
  if 0 ≤ exponent then (mantissa * Nat.pow 2 exponent.toNat, 1)
  else (mantissa, Nat.pow 2 (-exponent).toNat)

/-- The greatest `e` with `2 ^ e ≤ num / den`, for positive `num` and `den`. -/
def log2Ratio (num den : Nat) : Int :=
  let guess : Int := (num.log2 : Int) - den.log2
  let (power, parts) := fraction 1 guess
  if power * den ≤ num * parts then guess else guess - 1

/-- The number nearest to `num / den`. The fields of exponent and fraction are added as one sum, so
that a mantissa that rounds up to the next power of two carries into the exponent. -/
def ofRatio (num den : Nat) : Binary64 :=
  if num = 0 then ⟨0⟩
  else
    let exponent := max (log2Ratio num den - 52) (-1074)
    let (unit, parts) := fraction 1 exponent
    let mantissa := roundDiv (num * parts) (den * unit)
    let sum := (exponent + 1074).toNat * leadingBit + mantissa
    if sum < 2047 * leadingBit then ⟨UInt64.ofNat sum⟩ else infinity

/-- The number nearest to `n`. -/
def ofNat (n : Nat) : Binary64 :=
  ofRatio n 1

/-- The number nearest to `n`. -/
def ofInt : Int → Binary64
  | .ofNat n => ofNat n
  | .negSucc n => neg (ofNat (n + 1))

/-- The magnitude of a finite number as a fraction; 0 for the others. -/
def magnitude (x : Binary64) : Nat × Nat :=
  match x.meaning with
  | .finite _ mantissa exponent => fraction mantissa exponent
  | _ => (0, 1)

/-- The product of two magnitudes. -/
def mulMagnitude (x y : Binary64) : Binary64 :=
  let (a, b) := x.magnitude
  let (c, d) := y.magnitude
  ofRatio (a * c) (b * d)

/-- The quotient of two magnitudes, the second not zero. -/
def divMagnitude (x y : Binary64) : Binary64 :=
  let (a, b) := x.magnitude
  let (c, d) := y.magnitude
  ofRatio (a * d) (b * c)

/-- The number nearest to `10 ^ k`. -/
def powerOfTen (k : Nat) : Binary64 :=
  ofNat (Nat.pow 10 k)

end Binary64

end ConsumerContract
