import ConsumerContract.Binary64.Numeral
import ConsumerContract.Binary64.Shortest
import ConsumerContract.Json.Failure

/-!
# Numbers

A number without point and exponent that fits 64 bits, signed or unsigned, is kept as an integer;
every other number is floating-point. An integer is written in decimal, a floating-point number with
the fewest digits that read back: as a plain decimal for exponents from -5 to 15, else with an
exponent that always has a sign if it is positive.
-/

namespace ConsumerContract.Json

/-- A number of a document. -/
inductive Number where
  | int (n : Int)
  | float (x : Binary64)
  deriving DecidableEq, Repr

namespace Number

/-! ### Writing -/

/-- Which numbers are written as plain decimals: those whose leading digit stands for a power of ten
between these. -/
def plainExponents : Int × Int :=
  (-5, 15)

/-- A decimal in text. -/
def decimalChars (d : Binary64.Decimal) : List Char :=
  let digits := Text.decimalDigits d.digits
  let top := d.exponent + digits.length - 1
  if plainExponents.1 ≤ top ∧ top ≤ plainExponents.2 then
    if 0 ≤ d.exponent then digits ++ List.replicate d.exponent.toNat '0' ++ ['.', '0']
    else if 0 ≤ top then
      digits.take (top.toNat + 1) ++ '.' :: digits.drop (top.toNat + 1)
    else '0' :: '.' :: List.replicate ((-top).toNat - 1) '0' ++ digits
  else
    let lead := digits.take 1
    let more := digits.drop 1
    lead ++ (if more.isEmpty then [] else '.' :: more) ++
      'e' :: (if 0 ≤ top then '+' :: Text.decimalInt top else Text.decimalInt top)

/-- A finite floating-point number in text. -/
def floatChars (x : Binary64) : List Char :=
  match x.meaning with
  | .finite negative mantissa exponent =>
    let chars := decimalChars (Binary64.shortest mantissa exponent)
    if negative then '-' :: chars else chars
  | _ => "null".toList

/-- The number in text. -/
def chars : Number → List Char
  | .int n => Text.decimalInt n
  | .float x => floatChars x

/-! ### Reading -/

/-- The greatest significand that is kept: digits that would lead beyond are dropped. -/
def maxSignificand : Nat :=
  UInt64.size - 1

/-- Reads on from `acc` as long as digits come and the value fits; also counts these digits. -/
def fitDigits (acc : Nat) : List Char → Nat × Nat × List Char
  | [] => (acc, 0, [])
  | c :: rest =>
    if c.isDigit && decide (10 * acc + Text.digitValue c ≤ maxSignificand) then
      let (value, count, tail) := fitDigits (10 * acc + Text.digitValue c) rest
      (value, count + 1, tail)
    else (acc, 0, c :: rest)

/-- `x / 10 ^ n`, with one rounding for every full step of 308 powers. -/
def shrink (x : Binary64) (n : Nat) : Binary64 :=
  if n ≤ 308 then x.divMagnitude (.powerOfTen n)
  else if x.isZero then x
  else shrink (x.divMagnitude (.powerOfTen 308)) (n - 308)
termination_by n

/-- `significand · 10 ^ exponent`, each step rounded; `none` where the result would be infinite. -/
def scale (significand : Nat) (exponent : Int) : Option Binary64 :=
  if exponent < 0 then some (shrink (.ofNat significand) (-exponent).toNat)
  else if exponent ≤ 308 then
    let x := (Binary64.ofNat significand).mulMagnitude (.powerOfTen exponent.toNat)
    if x.isInfinite then none else some x
  else if significand = 0 then some ⟨0⟩
  else none

/-- The floating-point number that was read, if it is not too great. -/
def ofScaled (negative : Bool) (significand : Nat) (exponent : Int) : Except Failure Number :=
  match scale significand exponent with
  | some x => .ok (.float (x.withSign negative))
  | none => .error .malformed

/-- The number that was read without point and exponent. -/
def ofInteger (negative : Bool) (n : Nat) : Number :=
  if negative then
    if 0 < n ∧ n ≤ Binary64.signBit then .int (-(n : Int)) else .float (Binary64.ofNat n).neg
  else .int n

/-- The greatest exponent that is taken at its value. -/
def maxExponent : Nat :=
  0x7fffffff

/-- Whether an exponent is negative, and its digits. -/
def exponentSign : List Char → Bool × List Char
  | '+' :: rest => (false, rest)
  | '-' :: rest => (true, rest)
  | rest => (false, rest)

/-- Reads an exponent after its `e`. -/
def readExponent (negative : Bool) (significand : Nat) (exponent : Int) (cs : List Char) :
    Except Failure (Number × List Char) :=
  let (down, digits) := exponentSign cs
  match digits with
  | [] => .error .truncated
  | c :: _ =>
    if !c.isDigit then .error .malformed
    else
      let value := Binary64.digitsValue 0 (digits.takeWhile Char.isDigit)
      let rest := digits.dropWhile Char.isDigit
      if maxExponent < value then
        if significand ≠ 0 ∧ !down then .error .malformed
        else .ok (.float ((⟨0⟩ : Binary64).withSign negative), rest)
      else
        let total := if down then exponent - value else exponent + value
        (ofScaled negative significand total).map (·, rest)

/-- Reads what may follow the digits of a floating-point number. -/
def readFloatEnd (negative : Bool) (significand : Nat) (exponent : Int) (cs : List Char) :
    Except Failure (Number × List Char) :=
  match cs with
  | [] => (ofScaled negative significand exponent).map (·, [])
  | c :: rest =>
    if c = 'e' ∨ c = 'E' then readExponent negative significand exponent rest
    else (ofScaled negative significand exponent).map (·, c :: rest)

/-- Reads the places after the point; there is at least one. -/
def readPlaces (negative : Bool) (significand : Nat) (exponent : Int) (cs : List Char) :
    Except Failure (Number × List Char) :=
  match fitDigits significand cs with
  | (_, 0, []) => .error .truncated
  | (value, count, rest) =>
    if count = 0 ∧ !(rest.head?.any Char.isDigit) then .error .malformed
    else readFloatEnd negative value (exponent - count) (rest.dropWhile Char.isDigit)

/-- Reads what follows the digits before the point, of which `dropped` were left out. -/
def readAfterWhole (negative : Bool) (significand dropped : Nat) (cs : List Char) :
    Except Failure (Number × List Char) :=
  match cs with
  | '.' :: rest => readPlaces negative significand dropped rest
  | _ =>
    if cs.head?.any (fun c => c == 'e' || c == 'E') || decide (0 < dropped) then
      readFloatEnd negative significand dropped cs
    else .ok (ofInteger negative significand, cs)

/-- Reads a number without its sign. A zero at the front stands alone. -/
def readMagnitude (negative : Bool) : List Char → Except Failure (Number × List Char)
  | [] => .error .truncated
  | '0' :: rest =>
    if rest.head?.any Char.isDigit then .error .malformed else readAfterWhole negative 0 0 rest
  | c :: rest =>
    if !c.isDigit then .error .malformed
    else
      let (value, _, tail) := fitDigits (Text.digitValue c) rest
      readAfterWhole negative value (tail.takeWhile Char.isDigit).length
        (tail.dropWhile Char.isDigit)

/-- Reads a number; `cs` starts with a minus sign or a digit. -/
def read : List Char → Except Failure (Number × List Char)
  | '-' :: rest => readMagnitude true rest
  | cs => readMagnitude false cs

/-! ### Passing over

A number in a place that nobody asks for is passed over: its form is checked, not its size. -/

/-- Passes over an exponent after its `e`. -/
def skipExponent (cs : List Char) : Except Failure (List Char) :=
  let digits := (exponentSign cs).2
  if digits.head?.any Char.isDigit then .ok (digits.dropWhile Char.isDigit) else .error .malformed

/-- Passes over what may follow the digits before the point. -/
def skipAfterWhole (cs : List Char) : Except Failure (List Char) :=
  match cs with
  | '.' :: rest =>
    if !(rest.head?.any Char.isDigit) then .error .malformed
    else match rest.dropWhile Char.isDigit with
      | 'e' :: tail => skipExponent tail
      | 'E' :: tail => skipExponent tail
      | tail => .ok tail
  | 'e' :: rest => skipExponent rest
  | 'E' :: rest => skipExponent rest
  | rest => .ok rest

/-- Passes over a number without its sign. -/
def skipMagnitude : List Char → Except Failure (List Char)
  | '0' :: rest => if rest.head?.any Char.isDigit then .error .malformed else skipAfterWhole rest
  | c :: rest =>
    if c.isDigit then skipAfterWhole (rest.dropWhile Char.isDigit) else .error .malformed
  | [] => .error .malformed

/-- Passes over a number. -/
def skip : List Char → Except Failure (List Char)
  | '-' :: rest => skipMagnitude rest
  | cs => skipMagnitude cs

end Number

end ConsumerContract.Json
