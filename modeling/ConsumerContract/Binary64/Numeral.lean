import ConsumerContract.Binary64.Basic
import ConsumerContract.Text.Numeral

/-!
# Floating-point numbers in text

Reading of a decimal numeral, or of one of the words for infinity and for what is not a number, as
the nearest number. `readNumeral` is exact for any count of digits and any exponent.
-/

namespace ConsumerContract.Binary64

open Text

/-- The value of a run of digits, read on from `acc`. -/
def digitsValue (acc : Nat) (cs : List Char) : Nat :=
  cs.foldl (fun n c => 10 * n + digitValue c) acc

/-- The number nearest to `digits · 10 ^ exponent`. An exponent far outside the range is answered
without the power. -/
def ofDecimal (digits : Nat) (exponent : Int) : Binary64 :=
  if digits = 0 then ⟨0⟩
  else
    let top := exponent + (Nat.toDigits 10 digits).length
    if top > 400 then infinity
    else if top < -400 then ⟨0⟩
    else if 0 ≤ exponent then ofRatio (digits * Nat.pow 10 exponent.toNat) 1
    else ofRatio digits (Nat.pow 10 (-exponent).toNat)

/-- An exponent: digits with or without a sign, and nothing after them. -/
def readExponent (cs : List Char) : Option Int :=
  let (negative, digits) := match cs with
    | '+' :: rest => (false, rest)
    | '-' :: rest => (true, rest)
    | rest => (false, rest)
  if digits.isEmpty || !digits.all Char.isDigit then none
  else
    let n := digitsValue 0 digits
    some (if negative then -(n : Int) else n)

/-- The words that stand for a number, in lower case. -/
def word? (cs : List Char) : Option Binary64 :=
  match String.ofList (cs.map Char.toLower) with
  | "inf" => some infinity
  | "infinity" => some infinity
  | "nan" => some nan
  | _ => none

/-- Reads a numeral without a sign: digits with at most one point among or beside them, and perhaps
an exponent. -/
def readUnsigned (cs : List Char) : Option Binary64 :=
  match word? cs with
  | some x => some x
  | none =>
    let whole := cs.takeWhile Char.isDigit
    let afterWhole := cs.dropWhile Char.isDigit
    let (places, rest) := match afterWhole with
      | '.' :: tail => (tail.takeWhile Char.isDigit, tail.dropWhile Char.isDigit)
      | tail => ([], tail)
    if whole.isEmpty && places.isEmpty then none
    else
      let digits := digitsValue (digitsValue 0 whole) places
      match rest with
      | [] => some (ofDecimal digits (-(places.length : Int)))
      | c :: tail =>
        if c = 'e' ∨ c = 'E' then
          (readExponent tail).map fun e => ofDecimal digits (e - places.length)
        else none

/-- Reads a numeral or one of the words, with or without a sign. -/
def readNumeral (cs : List Char) : Option Binary64 :=
  match cs with
  | '+' :: rest => readUnsigned rest
  | '-' :: rest => (readUnsigned rest).map neg
  | rest => readUnsigned rest

end ConsumerContract.Binary64
