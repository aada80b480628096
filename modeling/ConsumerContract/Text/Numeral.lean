/-!
# Integers in text

Reading of an integer of 64 bits from decimal digits. Digits are read left to right, and the first
thing that is wrong decides the answer: a character that is no digit, or the digit at which the
number leaves its range.
-/

namespace ConsumerContract.Text

/-- Why a text is no integer of the wanted range. -/
inductive NumeralFault where
  | empty
  | badDigit
  | tooLarge
  | tooSmall
  deriving DecidableEq, Repr

/-- The fault in words. -/
def NumeralFault.message : NumeralFault → String
  | .empty => "cannot parse integer from empty string"
  | .badDigit => "invalid digit found in string"
  | .tooLarge => "number too large to fit in target type"
  | .tooSmall => "number too small to fit in target type"

/-- The value of an ASCII digit. -/
def digitValue (c : Char) : Nat :=
  c.toNat - '0'.toNat

/-- Reads digits on from the value `acc`; `beyond` is the fault of a value above `limit`. -/
def readDigits (limit : Nat) (beyond : NumeralFault) (acc : Nat) :
    List Char → Except NumeralFault Nat
  | [] => .ok acc
  | c :: rest =>
    if c.isDigit then
      if 10 * acc + digitValue c ≤ limit then
        readDigits limit beyond (10 * acc + digitValue c) rest
      else .error beyond
    else .error .badDigit

/-- Reads at least one digit. -/
def readNatural (limit : Nat) (beyond : NumeralFault) : List Char → Except NumeralFault Nat
  | [] => .error .badDigit
  | cs => readDigits limit beyond 0 cs

/-- Reads a number from 0 to `limit`, with or without a `+`. -/
def readUnsigned (limit : Nat) : List Char → Except NumeralFault Nat
  | [] => .error .empty
  | '+' :: cs => readNatural limit .tooLarge cs
  | cs => readNatural limit .tooLarge cs

/-- Reads a number from 0 to 2⁶⁴ - 1, with or without a `+`. -/
def readUInt64 (cs : List Char) : Except NumeralFault UInt64 :=
  (readUnsigned (UInt64.size - 1) cs).map UInt64.ofNat

/-- Reads a number from -2⁶³ to 2⁶³ - 1, with or without a sign. -/
def readInt64 : List Char → Except NumeralFault Int64
  | '-' :: cs => (readNatural 0x8000000000000000 .tooSmall cs).map fun n : Nat => Int64.ofInt (-n)
  | cs => (readUnsigned 0x7fffffffffffffff cs).map fun n : Nat => Int64.ofInt n

/-- The decimal digits of `n`, without leading zeros. -/
def decimalDigits (n : Nat) : List Char :=
  Nat.toDigits 10 n

/-- `n` in decimal, with a sign if it is negative. -/
def decimalInt : Int → List Char
  | .ofNat n => decimalDigits n
  | .negSucc n => '-' :: decimalDigits (n + 1)

end ConsumerContract.Text
