/-!
# Form encoding

Text as it stands in a query: letters, digits and `*-._` for themselves, `+` for a space, and every other
byte of the UTF-8 form as `%` and two hexadecimal digits.
-/

namespace ConsumerContract.Text

/-- A byte that stands for itself. -/
def isFormPlain (b : UInt8) : Bool :=
  let c := Char.ofNat b.toNat
  c.isAlphanum || c == '*' || c == '-' || c == '.' || c == '_'

/-- A hexadecimal digit, in upper case. -/
def hexDigit (n : Nat) : Char :=
  if n < 10 then Char.ofNat ('0'.toNat + n) else Char.ofNat ('A'.toNat + (n - 10))

/-- A byte in form encoding. -/
def formByte (b : UInt8) : List Char :=
  if isFormPlain b then [Char.ofNat b.toNat]
  else if b = 0x20 then ['+']
  else ['%', hexDigit (b.toNat / 16), hexDigit (b.toNat % 16)]

/-- Characters in form encoding. -/
def formEncode (cs : List Char) : List Char :=
  (cs.flatMap String.utf8EncodeChar).flatMap formByte

end ConsumerContract.Text
