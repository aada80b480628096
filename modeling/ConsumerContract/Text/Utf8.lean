/-!
# Repairing UTF-8

Bytes read as UTF-8, with a replacement character in place of whatever is not. Bytes that could have begun
a character are replaced together, and reading goes on with the first byte that cannot continue it.
-/

namespace ConsumerContract.Text

/-- The character that stands for unreadable bytes. -/
def replacement : Char :=
  Char.ofNat 0xfffd

/-- A character that has been begun. -/
structure Begun where
  /-- How many bytes are to come. -/
  missing : Nat
  /-- The least that the next byte may be. -/
  low : Nat
  /-- The greatest that the next byte may be. -/
  high : Nat
  /-- The bits read so far. -/
  bits : Nat

/-- What the first byte of a character of several bytes begins. The bounds of the second byte keep out
surrogates, values beyond the last character and forms that are longer than they need to be. -/
def begin? (b : Nat) : Option Begun :=
  if 0xc2 ≤ b ∧ b ≤ 0xdf then some ⟨1, 0x80, 0xbf, b % 0x20⟩
  else if b = 0xe0 then some ⟨2, 0xa0, 0xbf, b % 0x10⟩
  else if b = 0xed then some ⟨2, 0x80, 0x9f, b % 0x10⟩
  else if 0xe1 ≤ b ∧ b ≤ 0xef then some ⟨2, 0x80, 0xbf, b % 0x10⟩
  else if b = 0xf0 then some ⟨3, 0x90, 0xbf, b % 8⟩
  else if 0xf1 ≤ b ∧ b ≤ 0xf3 then some ⟨3, 0x80, 0xbf, b % 8⟩
  else if b = 0xf4 then some ⟨3, 0x80, 0x8f, b % 8⟩
  else none

/-- Goes on after a character with the byte `b`: what is written, and what is begun. -/
def readFresh (b : Nat) : List Char × Option Begun :=
  if b < 0x80 then ([Char.ofNat b], none)
  else match begin? b with
    | some begun => ([], some begun)
    | none => ([replacement], none)

/-- Goes on with the byte `b`: what is written, and what is begun. -/
def readByte (b : Nat) : Option Begun → List Char × Option Begun
  | none => readFresh b
  | some begun =>
    if begun.low ≤ b ∧ b ≤ begun.high then
      let bits := 0x40 * begun.bits + b % 0x40
      if begun.missing ≤ 1 then ([Char.ofNat bits], none)
      else ([], some ⟨begun.missing - 1, 0x80, 0xbf, bits⟩)
    else
      let (written, next) := readFresh b
      (replacement :: written, next)

/-- Reads bytes on. -/
def readBytes (begun : Option Begun) : List UInt8 → List Char
  | [] => if begun.isSome then [replacement] else []
  | b :: rest =>
    let (written, next) := readByte b.toNat begun
    written ++ readBytes next rest

/-- The text of bytes, repaired where they are not UTF-8. -/
def repaired (bytes : ByteArray) : String :=
  String.ofList (readBytes none bytes.data.toList)

end ConsumerContract.Text
