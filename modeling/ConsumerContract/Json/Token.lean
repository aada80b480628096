import ConsumerContract.Json.Basic

/-!
# Tokens of a JSON text

`Token.scan` cuts a text into brackets, separators, words, numbers and strings. A token that cannot be
read is kept with two answers: why reading it fails, and whether it can at least be passed over, which
asks less of numbers (any size) and of strings (any surrogate). After a token that cannot even be
passed over no token follows.

`Token.scanBytes` does the same with the bytes of a text. It takes them one at a time, as every character
that matters outside of strings is a single byte, and asks whether they are UTF-8 for the content of each
string alone.
-/

namespace ConsumerContract.Json

/-- How a text is given to the scanner: by its characters, or by its bytes in UTF-8, where a character
stands for each byte. -/
inductive Encoding where
  | text
  | utf8
  deriving DecidableEq, Repr

namespace Encoding

/-- The character that stands for a byte. -/
def ofByte (b : UInt8) : Char :=
  Char.ofNat b.toNat

/-- What stands for the character `c`. -/
def write : Encoding → Char → List Char
  | .text, c => [c]
  | .utf8, c => (String.utf8EncodeChar c).map ofByte

/-- How many bytes of the text are given by the character `c`. -/
def width : Encoding → Char → Nat
  | .text, c => c.utf8Size
  | .utf8, _ => 1

/-- The string that is given by `cs`; some bytes are no string. -/
def string? : Encoding → List Char → Option String
  | .text, cs => some (String.ofList cs)
  | .utf8, cs => String.fromUTF8? (cs.map Char.toUInt8).toByteArray

end Encoding

/-- A token. -/
inductive Token where
  | openArray
  | closeArray
  | openObject
  | closeObject
  | comma
  | colon
  | null
  | bool (b : Bool)
  | number (n : Number)
  | string (s : String)
  /-- A number or word that reads as none. -/
  | badScalar (cause : Failure) (passed : Option Failure)
  /-- A string that reads as none. -/
  | badString (cause : Failure) (passed : Option Failure)
  /-- A character that starts no token. -/
  | stray
  deriving DecidableEq, Repr

namespace Token

/-- The blanks between tokens. -/
def isGap (c : Char) : Bool :=
  c == ' ' || c == '\n' || c == '\t' || c == '\r'

/-- Reads the characters `expected`, one by one. -/
def readWord : (expected : List Char) → List Char → Except Failure (List Char)
  | [], cs => .ok cs
  | _ :: _, [] => .error .truncated
  | e :: more, c :: rest => if c = e then readWord more rest else .error .malformed

/-- The value of a hexadecimal digit. -/
def hexValue? (c : Char) : Option Nat :=
  if '0' ≤ c ∧ c ≤ '9' then some (c.toNat - '0'.toNat)
  else if 'a' ≤ c ∧ c ≤ 'f' then some (c.toNat - 'a'.toNat + 10)
  else if 'A' ≤ c ∧ c ≤ 'F' then some (c.toNat - 'A'.toNat + 10)
  else none

/-- Reads four hexadecimal digits. A text with less than four bytes left ends too early. -/
def readHex (e : Encoding) (cs : List Char) : Except Failure (Nat × List Char) :=
  match cs with
  | a :: b :: c :: d :: rest =>
    match hexValue? a, hexValue? b, hexValue? c, hexValue? d with
    | some a, some b, some c, some d => .ok (((a * 16 + b) * 16 + c) * 16 + d, rest)
    | _, _, _, _ => .error .malformed
  | few =>
    if few.foldl (fun n c => n + e.width c) 0 < 4 then .error .truncated else .error .malformed

/-- A surrogate that opens a pair. -/
def isLeading (n : Nat) : Bool :=
  decide (0xd800 ≤ n) && decide (n ≤ 0xdbff)

/-- A surrogate that closes a pair. -/
def isTrailing (n : Nat) : Bool :=
  decide (0xdc00 ≤ n) && decide (n ≤ 0xdfff)

/-- Reads the code unit or the pair of units after `\u`. -/
def readUnicode (e : Encoding) (cs : List Char) : Except Failure (Char × List Char) :=
  match readHex e cs with
  | .error f => .error f
  | .ok (unit, rest) =>
    if isTrailing unit then .error .malformed
    else if !isLeading unit then .ok (Char.ofNat unit, rest)
    else match rest with
      | [] => .error .truncated
      | ['\\'] => .error .truncated
      | '\\' :: 'u' :: rest =>
        match readHex e rest with
        | .error f => .error f
        | .ok (second, rest) =>
          if isTrailing second then
            .ok (Char.ofNat (0x10000 + (unit - 0xd800) * 0x400 + (second - 0xdc00)), rest)
          else .error .malformed
      | _ => .error .malformed

/-- The character of a short escape. -/
def shortEscape? (c : Char) : Option Char :=
  match c with
  | '"' => some '"'
  | '\\' => some '\\'
  | '/' => some '/'
  | 'b' => some '\x08'
  | 'f' => some '\x0c'
  | 'n' => some '\n'
  | 'r' => some '\r'
  | 't' => some '\t'
  | _ => none

/-- Reads one escape after its backslash. -/
def readEscape (e : Encoding) (cs : List Char) : Except Failure (Char × List Char) :=
  match cs with
  | [] => .error .truncated
  | c :: rest =>
    match shortEscape? c with
    | some read => .ok (read, rest)
    | none => if c = 'u' then readUnicode e rest else .error .malformed

/-- Reads a string after its opening quote: what stands for its characters, and what follows the closing
quote. -/
def readString (e : Encoding) : (fuel : Nat) → List Char → Except Failure (List Char × List Char)
  | 0, _ => .error .truncated
  | _, [] => .error .truncated
  | fuel + 1, c :: rest =>
    if c = '"' then .ok ([], rest)
    else if c = '\\' then
      match readEscape e rest with
      | .error f => .error f
      | .ok (read, rest) => (readString e fuel rest).map fun (s, tail) => (e.write read ++ s, tail)
    else if c.toNat < 0x20 then .error .malformed
    else (readString e fuel rest).map fun (s, tail) => (c :: s, tail)

/-- Passes over one escape after its backslash. -/
def skipEscape (e : Encoding) (cs : List Char) : Except Failure (List Char) :=
  match cs with
  | [] => .error .truncated
  | c :: rest =>
    match shortEscape? c with
    | some _ => .ok rest
    | none => if c = 'u' then (readHex e rest).map (·.2) else .error .malformed

/-- Passes over a string after its opening quote. -/
def skipString (e : Encoding) : (fuel : Nat) → List Char → Except Failure (List Char)
  | 0, _ => .error .truncated
  | _, [] => .error .truncated
  | fuel + 1, c :: rest =>
    if c = '"' then .ok rest
    else if c = '\\' then
      match skipEscape e rest with
      | .error f => .error f
      | .ok rest => skipString e fuel rest
    else if c.toNat < 0x20 then .error .malformed
    else skipString e fuel rest

/-- A token that failed to be read with `cause`; `scan` goes on where it can be passed over. -/
def failed (bad : Failure → Option Failure → Token) (cause : Failure)
    (passed : Except Failure (List Char)) (scan : List Char → List Token) : List Token :=
  match passed with
  | .ok rest => bad cause none :: scan rest
  | .error f => [bad cause (some f)]

/-- Cuts `cs` into tokens, at most `fuel` of them and blanks. -/
def scanFrom (e : Encoding) : (fuel : Nat) → List Char → List Token
  | 0, _ => []
  | _, [] => []
  | fuel + 1, c :: cs =>
    if isGap c then scanFrom e fuel cs
    else if c = '[' then .openArray :: scanFrom e fuel cs
    else if c = ']' then .closeArray :: scanFrom e fuel cs
    else if c = '\x7b' then .openObject :: scanFrom e fuel cs
    else if c = '\x7d' then .closeObject :: scanFrom e fuel cs
    else if c = ',' then .comma :: scanFrom e fuel cs
    else if c = ':' then .colon :: scanFrom e fuel cs
    else if c = '"' then
      match readString e (cs.length + 1) cs with
      | .ok (s, rest) =>
        match e.string? s with
        | some s => .string s :: scanFrom e fuel rest
        | none => .badString .malformed none :: scanFrom e fuel rest
      | .error cause => failed .badString cause (skipString e (cs.length + 1) cs) (scanFrom e fuel)
    else if c = 'n' then
      match readWord ['u', 'l', 'l'] cs with
      | .ok rest => .null :: scanFrom e fuel rest
      | .error f => [.badScalar f (some f)]
    else if c = 't' then
      match readWord ['r', 'u', 'e'] cs with
      | .ok rest => .bool true :: scanFrom e fuel rest
      | .error f => [.badScalar f (some f)]
    else if c = 'f' then
      match readWord ['a', 'l', 's', 'e'] cs with
      | .ok rest => .bool false :: scanFrom e fuel rest
      | .error f => [.badScalar f (some f)]
    else if c = '-' || c.isDigit then
      match Number.read (c :: cs) with
      | .ok (n, rest) => .number n :: scanFrom e fuel rest
      | .error cause => failed .badScalar cause (Number.skip (c :: cs)) (scanFrom e fuel)
    else [.stray]

/-- The tokens of a text. -/
def scan (cs : List Char) : List Token :=
  scanFrom .text cs.length cs

/-- The tokens of the text that is given by its bytes. -/
def scanBytes (bytes : ByteArray) : List Token :=
  scanFrom .utf8 bytes.size (bytes.data.toList.map Encoding.ofByte)

end Token

end ConsumerContract.Json
