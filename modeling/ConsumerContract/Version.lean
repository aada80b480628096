import ConsumerContract.Json.Decoder
import ConsumerContract.Text.Blank
import ConsumerContract.Text.Pieces

/-!
# Specification versions

The revisions of the contract format. A later version can express every matcher of an earlier one, so
versions are ordered. People write them loosely (`2`, `v3`, `4.0.0`): `Version.read` takes any such
text, a document only the exact words.
-/

namespace ConsumerContract

/-- A revision of the contract format. -/
inductive Version where
  | v2
  | v3
  | v4
  deriving DecidableEq, Repr

namespace Version

/-- The version of a contract for which nothing else is asked. -/
def standard : Version :=
  .v3

/-- The version as it is written into documents. -/
def text : Version → String
  | .v2 => "2.0.0"
  | .v3 => "3.0.0"
  | .v4 => "4.0"

/-- The major number. -/
def major : Version → Nat
  | .v2 => 2
  | .v3 => 3
  | .v4 => 4

instance : LT Version where
  lt a b := a.major < b.major

instance (a b : Version) : Decidable (a < b) :=
  inferInstanceAs (Decidable (a.major < b.major))

/-- Rules are wrapped into rule sets, from version 3 on. -/
def usesRuleSets (v : Version) : Bool :=
  v != .v2

/-- A character that may stand before the number, as in `v3`. -/
def isMark (c : Char) : Bool :=
  c == 'v' || c == 'V'

/-- A part after the major number that adds nothing to it: one or more zeros. -/
def isZeros (part : List Char) : Bool :=
  !part.isEmpty && part.all (· == '0')

/-- The version that a text names: white space and marks in front do not count, nor do zeros after the
major number. -/
def read (s : String) : Option Version :=
  match Text.pieces '.' ((Text.trim s.toList).dropWhile isMark) with
  | [c] :: parts =>
    if parts.all isZeros then
      if c = '2' then some .v2
      else if c = '3' then some .v3
      else if c = '4' then some .v4
      else none
    else none
  | _ => none

/-- What is said of a text that names no version. -/
def unknownMessage (s : String) : String :=
  "unknown pact specification version: " ++ s

/-- The version as a JSON value. -/
def toJson (v : Version) : Json :=
  .str v.text

/-- The words of the versions in documents. -/
def words : List (String × Version) :=
  [("2.0.0", .v2), ("3.0.0", .v3), ("4.0", .v4)]

/-- Reads a version of a document. -/
def decode (s : Json.Source) : Except Json.Failure Version :=
  s.asWord false false words

end Version

end ConsumerContract
