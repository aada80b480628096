import ConsumerContract.Json.Basic
import ConsumerContract.Path.Basic
import ConsumerContract.Text.Numeral

/-!
# Reading paths

`Path.read` takes a path apart into its segments, and `Path.resolves` says whether the segments lead
from a value to one inside it. A quoted name ends at the first quote that no backslash precedes, and an
index is a number of 64 bits.
-/

namespace ConsumerContract.Path

/-- Reads a quoted name after its opening quote: the name, and what follows the closing bracket. -/
def readQuoted : List Char → Option (List Char × List Char)
  | [] => none
  | '\\' :: c :: rest => (readQuoted rest).map fun (name, tail) => (c :: name, tail)
  | ['\\'] => none
  | '\'' :: ']' :: rest => some ([], rest)
  | '\'' :: _ => none
  | c :: rest => (readQuoted rest).map fun (name, tail) => (c :: name, tail)

/-- Reads an index of at most `limit`. -/
def readIndex (limit : Nat) (cs : List Char) : Option Nat :=
  (Text.readUnsigned limit cs).toOption

/-- The segment between brackets without quotes. -/
def readBracketed (limit : Nat) (cs : List Char) : Option Segment :=
  if cs = ['*'] then some .anyItem else (readIndex limit cs).map .index

/-- The segment after a point. -/
def readDotted (cs : List Char) : Option Segment :=
  if cs = [] then none
  else if cs = ['*'] then some .anyValue
  else some (.field (String.ofList cs))

/-- A character that a name without quotes may hold. -/
def isNameChar (c : Char) : Bool :=
  c != '.' && c != '['

/-- Reads segments up to the end, at most `fuel` of them. No index may be above `limit`. -/
def readSegments (limit : Nat) : (fuel : Nat) → List Char → Option (List Segment)
  | _, [] => some []
  | 0, _ => none
  | fuel + 1, '[' :: '\'' :: rest =>
    match readQuoted rest with
    | none => none
    | some (name, rest) => (readSegments limit fuel rest).map (.field (String.ofList name) :: ·)
  | fuel + 1, '[' :: rest =>
    match rest.dropWhile (· != ']') with
    | [] => none
    | _ :: tail =>
      match readBracketed limit (rest.takeWhile (· != ']')) with
      | none => none
      | some s => (readSegments limit fuel tail).map (s :: ·)
  | fuel + 1, '.' :: rest =>
    match readDotted (rest.takeWhile isNameChar) with
    | none => none
    | some s => (readSegments limit fuel (rest.dropWhile isNameChar)).map (s :: ·)
  | _, _ => none

/-- The segments of a path that starts at the document and has no index above `limit`. -/
def readUpTo (limit : Nat) (path : String) : Option (List Segment) :=
  match path.toList with
  | '$' :: rest => readSegments limit rest.length rest
  | _ => none

/-- The greatest index. -/
def maxIndex : Nat :=
  UInt64.size - 1

/-- The segments of a path that starts at the document. -/
def read (path : String) : Option (List Segment) :=
  readUpTo maxIndex path

/-- The segments lead from `value` to some value inside it. -/
def leads : List Segment → Json → Bool
  | [], _ => true
  | .field name :: rest, .obj members =>
    match Dict.get? name members with
    | some v => leads rest v
    | none => false
  | .anyValue :: rest, .obj members => members.any fun m => leads rest m.2
  | .index i :: rest, .arr items =>
    match items[i]? with
    | some v => leads rest v
    | none => false
  | .anyItem :: rest, .arr items => items.any (leads rest)
  | _ :: _, _ => false

/-- The path denotes a place in `body`. -/
def resolves (body : Json) (path : String) : Bool :=
  match read path with
  | some segments => leads segments body
  | none => false

end ConsumerContract.Path
