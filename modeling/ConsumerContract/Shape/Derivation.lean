import ConsumerContract.Hint.Basic
import ConsumerContract.Matcher.Basic
import ConsumerContract.Shape.Basic

/-!
# Matchers derived from shapes

A pointer has the matcher of its target and a record one of its fields; a sequence asks for items like
one of its element; all else is matched by type, with the sample of the hint or a usual one. A
string may also have a regular expression or a generator.

A record inside itself has no finite sample, so derivation refuses it. It keeps the records it is inside
of, and never goes deeper than the catalogue has records.
-/

namespace ConsumerContract

namespace Shape

/-- The sample of a string without hint. -/
def usualText : String :=
  "string"

/-- The sample of a truth value without hint. -/
def usualBool : Bool :=
  true

/-- The sample of an integer without hint. -/
def usualInteger : Int64 :=
  1

/-- The sample of a floating-point number without hint: 1.1. -/
def usualFloat : Binary64 :=
  Binary64.ofRatio 11 10

/-- The least length of a sequence without hint. -/
def usualLength : Int64 :=
  1

/-- The matcher of a string. -/
def textMatcher (a : Hint) : Matcher :=
  match a.sample, a.regex, a.generator, a.format with
  | some sample, some pattern, _, _ => .regex sample pattern
  | some sample, none, some moment, some format => .moment moment sample format
  | some sample, _, _, _ => .like (.ofString sample)
  | none, _, _, _ => .like (.ofString usualText)

/-- The matcher of a sequence of items like `content`. -/
def sequenceMatcher (a : Hint) (content : Template) : Noted Matcher :=
  match a.max with
  | some max => Matcher.between content (a.min.getD usualLength) max
  | none => Matcher.atLeast content (a.min.getD usualLength)

/-- The matcher of a value matched by type. -/
def likeValue (value : Json) : Matcher :=
  .like (.literal value)

variable {n : Nat}

/-- The matcher of a shape under a hint; those of records come from `recordMatcher`. -/
def derive (catalogue : Catalogue n) (recordMatcher : Fin n → Attempt Matcher) (a : Hint) :
    Shape n → Attempt Matcher
  | .pointer _ target => derive catalogue recordMatcher a target
  | .sequence _ item => do
    Attempt.ofExcept (a.ensureOnly [.min, .max] "sequence")
    let content ← derive catalogue recordMatcher {} item
    Attempt.ofNoted (sequenceMatcher a (.matcher content))
  | .record id => do
    Attempt.ofExcept (a.ensureOnly [] "record")
    recordMatcher id
  | .text _ => do
    Attempt.ofExcept (a.ensureOnly [.sample, .regex, .format, .generator] "string")
    pure (textMatcher a)
  | .bool _ => do
    Attempt.ofExcept (a.ensureOnly [.sample] "bool")
    let sample ← Attempt.ofExcept (a.sampleBy Hint.readBool "bool")
    pure (likeValue (.bool (sample.getD usualBool)))
  | .integer _ => do
    Attempt.ofExcept (a.ensureOnly [.sample] "integer")
    let sample ← Attempt.ofExcept (a.sampleBy Hint.readInteger "integer")
    pure (likeValue (.int (sample.getD usualInteger).toInt))
  | .float _ => do
    Attempt.ofExcept (a.ensureOnly [.sample] "float")
    let sample ← Attempt.ofExcept (a.sampleBy Hint.readFloat "float")
    pure (likeValue (.float (sample.getD usualFloat)))
  | .unsupported name kind => Attempt.fail (.unsupportedType name kind)

end Shape

/-- The kind of a record that stands inside itself. -/
def recursiveKind : String :=
  "recursive record"

variable {n : Nat}

/-- The hint of a field, empty if it has none. -/
def Field.readHint (f : Field n) : Except Error Hint :=
  match f.hint with
  | some raw => Hint.read raw
  | none => .ok {}

/-- The templates of fields by their names in documents. -/
def Field.deriveAll (catalogue : Catalogue n) (naming : FieldNaming)
    (matcher : Hint → Shape n → Attempt Matcher) :
    List (Field n) → Attempt (List (String × Template))
  | [] => pure []
  | f :: rest =>
    match f.nameUnder naming with
    | none => deriveAll catalogue naming matcher rest
    | some name => do
      Attempt.give (.fieldVisited name (f.shape.name catalogue))
      let a ← Attempt.ofExcept f.readHint
      let m ← matcher a f.shape
      let more ← deriveAll catalogue naming matcher rest
      pure ((name, .matcher m) :: more)

/-- Records are told apart by their indices. -/
instance decidableMemRecords (id : Fin n) (around : List (Fin n)) : Decidable (id ∈ around) :=
  inferInstance

/-- The matcher of a record inside those of `around`, at most `levels` records deep. -/
def RecordType.derive (catalogue : Catalogue n) (naming : FieldNaming) :
    (levels : Nat) → (around : List (Fin n)) → Fin n → Attempt Matcher
  | 0, _, id => Attempt.fail (.unsupportedType (catalogue id).name recursiveKind)
  | levels + 1, around, id =>
    if id ∈ around then Attempt.fail (.unsupportedType (catalogue id).name recursiveKind)
    else do
      let fields ← Field.deriveAll catalogue naming
        (Shape.derive catalogue (RecordType.derive catalogue naming levels (id :: around)))
        (catalogue id).fields
      pure (.ofFields fields)

/-- The matcher of a shape. -/
def Shape.deriveMatcher (catalogue : Catalogue n) (naming : FieldNaming) (s : Shape n) :
    Attempt Matcher :=
  s.derive catalogue (RecordType.derive catalogue naming n []) {}

end ConsumerContract
