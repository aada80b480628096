import ConsumerContract.Matcher.Basic

/-!
# Marker JSON

A template as one JSON value, in which a matcher is an object: what it compares, the first version that
can express it, the sample and the particulars of its kind. Objects, records and literals stand for
themselves, so a literal that looks like a matcher is read as one.
-/

namespace ConsumerContract

namespace Marker

/-- The member that says what is compared. -/
def comparisonKey : String :=
  "pact:matcher:type"

/-- The member that names the first version that can express the matcher. -/
def versionKey : String :=
  "pact:specification"

/-- The member that says how a fresh value is made. -/
def generatorKey : String :=
  "pact:generator:type"

/-- The members with which every matcher begins. -/
def opening (kind : MatcherKind) : List (String × Json) :=
  [(comparisonKey, .str kind.comparison), (versionKey, .str kind.since.text)]

/-- The member that says how a fresh value is made by `generator`, and its particular. -/
def ofGenerator (generator : Generator) : List (String × Json) :=
  (generatorKey, .str generator.word) :: match generator with
    | .moment _ format => [("format", .str format)]
    | .providerState expression => [("expression", .str expression)]

end Marker

open Marker in
mutual

/-- The template as marker JSON. -/
def Template.marker : Template → Json
  | .matcher m => m.marker
  | .object fields => .obj (Template.markFields fields)
  | .array items => .arr (Template.markItems items)
  | .literal value => value

/-- The matcher as marker JSON. -/
def Matcher.marker : Matcher → Json
  | .like content => .obj (opening .like ++ [("value", content.marker)])
  | .equality content => .obj (opening .equality ++ [("value", content.marker)])
  | .regex sample pattern =>
    .obj (opening .regex ++ [("value", .str sample), ("regex", .str pattern)])
  | .repeated content min =>
    .obj (opening .repeated ++
      [("min", .ofUInt64 min), ("value", .arr (List.replicate min.toNat content.marker))])
  | .bounded content min max =>
    .obj (opening .bounded ++
      [("min", .ofUInt64 min), ("max", .ofUInt64 max),
        ("value", .arr (List.replicate (Matcher.repetitions min max).toNat content.marker))])
  | .integer sample => .obj (opening .integer ++ [("value", .int sample.toInt)])
  | .decimal sample => .obj (opening .decimal ++ [("value", .float sample)])
  | .null => .obj (opening .null)
  | .includes part => .obj (opening .includes ++ [("value", .str part)])
  | .arrayContaining variants =>
    .obj (opening .arrayContaining ++ [("variants", .arr (Template.markItems variants))])
  | .eachKeyLike key content =>
    .obj (opening .eachKeyLike ++ [("value", .obj [(key, content.marker)])])
  | .fromProviderState expression sample =>
    .obj (opening .fromProviderState ++ ofGenerator (.providerState expression) ++
      [("value", sample)])
  | .moment kind sample format =>
    .obj (opening (.moment kind) ++ ofGenerator (.moment kind format) ++ [("value", .str sample)])
  | .record fields => .obj (Template.markFields fields)

/-- Every item as marker JSON. -/
def Template.markItems : List Template → List Json
  | [] => []
  | t :: rest => t.marker :: Template.markItems rest

/-- Every field as marker JSON. -/
def Template.markFields : List (String × Template) → List (String × Json)
  | [] => []
  | (k, t) :: rest => (k, t.marker) :: Template.markFields rest

end

end ConsumerContract
