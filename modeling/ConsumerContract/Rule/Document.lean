import ConsumerContract.Rule.Basic

/-!
# Rules and generators in documents

A rule is an object whose member `match` names its kind; a generator one whose member `type` does. The
other members are the particulars of the kind. `Rule.toJson` and `Rule.decode` are the two directions,
and likewise for rule sets, variants and generators.
-/

namespace ConsumerContract

open Json (Failure Source)

/-- A member that stands only if it has a value. -/
def optionalMember {α : Type} (key : String) (write : α → Json) :
    Option α → List (String × Json)
  | some a => [(key, write a)]
  | none => []

/-! ### Writing -/

/-- The generator as a JSON value. -/
def Generator.toJson (g : Generator) : Json :=
  .obj (("type", .str g.word) :: match g with
    | .moment _ format => [("format", .str format)]
    | .providerState expression => [("expression", .str expression)])

/-- The word of a combination. -/
def Combine.word : Combine → String
  | .all => "AND"
  | .any => "OR"

/-- The combination as a JSON value. -/
def Combine.toJson (c : Combine) : Json :=
  .str c.word

/-- Generators by path as a JSON value. -/
def Generators.toJson (generators : Generators) : Json :=
  .obj (Dict.mapValues Generator.toJson generators)

mutual

/-- The rule as a JSON value. -/
def Rule.toJson : Rule → Json
  | .type min max =>
    .obj (("match", .str "type") ::
      (optionalMember "min" Json.ofUInt64 min ++ optionalMember "max" Json.ofUInt64 max))
  | .regex pattern => .obj [("match", .str "regex"), ("regex", .str pattern)]
  | .integer => .obj [("match", .str "integer")]
  | .decimal => .obj [("match", .str "decimal")]
  | .null => .obj [("match", .str "null")]
  | .equality => .obj [("match", .str "equality")]
  | .includes part => .obj [("match", .str "include"), ("value", .str part)]
  | .values => .obj [("match", .str "values")]
  | .arrayContains variants =>
    .obj [("match", .str "arrayContains"), ("variants", .arr (Rule.variantsJson variants))]
  | .moment kind format =>
    .obj [("match", .str (Rule.moment kind format).word), ("format", .str format)]

/-- Variants as JSON values. -/
def Rule.variantsJson : List Variant → List Json
  | [] => []
  | v :: rest => v.toJson :: Rule.variantsJson rest

/-- The variant as a JSON value. -/
def Variant.toJson : Variant → Json
  | ⟨index, rules, generators⟩ =>
    .obj [("index", Json.ofUInt64 index), ("rules", .obj (Rule.setsJson rules)),
      ("generators", Generators.toJson generators)]

/-- Rule sets by key as members. -/
def Rule.setsJson : List (String × RuleSet) → List (String × Json)
  | [] => []
  | (k, s) :: rest => (k, s.toJson) :: Rule.setsJson rest

/-- The rule set as a JSON value. -/
def RuleSet.toJson : RuleSet → Json
  | ⟨combine, matchers⟩ =>
    .obj [("combine", combine.toJson), ("matchers", .arr (Rule.rulesJson matchers))]

/-- Rules as JSON values. -/
def Rule.rulesJson : List Rule → List Json
  | [] => []
  | r :: rest => r.toJson :: Rule.rulesJson rest

end

/-- Rules by path as a JSON value. -/
def Rules.toJson (rules : Rules) : Json :=
  .obj (Dict.mapValues Rule.toJson rules)

/-- Rules in the shape of a version as a JSON value. -/
def RenderedRules.toJson : RenderedRules → Json
  | .flat rules => rules.toJson
  | .combined sets => .obj (Rule.setsJson sets)

/-! ### Reading -/

/-- The kinds of generators. -/
inductive GeneratorKind where
  | moment (kind : Moment)
  | providerState
  deriving DecidableEq, Repr

/-- The words of the kinds of generators. -/
def GeneratorKind.words : List (String × GeneratorKind) :=
  [("Date", .moment .date), ("Time", .moment .time), ("DateTime", .moment .dateTime),
    ("ProviderState", .providerState)]

/-- Reads a generator. -/
def Generator.decode (held : Bool) (s : Source) : Except Failure Generator :=
  match s.asTagged held "type" GeneratorKind.words with
  | .error f => .error f
  | .ok (.moment kind, body) =>
    (body.asSingle true "format" Source.asText).map (Generator.moment kind)
  | .ok (.providerState, body) =>
    (body.asSingle true "expression" Source.asText).map Generator.providerState

/-- The words of combinations. -/
def Combine.words : List (String × Combine) :=
  [("AND", .all), ("OR", .any)]

/-- Reads a combination. One that stands inside a rule is read leniently. -/
def Combine.decode (held inRule : Bool) (s : Source) : Except Failure Combine :=
  s.asWord held inRule Combine.words

/-- The fields of a rule set as far as they have been read. -/
structure RuleSet.Partial where
  combine : Option Combine := none
  matchers : Option (List Rule) := none

/-- Reads a rule set whose rules `rule` reads. -/
def RuleSet.decodeWith (rule : Source → Except Failure Rule) (held inRule : Bool) (s : Source) :
    Except Failure RuleSet := do
  let p ← s.asRecord held
    [Source.slot "combine" (Combine.decode held inRule) RuleSet.Partial.combine
      fun a p => { p with combine := some a },
     Source.slot "matchers" (Source.asList rule) RuleSet.Partial.matchers
      fun a p => { p with matchers := some a }] {}
  let combine ← Source.required p.combine
  let matchers ← Source.required p.matchers
  return ⟨combine, matchers⟩

/-- The fields of a variant as far as they have been read. -/
structure Variant.Partial where
  index : Option UInt64 := none
  rules : Option (List (String × RuleSet)) := none
  generators : Option Generators := none

/-- Reads a variant whose rules `rule` reads. Generators may be missing. A variant is held only as a part
of a rule, so its rule sets then stand inside a rule. -/
def Variant.decodeWith (rule : Source → Except Failure Rule) (held : Bool) (s : Source) :
    Except Failure Variant := do
  let p ← s.asRecord held
    [Source.slot "index" Source.asUInt64 Variant.Partial.index
      fun a p => { p with index := some a },
     Source.slot "rules" (Source.asDict (RuleSet.decodeWith rule held held)) Variant.Partial.rules
      fun a p => { p with rules := some a },
     Source.slot "generators" (Source.asDict (Generator.decode held)) Variant.Partial.generators
      fun a p => { p with generators := some a }] {}
  let index ← Source.required p.index
  let rules ← Source.required p.rules
  return ⟨index, rules, p.generators.getD []⟩

/-- The kinds of rules. -/
inductive RuleKind where
  | type
  | regex
  | integer
  | decimal
  | null
  | equality
  | includes
  | values
  | arrayContains
  | moment (kind : Moment)
  deriving DecidableEq, Repr

/-- The words of the kinds of rules. -/
def RuleKind.words : List (String × RuleKind) :=
  [("type", .type), ("regex", .regex), ("integer", .integer), ("decimal", .decimal),
    ("null", .null), ("equality", .equality), ("include", .includes), ("values", .values),
    ("arrayContains", .arrayContains), ("date", .moment .date), ("time", .moment .time),
    ("timestamp", .moment .dateTime)]

/-- The bounds of a type rule as far as they have been read. -/
structure RuleBounds where
  min : Option (Option UInt64) := none
  max : Option (Option UInt64) := none

/-- Reads the bounds of a type rule. -/
def RuleBounds.decode (s : Source) : Except Failure RuleBounds :=
  s.asRecord true
    [Source.slot "min" (Source.asOptional Source.asUInt64) RuleBounds.min
      fun a b => { b with min := some a },
     Source.slot "max" (Source.asOptional Source.asUInt64) RuleBounds.max
      fun a b => { b with max := some a }] {}

/-- Reads a rule with at most `levels` rules inside each other. -/
def Rule.decodeFrom : (levels : Nat) → (held : Bool) → Source → Except Failure Rule
  | 0, _, _ => .error .malformed
  | levels + 1, held, s =>
    match s.asTagged held "match" RuleKind.words with
    | .error f => .error f
    | .ok (kind, body) =>
      match kind with
      | .type =>
        (RuleBounds.decode body).map fun b => .type (b.min.getD none) (b.max.getD none)
      | .regex => (body.asSingle true "regex" Source.asText).map Rule.regex
      | .integer => body.asUnit.map fun _ => .integer
      | .decimal => body.asUnit.map fun _ => .decimal
      | .null => body.asUnit.map fun _ => .null
      | .equality => body.asUnit.map fun _ => .equality
      | .includes => (body.asSingle true "value" Source.asText).map Rule.includes
      | .values => body.asUnit.map fun _ => .values
      | .arrayContains =>
        (body.asSingle true "variants"
          (Source.asList (Variant.decodeWith (Rule.decodeFrom levels true) true))).map
          Rule.arrayContains
      | .moment kind => (body.asSingle true "format" Source.asText).map (Rule.moment kind)

/-- Reads a rule. -/
def Rule.decode (held : Bool) (s : Source) : Except Failure Rule :=
  Rule.decodeFrom (s.height + 1) held s

/-- Reads a rule set that stands outside of rules. -/
def RuleSet.decode (held : Bool) (s : Source) : Except Failure RuleSet :=
  RuleSet.decodeWith (Rule.decode held) held false s

/-- Reads a variant. -/
def Variant.decode (held : Bool) (s : Source) : Except Failure Variant :=
  Variant.decodeWith (Rule.decode held) held s

end ConsumerContract
