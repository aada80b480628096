import ConsumerContract.Json.Source
import ConsumerContract.Path.Basic
import ConsumerContract.Validation

/-!
# Resolution

Resolving a template takes it apart into the bare example and, by path, the rules and generators of its
matchers. One walk does it: it goes down the template together with the path of the place where it
is, and whatever it records at a path later stands in place of what was there before. So the content of
a matcher, which may share the matcher's path, has the last word.

A record or object field adds a segment, unless its name is synthetic; an array item adds its index; the
content of a repeated matcher is walked once, below any item, and that of a map below any value. Each
variant of an array is resolved by itself, from the root.
-/

namespace ConsumerContract

/-- What a walk leaves behind, in the order in which it came upon it. -/
structure Trail where
  rules : List (String × Rule) := []
  generators : List (String × Generator) := []
  notices : List Notice := []

namespace Trail

instance : Append Trail where
  append a b := ⟨a.rules ++ b.rules, a.generators ++ b.generators, a.notices ++ b.notices⟩

@[simp]
theorem rules_append (a b : Trail) : (a ++ b).rules = a.rules ++ b.rules :=
  rfl

@[simp]
theorem generators_append (a b : Trail) : (a ++ b).generators = a.generators ++ b.generators :=
  rfl

@[simp]
theorem notices_append (a b : Trail) : (a ++ b).notices = a.notices ++ b.notices :=
  rfl

/-- What stands at the path `here` because of one value there. -/
def entry {α : Type} (here : String) : Option α → List (String × α)
  | some a => [(here, a)]
  | none => []

/-- What the matcher `m` itself leaves at `here`. -/
def visit (here : String) (variants : List Variant) (m : Matcher) : Trail where
  rules := entry here (m.ruleWith variants)
  generators := entry here m.generator
  notices := [.matcherVisited here m.kind.name]

end Trail

/-- The template is a string that is itself the text of an object. -/
def Template.isObjectText : Template → Bool
  | .literal (.str s) => Json.isObjectText s
  | _ => false

/-- The notices on a template as a whole. -/
def Template.remarks (t : Template) : List Notice :=
  if t.isObjectText then [.textIsObject] else []

mutual

/-- The walk of a template at the path `here`. -/
def Template.walk (here : String) : Template → Json × Trail
  | .literal value => (value, {})
  | .object fields =>
    let (members, trail) := Template.walkFields here fields
    (.obj members, trail)
  | .array items =>
    let (items, trail) := Template.walkItems here 0 items
    (.arr items, trail)
  | .matcher m => m.walk here

/-- The walk of a matcher at the path `here`. -/
def Matcher.walk (here : String) : Matcher → Json × Trail
  | .like content =>
    let (value, trail) := content.walk here
    (value, .visit here [] (.like content) ++ trail)
  | .equality content =>
    let (value, trail) := content.walk here
    (value, .visit here [] (.equality content) ++ trail)
  | .repeated content min =>
    let (value, trail) := content.walk (Path.anyItem here)
    (.arr (List.replicate min.toNat value), .visit here [] (.repeated content min) ++ trail)
  | .bounded content min max =>
    let (value, trail) := content.walk (Path.anyItem here)
    (.arr (List.replicate (Matcher.repetitions min max).toNat value),
      .visit here [] (.bounded content min max) ++ trail)
  | .eachKeyLike key content =>
    let (value, trail) := content.walk (Path.anyValue here)
    (.obj [(key, value)], .visit here [] (.eachKeyLike key content) ++ trail)
  | .record fields =>
    let (members, trail) := Template.walkFields here fields
    (.obj members, .visit here [] (.record fields) ++ trail)
  | .arrayContaining variants =>
    let (resolved, notices) := Template.walkVariants 0 variants
    (.arr (Template.sampleItems variants),
      .visit here resolved (.arrayContaining variants) ++ { notices := notices })
  | .regex sample pattern => (.str sample, .visit here [] (.regex sample pattern))
  | .integer sample => (.int sample.toInt, .visit here [] (.integer sample))
  | .decimal sample => (.float sample, .visit here [] (.decimal sample))
  | .null => (.null, .visit here [] .null)
  | .includes part => (.str part, .visit here [] (.includes part))
  | .fromProviderState expression sample =>
    (sample, .visit here [] (.fromProviderState expression sample))
  | .moment kind sample format => (.str sample, .visit here [] (.moment kind sample format))

/-- The walk of items, the first of them at index `i`. -/
def Template.walkItems (here : String) (i : Nat) : List Template → List Json × Trail
  | [] => ([], {})
  | t :: rest =>
    let (value, trail) := t.walk (Path.index here i)
    let (values, more) := Template.walkItems here (i + 1) rest
    (value :: values, trail ++ more)

/-- The walk of fields. -/
def Template.walkFields (here : String) : List (String × Template) → List (String × Json) × Trail
  | [] => ([], {})
  | (name, t) :: rest =>
    let (value, trail) := t.walk (Path.extend here name)
    let (members, more) := Template.walkFields here rest
    ((name, value) :: members, trail ++ more)

/-- The variants of an array, the first of them at index `i`, each resolved from the root. -/
def Template.walkVariants (i : Nat) : List Template → List Variant × List Notice
  | [] => ([], [])
  | t :: rest =>
    let (_, trail) := t.walk Path.root
    let (variants, more) := Template.walkVariants (i + 1) rest
    (⟨UInt64.ofNat i, Rules.ruleSets (Dict.ofList trail.rules), Dict.ofList trail.generators⟩ ::
        variants,
      t.remarks ++ trail.notices ++ more)

end

/-- The rule of the matcher, if it has one of its own. -/
def Matcher.rule (m : Matcher) : Noted (Option Rule) :=
  match m with
  | .arrayContaining variants =>
    let (resolved, notices) := Template.walkVariants 0 variants
    ⟨m.ruleWith resolved, notices⟩
  | m => pure (m.ruleWith [])

/-- A template taken apart. -/
structure Resolution where
  /-- The example without its matchers. -/
  body : Json
  rules : Rules
  generators : Generators

namespace Template

/-- Takes the template apart, `root` being its path. -/
def resolveUnchecked (root : String) (t : Template) : Noted Resolution :=
  let (body, trail) := t.walk root
  ⟨⟨body, Dict.ofList trail.rules, Dict.ofList trail.generators⟩, t.remarks ++ trail.notices⟩

/-- Takes the template apart after it has been validated for `version`. -/
def resolve (version : Version) (root : String) (t : Template) : Attempt Resolution := do
  t.validate version
  Attempt.ofNoted (t.resolveUnchecked root)

end Template

end ConsumerContract
