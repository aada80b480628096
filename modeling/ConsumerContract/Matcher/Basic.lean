import ConsumerContract.Notice
import ConsumerContract.Rule.Basic

/-!
# Templates and matchers

A template is an example value in which some places carry a matcher: a sample together with the way in
which a real value may differ from it. `Template.sample` is the bare example. The fields of objects and
of matchers stand in ascending order of their names; `Template.ofFields` and `Matcher.ofFields` bring
any list of fields into that form.

A repeated matcher asks for at least one item, so that its sample is never empty. The functions that
build one raise a smaller bound and say so in a notice.
-/

namespace ConsumerContract

mutual

/-- An example value, with matchers at any depth. -/
inductive Template where
  | matcher (m : Matcher)
  | object (fields : List (String × Template))
  | array (items : List Template)
  /-- A value that is meant exactly as it stands. -/
  | literal (value : Json)

/-- A sample, and the way in which a real value may differ from it. -/
inductive Matcher where
  /-- A value of the same type. -/
  | like (content : Template)
  /-- A text that a regular expression matches. -/
  | regex (sample pattern : String)
  /-- An array of at least `min` items like `content`. -/
  | repeated (content : Template) (min : UInt64)
  /-- An array of `min` to `max` items like `content`. -/
  | bounded (content : Template) (min max : UInt64)
  | integer (sample : Int64)
  | decimal (sample : Binary64)
  | null
  /-- The same value, whatever the matchers around it allow. -/
  | equality (content : Template)
  /-- A text that holds another. -/
  | includes (part : String)
  /-- An array that holds, in any order, an item for each variant. -/
  | arrayContaining (variants : List Template)
  /-- A map whose values are all like `content`; the key is that of the sample only. -/
  | eachKeyLike (key : String) (content : Template)
  /-- A value looked up among the parameters of the provider state. -/
  | fromProviderState (expression : String) (sample : Json)
  /-- A date or time in a format. -/
  | moment (kind : Moment) (sample format : String)
  /-- An object whose fields may hold matchers. -/
  | record (fields : List (String × Template))

end

/-- The kinds of matchers. -/
inductive MatcherKind where
  | like
  | regex
  | repeated
  | bounded
  | integer
  | decimal
  | null
  | equality
  | includes
  | arrayContaining
  | eachKeyLike
  | fromProviderState
  | moment (kind : Moment)
  | record
  deriving DecidableEq, Repr

namespace MatcherKind

/-- The name of the kind. -/
def name : MatcherKind → String
  | .like => "like"
  | .regex => "regex"
  | .repeated => "arrayMinLike"
  | .bounded => "arrayMinMaxLike"
  | .integer => "integer"
  | .decimal => "decimal"
  | .null => "null"
  | .equality => "equality"
  | .includes => "includes"
  | .arrayContaining => "arrayContaining"
  | .eachKeyLike => "eachKeyLike"
  | .fromProviderState => "fromProviderState"
  | .moment .date => "dateGenerated"
  | .moment .time => "timeGenerated"
  | .moment .dateTime => "dateTimeGenerated"
  | .record => "struct"

/-- The word for what is compared, which several kinds may share. -/
def comparison : MatcherKind → String
  | .like | .repeated | .bounded | .fromProviderState => "type"
  | .regex => "regex"
  | .integer => "integer"
  | .decimal => "decimal"
  | .null => "null"
  | .equality => "equality"
  | .includes => "include"
  | .arrayContaining => "arrayContains"
  | .eachKeyLike => "values"
  | .moment .date => "date"
  | .moment .time => "time"
  | .moment .dateTime => "timestamp"
  | .record => "struct"

/-- The first version that can express the kind. -/
def since : MatcherKind → Version
  | .like | .regex | .repeated | .record => .v2
  | _ => .v3

end MatcherKind

namespace Matcher

/-- The kind of the matcher. -/
def kind : Matcher → MatcherKind
  | .like _ => .like
  | .regex .. => .regex
  | .repeated .. => .repeated
  | .bounded .. => .bounded
  | .integer _ => .integer
  | .decimal _ => .decimal
  | .null => .null
  | .equality _ => .equality
  | .includes _ => .includes
  | .arrayContaining _ => .arrayContaining
  | .eachKeyLike .. => .eachKeyLike
  | .fromProviderState .. => .fromProviderState
  | .moment kind .. => .moment kind
  | .record _ => .record

/-- How many items the sample of a bounded array has: as many as it may, at least as many as it must. -/
def repetitions (min max : UInt64) : UInt64 :=
  if min < max then max else min

/-- The generator of the matcher. -/
def generator : Matcher → Option Generator
  | .fromProviderState expression _ => some (.providerState expression)
  | .moment kind _ format => some (.moment kind format)
  | _ => none

/-- The rule of the matcher, where `variants` are those of its items if it has any. A record has no
rule of its own. -/
def ruleWith (variants : List Variant) : Matcher → Option Rule
  | .like _ | .fromProviderState .. => some .sameType
  | .regex _ pattern => some (.regex pattern)
  | .repeated _ min => some (.minType min)
  | .bounded _ min max => some (.minMaxType min max)
  | .integer _ => some .integer
  | .decimal _ => some .decimal
  | .null => some .null
  | .equality _ => some .equality
  | .includes part => some (.includes part)
  | .arrayContaining _ => some (.arrayContains variants)
  | .eachKeyLike .. => some .values
  | .moment kind _ format => some (.moment kind format)
  | .record _ => none

end Matcher

/-! ### Samples -/

mutual

/-- The example without its matchers. -/
def Template.sample : Template → Json
  | .matcher m => m.sample
  | .object fields => .obj (Template.sampleFields fields)
  | .array items => .arr (Template.sampleItems items)
  | .literal value => value

/-- The sample, without the matchers inside it. -/
def Matcher.sample : Matcher → Json
  | .like content | .equality content => content.sample
  | .regex sample _ | .moment _ sample _ => .str sample
  | .repeated content min => .arr (List.replicate min.toNat content.sample)
  | .bounded content min max =>
    .arr (List.replicate (Matcher.repetitions min max).toNat content.sample)
  | .integer sample => .int sample.toInt
  | .decimal sample => .float sample
  | .null => .null
  | .includes part => .str part
  | .arrayContaining variants => .arr (Template.sampleItems variants)
  | .eachKeyLike key content => .obj [(key, content.sample)]
  | .fromProviderState _ sample => sample
  | .record fields => .obj (Template.sampleFields fields)

/-- The sample of every item. -/
def Template.sampleItems : List Template → List Json
  | [] => []
  | t :: rest => t.sample :: Template.sampleItems rest

/-- The sample of every field. -/
def Template.sampleFields : List (String × Template) → List (String × Json)
  | [] => []
  | (k, t) :: rest => (k, t.sample) :: Template.sampleFields rest

end

namespace Template

mutual

/-- Some place of the template carries a matcher. -/
def hasMatchers : Template → Bool
  | .matcher _ => true
  | .object fields => fieldsHaveMatchers fields
  | .array items => itemsHaveMatchers items
  | .literal _ => false

/-- Some item carries a matcher. -/
def itemsHaveMatchers : List Template → Bool
  | [] => false
  | t :: rest => t.hasMatchers || itemsHaveMatchers rest

/-- Some field carries a matcher. -/
def fieldsHaveMatchers : List (String × Template) → Bool
  | [] => false
  | (_, t) :: rest => t.hasMatchers || fieldsHaveMatchers rest

end

/-- The object of `fields`; of two with one name the later stays. -/
def ofFields (fields : List (String × Template)) : Template :=
  .object (Dict.ofList fields)

/-- The literal string `s`. -/
def ofString (s : String) : Template :=
  .literal (.str s)

end Template

namespace Matcher

/-- The record of `fields`; of two with one name the later stays. -/
def ofFields (fields : List (String × Template)) : Matcher :=
  .record (Dict.ofList fields)

/-- A least length: at least one. -/
def leastLength (min : Int64) : Noted UInt64 :=
  if min < 1 then do
    Noted.give (.minRaised min)
    pure 1
  else pure min.toUInt64

/-- An array of at least `min` items like `content`, or of one if `min` is smaller. -/
def atLeast (content : Template) (min : Int64) : Noted Matcher := do
  let min ← leastLength min
  pure (.repeated content min)

/-- An array of `min` to `max` items like `content`, or of 1 to `max` if `min` is smaller. -/
def between (content : Template) (min : Int64) (max : UInt64) : Noted Matcher := do
  let min ← leastLength min
  Noted.giveIf (max < min) (.maxBelowMin min max)
  pure (.bounded content min max)

/-- An array of 1 to `max` items like `content`. -/
def atMost (content : Template) (max : UInt64) : Noted Matcher :=
  between content 1 max

end Matcher

end ConsumerContract
