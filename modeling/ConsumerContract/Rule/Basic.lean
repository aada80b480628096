import ConsumerContract.Version

/-!
# Rules and generators

A rule says how a real value may differ from the example at a path; a generator says how a fresh value
is made there. From version 3 on rules are wrapped into rule sets. The rule of an array that must hold
certain items in any order carries, for each of these *variants*, the rules and generators of the item
itself, with paths that start at the item.
-/

namespace ConsumerContract

/-- Which clock value is meant. -/
inductive Moment where
  | date
  | time
  | dateTime
  deriving DecidableEq, Repr

/-- How a fresh value is made. -/
inductive Generator where
  /-- The current date or time in a format. -/
  | moment (kind : Moment) (format : String)
  /-- A value looked up among the parameters of the provider state. -/
  | providerState (expression : String)
  deriving DecidableEq, Repr

/-- Whether all rules of a set must hold or any of them. -/
inductive Combine where
  | all
  | any
  deriving DecidableEq, Repr

/-- How rules are taken together if nothing else is said. -/
def Combine.standard : Combine :=
  .all

mutual

/-- How a real value may differ from the example. -/
inductive Rule where
  /-- A value of the same type; an array of a bounded length. -/
  | type (min max : Option UInt64)
  /-- A text that a regular expression matches. -/
  | regex (pattern : String)
  | integer
  | decimal
  | null
  /-- The same value. -/
  | equality
  /-- A text that holds another. -/
  | includes (part : String)
  /-- A map with values of one shape, whatever its keys. -/
  | values
  /-- An array with an item for each variant, in any order. -/
  | arrayContains (variants : List Variant)
  /-- A date or time in a format. -/
  | moment (kind : Moment) (format : String)

/-- Rules of one place together. -/
structure RuleSet where
  combine : Combine
  matchers : List Rule

/-- What is asked of one item of an array, and where its example stands. -/
structure Variant where
  index : UInt64
  rules : List (String × RuleSet)
  generators : List (String × Generator)

end

namespace Rule

/-- A value of the same type, of any length. -/
def sameType : Rule :=
  .type none none

/-- An array of at least `min` items. -/
def minType (min : UInt64) : Rule :=
  .type (some min) none

/-- An array of `min` to `max` items. -/
def minMaxType (min max : UInt64) : Rule :=
  .type (some min) (some max)

/-- The set of this rule alone. -/
def alone (r : Rule) : RuleSet :=
  ⟨.standard, [r]⟩

/-- The word that tells the rule's kind in documents. -/
def word : Rule → String
  | .type .. => "type"
  | .regex _ => "regex"
  | .integer => "integer"
  | .decimal => "decimal"
  | .null => "null"
  | .equality => "equality"
  | .includes _ => "include"
  | .values => "values"
  | .arrayContains _ => "arrayContains"
  | .moment .date _ => "date"
  | .moment .time _ => "time"
  | .moment .dateTime _ => "timestamp"

end Rule

/-- The word that tells the generator's kind in documents. -/
def Generator.word : Generator → String
  | .moment .date _ => "Date"
  | .moment .time _ => "Time"
  | .moment .dateTime _ => "DateTime"
  | .providerState _ => "ProviderState"

/-- The rules of one resolution, by path. -/
abbrev Rules :=
  List (String × Rule)

/-- The generators of one resolution, by path. -/
abbrev Generators :=
  List (String × Generator)

/-- Every rule as a set of its own. -/
def Rules.ruleSets (rules : Rules) : List (String × RuleSet) :=
  Dict.mapValues Rule.alone rules

/-- Rules in the shape that a version of the format asks for. -/
inductive RenderedRules where
  /-- One rule a path. -/
  | flat (rules : Rules)
  /-- One rule set a path. -/
  | combined (sets : List (String × RuleSet))

namespace RenderedRules

/-- How many paths have rules. -/
def size : RenderedRules → Nat
  | .flat rules => rules.length
  | .combined sets => sets.length

/-- No path has a rule. -/
def isEmpty (r : RenderedRules) : Bool :=
  r.size == 0

end RenderedRules

/-- The rules in the shape that `version` asks for. -/
def Rules.render (rules : Rules) (version : Version) : RenderedRules :=
  if version.usesRuleSets then .combined rules.ruleSets else .flat rules

/-! ### Equality -/

mutual

/-- Equality of rules, as a check. -/
def Rule.same : Rule → Rule → Bool
  | .type a b, .type c d => a == c && b == d
  | .regex a, .regex b => a == b
  | .integer, .integer | .decimal, .decimal | .null, .null => true
  | .equality, .equality | .values, .values => true
  | .includes a, .includes b => a == b
  | .arrayContains a, .arrayContains b => sameVariants a b
  | .moment a b, .moment c d => a == c && b == d
  | _, _ => false

/-- Equality of variant lists, as a check. -/
def Rule.sameVariants : List Variant → List Variant → Bool
  | [], [] => true
  | ⟨i, r, g⟩ :: as, ⟨j, s, h⟩ :: bs => i == j && sameSets r s && g == h && sameVariants as bs
  | _, _ => false

/-- Equality of dictionaries of rule sets, as a check. -/
def Rule.sameSets : List (String × RuleSet) → List (String × RuleSet) → Bool
  | [], [] => true
  | (k, ⟨c, r⟩) :: as, (l, ⟨d, s⟩) :: bs => k == l && c == d && sameRules r s && sameSets as bs
  | _, _ => false

/-- Equality of rule lists, as a check. -/
def Rule.sameRules : List Rule → List Rule → Bool
  | [], [] => true
  | a :: as, b :: bs => Rule.same a b && sameRules as bs
  | _, _ => false

end

mutual

theorem Rule.same_iff : (a b : Rule) → (same a b = true ↔ a = b)
  | .type .., b => by cases b <;> simp [same]
  | .regex _, b => by cases b <;> simp [same]
  | .integer, b => by cases b <;> simp [same]
  | .decimal, b => by cases b <;> simp [same]
  | .null, b => by cases b <;> simp [same]
  | .equality, b => by cases b <;> simp [same]
  | .includes _, b => by cases b <;> simp [same]
  | .values, b => by cases b <;> simp [same]
  | .arrayContains vs, b => by cases b <;> simp [same, sameVariants_iff vs]
  | .moment .., b => by cases b <;> simp [same]

theorem Rule.sameVariants_iff : (a b : List Variant) → (sameVariants a b = true ↔ a = b)
  | [], b => by cases b <;> simp [sameVariants]
  | ⟨i, r, g⟩ :: as, [] => by simp [sameVariants]
  | ⟨i, r, g⟩ :: as, ⟨j, s, h⟩ :: bs => by
    simp [sameVariants, sameSets_iff r, sameVariants_iff as, and_assoc]

theorem Rule.sameSets_iff : (a b : List (String × RuleSet)) → (sameSets a b = true ↔ a = b)
  | [], b => by cases b <;> simp [sameSets]
  | (k, ⟨c, r⟩) :: as, [] => by simp [sameSets]
  | (k, ⟨c, r⟩) :: as, (l, ⟨d, s⟩) :: bs => by
    simp [sameSets, sameRules_iff r, sameSets_iff as, and_assoc]

theorem Rule.sameRules_iff : (a b : List Rule) → (sameRules a b = true ↔ a = b)
  | [], b => by cases b <;> simp [sameRules]
  | a :: as, [] => by simp [sameRules]
  | a :: as, b :: bs => by simp [sameRules, Rule.same_iff a, sameRules_iff as]

end

instance : DecidableEq Rule := fun a b =>
  decidable_of_iff _ (Rule.same_iff a b)

instance : DecidableEq RuleSet := fun a b =>
  decidable_of_iff (a.combine = b.combine ∧ a.matchers = b.matchers) (by cases a; cases b; simp)

instance : DecidableEq Variant := fun a b =>
  decidable_of_iff (Rule.sameVariants [a] [b] = true) (by simp [Rule.sameVariants_iff])

end ConsumerContract
