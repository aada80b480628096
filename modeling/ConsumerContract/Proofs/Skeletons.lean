import ConsumerContract.Proofs.Walk

/-!
# Examples leave no trace in rules

What a walk records is made of the particulars of matchers: patterns, parts, bounds, formats, expressions
and the names of fields. The examples beside them, whole literals and the key of a map's example go into
the body and nowhere else. `Template.skeleton` puts one example in the place of all of them, and
`Template.walk_skeleton` says that the walk of the skeleton leaves the same rules and generators, those of
variants included. So templates with one skeleton are told apart by their bodies only.
-/

namespace ConsumerContract

/-! ### Skeletons -/

mutual

/-- The template with the same example in every place that has one. -/
def Template.skeleton : Template → Template
  | .matcher m => .matcher m.skeleton
  | .object fields => .object (Template.skeletonFields fields)
  | .array items => .array (Template.skeletonItems items)
  | .literal _ => .literal .null

/-- The matcher with the same example in every place that has one. The text that `includes` asks for is
no mere example. -/
def Matcher.skeleton : Matcher → Matcher
  | .like content => .like content.skeleton
  | .regex _ pattern => .regex "" pattern
  | .repeated content min => .repeated content.skeleton min
  | .bounded content min max => .bounded content.skeleton min max
  | .integer _ => .integer 0
  | .decimal _ => .decimal ⟨0⟩
  | .null => .null
  | .equality content => .equality content.skeleton
  | .includes part => .includes part
  | .arrayContaining variants => .arrayContaining (Template.skeletonItems variants)
  | .eachKeyLike _ content => .eachKeyLike "" content.skeleton
  | .fromProviderState expression _ => .fromProviderState expression .null
  | .moment kind _ format => .moment kind "" format
  | .record fields => .record (Template.skeletonFields fields)

/-- The skeleton of every item. -/
def Template.skeletonItems : List Template → List Template
  | [] => []
  | t :: rest => t.skeleton :: Template.skeletonItems rest

/-- The skeleton of every field, under its name. -/
def Template.skeletonFields : List (String × Template) → List (String × Template)
  | [] => []
  | (name, t) :: rest => (name, t.skeleton) :: Template.skeletonFields rest

end

/-! ### The walk of a skeleton -/

open Trail (Agrees)

mutual

/-- The skeleton leaves the rules and generators of the template. -/
theorem Template.walk_skeleton (here : String) : (t : Template) →
    (t.skeleton.walk here).2.Agrees (t.walk here).2
  | .literal _ => .refl _
  | .object fields => by
    rw [Template.skeleton, Template.walk, Template.walk]
    exact Template.walkFields_skeleton here fields
  | .array items => by
    rw [Template.skeleton, Template.walk, Template.walk]
    exact Template.walkItems_skeleton here 0 items
  | .matcher m => m.walk_skeleton here

/-- A matcher and its skeleton leave the same rules and generators. -/
theorem Matcher.walk_skeleton (here : String) : (m : Matcher) →
    (m.skeleton.walk here).2.Agrees (m.walk here).2
  | .like content => by
    rw [Matcher.skeleton, Matcher.walk, Matcher.walk]
    exact (Agrees.visit here rfl rfl).append (content.walk_skeleton here)
  | .equality content => by
    rw [Matcher.skeleton, Matcher.walk, Matcher.walk]
    exact (Agrees.visit here rfl rfl).append (content.walk_skeleton here)
  | .repeated content _ => by
    rw [Matcher.skeleton, Matcher.walk, Matcher.walk]
    exact (Agrees.visit here rfl rfl).append (content.walk_skeleton _)
  | .bounded content _ _ => by
    rw [Matcher.skeleton, Matcher.walk, Matcher.walk]
    exact (Agrees.visit here rfl rfl).append (content.walk_skeleton _)
  | .eachKeyLike _ content => by
    rw [Matcher.skeleton, Matcher.walk, Matcher.walk]
    exact (Agrees.visit here rfl rfl).append (content.walk_skeleton _)
  | .record fields => by
    rw [Matcher.skeleton, Matcher.walk, Matcher.walk]
    exact (Agrees.visit here rfl rfl).append (Template.walkFields_skeleton here fields)
  | .arrayContaining variants => by
    rw [Matcher.skeleton, Matcher.walk, Matcher.walk]
    have resolved := Template.walkVariants_skeleton 0 variants
    have rule : (Matcher.arrayContaining (Template.skeletonItems variants)).ruleWith
          (Template.walkVariants 0 (Template.skeletonItems variants)).1 =
        (Matcher.arrayContaining variants).ruleWith (Template.walkVariants 0 variants).1 :=
      congrArg (some ∘ Rule.arrayContains) resolved
    -- The notices of variants may differ: whether a text looks like an object hangs on the example.
    exact (Agrees.visit here rule rfl).append ⟨rfl, rfl⟩
  | .regex .. | .integer _ | .decimal _ | .null | .includes _ => Agrees.visit here rfl rfl
  | .fromProviderState .. | .moment .. => Agrees.visit here rfl rfl

theorem Template.walkItems_skeleton (here : String) : (i : Nat) → (items : List Template) →
    (Template.walkItems here i (Template.skeletonItems items)).2.Agrees
      (Template.walkItems here i items).2
  | _, [] => .refl _
  | i, t :: rest => by
    rw [Template.skeletonItems, Template.walkItems, Template.walkItems]
    exact (t.walk_skeleton _).append (Template.walkItems_skeleton here (i + 1) rest)

theorem Template.walkFields_skeleton (here : String) : (fields : List (String × Template)) →
    (Template.walkFields here (Template.skeletonFields fields)).2.Agrees
      (Template.walkFields here fields).2
  | [] => .refl _
  | (name, t) :: rest => by
    rw [Template.skeletonFields, Template.walkFields, Template.walkFields]
    exact (t.walk_skeleton _).append (Template.walkFields_skeleton here rest)

/-- The variants of skeletons are those of the items, rule by rule. -/
theorem Template.walkVariants_skeleton : (i : Nat) → (items : List Template) →
    (Template.walkVariants i (Template.skeletonItems items)).1 = (Template.walkVariants i items).1
  | _, [] => rfl
  | i, t :: rest => by
    have first := t.walk_skeleton Path.root
    have more := Template.walkVariants_skeleton (i + 1) rest
    rw [Template.skeletonItems, Template.walkVariants, Template.walkVariants]
    simp only [first.rules, first.generators, more]

end

namespace Template

/-- A template has the rules of its skeleton. -/
theorem rules_skeleton (root : String) (t : Template) :
    (t.skeleton.resolveUnchecked root).value.rules = (t.resolveUnchecked root).value.rules :=
  congrArg Dict.ofList (t.walk_skeleton root).rules

theorem generators_skeleton (root : String) (t : Template) :
    (t.skeleton.resolveUnchecked root).value.generators = (t.resolveUnchecked root).value.generators :=
  congrArg Dict.ofList (t.walk_skeleton root).generators

/-- Templates that differ in examples only are resolved to the same rules and the same generators. -/
theorem resolveUnchecked_of_skeleton_eq {t u : Template} (same : t.skeleton = u.skeleton)
    (root : String) :
    (t.resolveUnchecked root).value.rules = (u.resolveUnchecked root).value.rules ∧
      (t.resolveUnchecked root).value.generators = (u.resolveUnchecked root).value.generators := by
  rw [← t.rules_skeleton, ← t.generators_skeleton, same, u.rules_skeleton, u.generators_skeleton]
  exact ⟨rfl, rfl⟩

end Template

/-! ### A visit -/

namespace Visit

/-- A day, and an array with a literal and a map of letters among its variants; the examples are open. -/
def template (value : Json) (key letter day : String) : Template :=
  .object
    [("any", .matcher (.arrayContaining
      [.literal value, .matcher (.eachKeyLike key (.matcher (.regex letter "[a-z]")))])),
     ("on", .matcher (.moment .date day "yyyy-MM-dd"))]

/-- With other examples the bodies differ, and what is recorded is the same down to the variants. -/
theorem resolveUnchecked_of_skeleton_eq_visit :
    let t := template (.str "a") "k" "x" "2000-01-01"
    let u := template (.obj [("b", .null)]) "0" "y" "1999-12-31"
    t.skeleton = u.skeleton ∧ t.sample ≠ u.sample ∧
      (t.resolveUnchecked "$").value.rules = (u.resolveUnchecked "$").value.rules ∧
      (t.resolveUnchecked "$").value.generators = (u.resolveUnchecked "$").value.generators ∧
      (u.resolveUnchecked "$").value.rules =
        [("$.any", .arrayContains
          [⟨0, [], []⟩, ⟨1, [("$", Rule.values.alone), ("$.*", (Rule.regex "[a-z]").alone)], []⟩]),
         ("$.on", .moment .date "yyyy-MM-dd")] ∧
      (u.resolveUnchecked "$").value.generators = [("$.on", .moment .date "yyyy-MM-dd")] := by
  intro t u
  have same : t.skeleton = u.skeleton := rfl
  obtain ⟨rules, generators⟩ := Template.resolveUnchecked_of_skeleton_eq same "$"
  exact ⟨same, by decide, rules, generators, by rfl, by rfl⟩

end Visit

end ConsumerContract
