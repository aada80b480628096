import ConsumerContract.Proofs.Alignment
import ConsumerContract.Proofs.Validation

/-!
# Ways of writing a container

An object of plain values may be written as one literal, as an object of literals or as a record, and an
array of plain values as one literal or as an array of literals. `Template.Interchangeable` relates
templates that differ in nothing else: three ways of writing a container anew, closed under every container
and matcher that may stand around one. `Template.Indistinct` is what the related templates share: the
example, the marker JSON, and the rules and generators that a walk leaves wherever it starts. Each way of
writing anew gives indistinct templates, and each container and matcher keeps them so; that
is the whole induction, `Interchangeable.indistinct`.
-/

namespace ConsumerContract

/-- The templates differ in how containers are written, at any number of places. -/
inductive Template.Interchangeable : Template → Template → Prop where
  /-- A literal object is an object of literals. -/
  | literalObject (members : List (String × Json)) :
      Interchangeable (.literal (.obj members)) (.object (Dict.mapValues .literal members))
  /-- A literal array is an array of literals. -/
  | literalArray (items : List Json) :
      Interchangeable (.literal (.arr items)) (.array (items.map .literal))
  /-- An object is a record with its fields. -/
  | objectRecord (fields : List (String × Template)) :
      Interchangeable (.object fields) (.matcher (.record fields))
  | refl (t : Template) : Interchangeable t t
  | symm {t u} : Interchangeable t u → Interchangeable u t
  | trans {t u v} : Interchangeable t u → Interchangeable u v → Interchangeable t v
  | field {t u} (before : List (String × Template)) (name : String)
      (after : List (String × Template)) : Interchangeable t u →
      Interchangeable (.object (before ++ (name, t) :: after)) (.object (before ++ (name, u) :: after))
  | item {t u} (before after : List Template) : Interchangeable t u →
      Interchangeable (.array (before ++ t :: after)) (.array (before ++ u :: after))
  | like {t u} : Interchangeable t u → Interchangeable (.matcher (.like t)) (.matcher (.like u))
  | equality {t u} : Interchangeable t u →
      Interchangeable (.matcher (.equality t)) (.matcher (.equality u))
  | repeated {t u} (min : UInt64) : Interchangeable t u →
      Interchangeable (.matcher (.repeated t min)) (.matcher (.repeated u min))
  | bounded {t u} (min max : UInt64) : Interchangeable t u →
      Interchangeable (.matcher (.bounded t min max)) (.matcher (.bounded u min max))
  | eachKeyLike {t u} (key : String) : Interchangeable t u →
      Interchangeable (.matcher (.eachKeyLike key t)) (.matcher (.eachKeyLike key u))
  | variant {t u} (before after : List Template) : Interchangeable t u →
      Interchangeable (.matcher (.arrayContaining (before ++ t :: after)))
        (.matcher (.arrayContaining (before ++ u :: after)))
  | recordField {t u} (before : List (String × Template)) (name : String)
      (after : List (String × Template)) : Interchangeable t u →
      Interchangeable (.matcher (.record (before ++ (name, t) :: after)))
        (.matcher (.record (before ++ (name, u) :: after)))

/-- The templates have one example and one marker JSON, and leave the same rules and generators wherever
they stand. -/
structure Template.Indistinct (t u : Template) : Prop where
  sample : t.sample = u.sample
  marker : t.marker = u.marker
  trail : ∀ here, (t.walk here).2.Agrees (u.walk here).2

open Trail (Agrees)

namespace Template

/-! ### Ways of writing -/

/-- Literals leave no trace. -/
theorem walkItems_literals (here : String) (i : Nat) (items : List Json) :
    (walkItems here i (items.map .literal)).2.Agrees {} := by
  induction items generalizing i with
  | nil => exact .refl _
  | cons v rest ih =>
    rw [List.map_cons, walkItems]
    exact (Agrees.refl {}).append (ih (i + 1))

/-- Literal fields leave neither rules nor generators. -/
theorem walkFields_literals (here : String) (members : List (String × Json)) :
    (walkFields here (Dict.mapValues .literal members)).2.Agrees {} := by
  induction members with
  | nil => exact .refl _
  | cons e rest ih => exact (Agrees.refl {}).append ih

/-- An object given as one literal is not told from one of literal fields. -/
theorem indistinct_literalObject (members : List (String × Json)) :
    (literal (.obj members)).Indistinct (.object (Dict.mapValues .literal members)) where
  sample := by
    rw [sample, sample, sampleFields_eq]
    simp [Dict.mapValues, Function.comp_def, sample]
  marker := by
    rw [marker, marker, markFields_eq]
    simp [Dict.mapValues, Function.comp_def, marker]
  trail here := by
    rw [walk, walk]
    exact (walkFields_literals here members).symm

/-- An array given as one literal is not told from one of literal items. -/
theorem indistinct_literalArray (items : List Json) :
    (literal (.arr items)).Indistinct (.array (items.map .literal)) where
  sample := by
    rw [sample, sample, sampleItems_eq]
    simp [Function.comp_def, sample]
  marker := by
    rw [marker, marker, markItems_eq]
    simp [Function.comp_def, marker]
  trail here := by
    rw [walk, walk]
    exact (walkItems_literals here 0 items).symm

/-- An object is not told from a record of the same fields. -/
theorem indistinct_objectRecord (fields : List (String × Template)) :
    (object fields).Indistinct (.matcher (.record fields)) where
  sample := rfl
  marker := rfl
  trail here := by
    rw [walk, walk, Matcher.walk]
    exact ⟨rfl, rfl⟩

namespace Indistinct

theorem symm {t u : Template} (h : t.Indistinct u) : u.Indistinct t :=
  ⟨h.sample.symm, h.marker.symm, fun here => (h.trail here).symm⟩

theorem trans {t u v : Template} (h : t.Indistinct u) (h' : u.Indistinct v) : t.Indistinct v :=
  ⟨h.sample.trans h'.sample, h.marker.trans h'.marker,
    fun here => (h.trail here).trans (h'.trail here)⟩

/-! ### Around a part -/

section

variable {t u : Template} (h : t.Indistinct u)
include h

theorem walkItems (here : String) (i : Nat) (before after : List Template) :
    (Template.walkItems here i (before ++ t :: after)).2.Agrees
      (Template.walkItems here i (before ++ u :: after)).2 := by
  induction before generalizing i with
  | nil => exact (h.trail _).append (.refl _)
  | cons first rest ih => exact (Agrees.refl _).append (ih (i + 1))

theorem walkFields (here : String) (before : List (String × Template)) (name : String)
    (after : List (String × Template)) :
    (Template.walkFields here (before ++ (name, t) :: after)).2.Agrees
      (Template.walkFields here (before ++ (name, u) :: after)).2 := by
  induction before with
  | nil => exact (h.trail _).append (.refl _)
  | cons first rest ih => exact (Agrees.refl _).append ih

/-- A variant is made of what its item leaves below the root. -/
theorem walkVariants (i : Nat) (before after : List Template) :
    (Template.walkVariants i (before ++ t :: after)).1 =
      (Template.walkVariants i (before ++ u :: after)).1 := by
  have below := h.trail Path.root
  induction before generalizing i with
  | nil =>
    rw [List.nil_append, List.nil_append, Template.walkVariants, Template.walkVariants]
    simp only [below.rules, below.generators]
  | cons first rest ih =>
    rw [List.cons_append, List.cons_append, Template.walkVariants, Template.walkVariants]
    simp only [ih (i + 1)]

theorem sampleItems (before after : List Template) :
    Template.sampleItems (before ++ t :: after) = Template.sampleItems (before ++ u :: after) := by
  simp only [sampleItems_eq, List.map_append, List.map_cons, h.sample]

theorem markItems (before after : List Template) :
    Template.markItems (before ++ t :: after) = Template.markItems (before ++ u :: after) := by
  simp only [markItems_eq, List.map_append, List.map_cons, h.marker]

theorem sampleFields (before : List (String × Template)) (name : String)
    (after : List (String × Template)) :
    Template.sampleFields (before ++ (name, t) :: after) =
      Template.sampleFields (before ++ (name, u) :: after) := by
  simp only [sampleFields_eq, Dict.mapValues, List.map_append, List.map_cons, h.sample]

theorem markFields (before : List (String × Template)) (name : String)
    (after : List (String × Template)) :
    Template.markFields (before ++ (name, t) :: after) =
      Template.markFields (before ++ (name, u) :: after) := by
  simp only [markFields_eq, Dict.mapValues, List.map_append, List.map_cons, h.marker]

theorem object (before : List (String × Template)) (name : String)
    (after : List (String × Template)) :
    (Template.object (before ++ (name, t) :: after)).Indistinct
      (.object (before ++ (name, u) :: after)) where
  sample := congrArg Json.obj (h.sampleFields before name after)
  marker := congrArg Json.obj (h.markFields before name after)
  trail here := h.walkFields here before name after

theorem array (before after : List Template) :
    (Template.array (before ++ t :: after)).Indistinct (.array (before ++ u :: after)) where
  sample := congrArg Json.arr (h.sampleItems before after)
  marker := congrArg Json.arr (h.markItems before after)
  trail here := h.walkItems here 0 before after

theorem like : (Template.matcher (.like t)).Indistinct (.matcher (.like u)) where
  sample := h.sample
  marker := by simp only [Template.marker, Matcher.marker, h.marker]
  trail here := (Agrees.visit here rfl rfl).append (h.trail here)

theorem equality : (Template.matcher (.equality t)).Indistinct (.matcher (.equality u)) where
  sample := h.sample
  marker := by simp only [Template.marker, Matcher.marker, h.marker]
  trail here := (Agrees.visit here rfl rfl).append (h.trail here)

theorem repeated (min : UInt64) :
    (Template.matcher (.repeated t min)).Indistinct (.matcher (.repeated u min)) where
  sample := by simp only [Template.sample, Matcher.sample, h.sample]
  marker := by simp only [Template.marker, Matcher.marker, h.marker]
  trail here := (Agrees.visit here rfl rfl).append (h.trail _)

theorem bounded (min max : UInt64) :
    (Template.matcher (.bounded t min max)).Indistinct (.matcher (.bounded u min max)) where
  sample := by simp only [Template.sample, Matcher.sample, h.sample]
  marker := by simp only [Template.marker, Matcher.marker, h.marker]
  trail here := (Agrees.visit here rfl rfl).append (h.trail _)

theorem eachKeyLike (key : String) :
    (Template.matcher (.eachKeyLike key t)).Indistinct (.matcher (.eachKeyLike key u)) where
  sample := by simp only [Template.sample, Matcher.sample, h.sample]
  marker := by simp only [Template.marker, Matcher.marker, h.marker]
  trail here := (Agrees.visit here rfl rfl).append (h.trail _)

theorem arrayContaining (before after : List Template) :
    (Template.matcher (.arrayContaining (before ++ t :: after))).Indistinct
      (.matcher (.arrayContaining (before ++ u :: after))) where
  sample := congrArg Json.arr (h.sampleItems before after)
  marker := by simp only [Template.marker, Matcher.marker, h.markItems before after]
  trail here := by
    have rule : (Matcher.arrayContaining (before ++ t :: after)).ruleWith
          (Template.walkVariants 0 (before ++ t :: after)).1 =
        (Matcher.arrayContaining (before ++ u :: after)).ruleWith
          (Template.walkVariants 0 (before ++ u :: after)).1 :=
      congrArg (some ∘ Rule.arrayContains) (h.walkVariants 0 before after)
    rw [Template.walk, Template.walk, Matcher.walk, Matcher.walk]
    exact (Agrees.visit here rule rfl).append ⟨rfl, rfl⟩

theorem record (before : List (String × Template)) (name : String)
    (after : List (String × Template)) :
    (Template.matcher (.record (before ++ (name, t) :: after))).Indistinct
      (.matcher (.record (before ++ (name, u) :: after))) where
  sample := congrArg Json.obj (h.sampleFields before name after)
  marker := congrArg Json.obj (h.markFields before name after)
  trail here := (Agrees.visit here rfl rfl).append (h.walkFields here before name after)

end

end Indistinct

/-- What may be interchanged is not told apart. -/
theorem Interchangeable.indistinct {t u : Template} (h : t.Interchangeable u) : t.Indistinct u := by
  induction h with
  | literalObject members => exact indistinct_literalObject members
  | literalArray items => exact indistinct_literalArray items
  | objectRecord fields => exact indistinct_objectRecord fields
  | refl t => exact ⟨rfl, rfl, fun here => .refl _⟩
  | symm _ ih => exact ih.symm
  | trans _ _ ih ih' => exact ih.trans ih'
  | field before name after _ ih => exact ih.object before name after
  | item before after _ ih => exact ih.array before after
  | like _ ih => exact ih.like
  | equality _ ih => exact ih.equality
  | repeated min _ ih => exact ih.repeated min
  | bounded min max _ ih => exact ih.bounded min max
  | eachKeyLike key _ ih => exact ih.eachKeyLike key
  | variant before after _ ih => exact ih.arrayContaining before after
  | recordField before name after _ ih => exact ih.record before name after

/-- What is not told apart has one resolution at every root. -/
theorem Indistinct.resolveUnchecked_eq {t u : Template} (h : t.Indistinct u) (root : String) :
    (t.resolveUnchecked root).value = (u.resolveUnchecked root).value := by
  have body : (t.walk root).1 = (u.walk root).1 := by rw [t.walk_fst, u.walk_fst, h.sample]
  simp only [resolveUnchecked, body, (h.trail root).rules, (h.trail root).generators]

/-- However its containers are written, a template has one resolution at each root, one marker JSON, and
one verdict of each version. -/
theorem resolveUnchecked_of_interchangeable {t u : Template} (h : t.Interchangeable u) :
    (∀ root, (t.resolveUnchecked root).value = (u.resolveUnchecked root).value) ∧
      t.marker = u.marker ∧ ∀ version, t.validate version = u.validate version := by
  refine ⟨h.indistinct.resolveUnchecked_eq, h.indistinct.marker, ?_⟩
  intro version
  rw [validate, validate, h.indistinct.marker]

/-- An object inside a repeated variant, as one literal and as a record with an array of literals. -/
theorem resolveUnchecked_of_interchangeable_variant :
    ∃ t u,
      t = Template.matcher (.arrayContaining [.matcher (.null), .matcher (.repeated
        (.literal (.obj [("a", .arr [.bool true]), ("b", .null)])) 2)]) ∧
      u = Template.matcher (.arrayContaining [.matcher (.null), .matcher (.repeated
        (.matcher (.record [("a", .array [.literal (.bool true)]), ("b", .literal .null)])) 2)]) ∧
      t.Interchangeable u ∧
      (t.resolveUnchecked "$").value = (u.resolveUnchecked "$").value ∧ t.marker = u.marker ∧
      t.validate .v2 = u.validate .v2 ∧
      (u.validate .v2).result =
        .error (.specificationMismatch .v2 ["arrayContains", "null"]) := by
  refine ⟨_, _, rfl, rfl, ?_⟩
  have spelled : (Template.literal (.obj [("a", .arr [.bool true]), ("b", .null)])).Interchangeable
      (.matcher (.record [("a", .array [.literal (.bool true)]), ("b", .literal .null)])) :=
    (Interchangeable.literalObject [("a", .arr [.bool true]), ("b", .null)]).trans
      ((Interchangeable.field [] "a" [("b", .literal .null)] (.literalArray [.bool true])).trans
        (.objectRecord [("a", .array [.literal (.bool true)]), ("b", .literal .null)]))
  have inside := Interchangeable.variant [.matcher .null] [] (spelled.repeated 2)
  obtain ⟨resolved, marked, judged⟩ := resolveUnchecked_of_interchangeable inside
  exact ⟨inside, resolved "$", marked, judged .v2, by rfl⟩

end Template

end ConsumerContract
