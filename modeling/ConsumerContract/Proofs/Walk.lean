import ConsumerContract.Proofs.Paths
import ConsumerContract.Proofs.Templates
import ConsumerContract.Resolution

/-!
# What a resolution records

A walk records the rule and the generator of every position, at the path of its segments less those of
synthetic names, in the order of the positions: `Template.walk_records`. As a later entry takes the
place of an earlier one, the innermost matcher of a place has the last word.
-/

namespace ConsumerContract

/-- The segment shows in paths: it is no field with a synthetic name. -/
def Segment.isVisible : Segment → Bool
  | .field name => !Path.isSynthetic name
  | _ => true

namespace Path

/-- The segments that show in paths. -/
def visible (segments : List Segment) : List Segment :=
  segments.filter Segment.isVisible

/-- A path is extended by a name as far as the name shows. -/
theorem extend_eq_render (parent name : String) :
    extend parent name = render parent (visible [.field name]) := by
  by_cases h : isSynthetic name = true
  · simp [extend, visible, Segment.isVisible, h]
  · simp [extend, visible, Segment.isVisible, h, render, field]

/-- The path of segments is written one segment after the other, as far as they show. -/
theorem render_visible_cons (parent : String) (s : Segment) (segments : List Segment) :
    render parent (visible (s :: segments)) =
      render (render parent (visible [s])) (visible segments) := by
  simp [render, visible, ← List.foldl_append, ← List.filter_append]

/-- Segments whose names all show are all visible. -/
theorem visible_of_forall {segments : List Segment}
    (h : ∀ name, .field name ∈ segments → isSynthetic name = false) :
    visible segments = segments := by
  apply List.filter_eq_self.2
  intro s hs
  cases s with
  | field name => simp [Segment.isVisible, h name hs]
  | index | anyItem | anyValue => rfl

end Path

/-! ### The walk -/

/-- What `value` gives at each of the positions below the path `here`. -/
def Position.entries {α : Type} (here : String) (value : Matcher → Option α)
    (positions : List Position) : List (String × α) :=
  positions.flatMap fun p =>
    Trail.entry (Path.render here (Path.visible p.segments)) (value p.matcher)

/-- The entries of positions one segment further down are those of a walk from there. -/
theorem Position.entries_under {α : Type} (here : String) (value : Matcher → Option α)
    (s : Segment) (positions : List Position) :
    entries here value (positions.map (·.under s)) =
      entries (Path.render here (Path.visible [s])) value positions := by
  rw [entries, entries, List.flatMap_map]
  congr 1
  funext p
  rw [segments_under, matcher_under, Path.render_visible_cons]

/-- The entries of positions are those of one part and then those of the other. -/
theorem Position.entries_append {α : Type} (here : String) (value : Matcher → Option α)
    (as bs : List Position) :
    entries here value (as ++ bs) = entries here value as ++ entries here value bs :=
  List.flatMap_append

/-- The trail holds the rules and the generators of the positions below `here`, in their order. -/
structure Trail.Records (trail : Trail) (here : String) (positions : List Position) : Prop where
  rules : trail.rules = Position.entries here (·.rule.value) positions
  generators : trail.generators = Position.entries here Matcher.generator positions

namespace Trail.Records

theorem nil (here : String) (notices : List Notice) :
    Records { notices := notices } here [] :=
  ⟨rfl, rfl⟩

theorem append {a b : Trail} {here : String} {as bs : List Position} (ha : a.Records here as)
    (hb : b.Records here bs) : (a ++ b).Records here (as ++ bs) where
  rules := by rw [rules_append, ha.rules, hb.rules, Position.entries_append]
  generators := by rw [generators_append, ha.generators, hb.generators, Position.entries_append]

/-- Visiting a matcher records its own position. -/
theorem visit {here : String} {resolved : List Variant} {m : Matcher}
    (h : m.ruleWith resolved = m.rule.value) :
    (Trail.visit here resolved m).Records here [⟨[], m⟩] where
  rules := by simp [Trail.visit, Position.entries, Path.visible, h]
  generators := by simp [Trail.visit, Position.entries, Path.visible]

theorem under {trail : Trail} {here : String} (s : Segment) {positions : List Position}
    (h : trail.Records (Path.render here (Path.visible [s])) positions) :
    trail.Records here (positions.map (·.under s)) where
  rules := h.rules.trans (Position.entries_under here _ s positions).symm
  generators := h.generators.trans (Position.entries_under here _ s positions).symm

end Trail.Records

/-- The trails hold the same rules and the same generators; their notices may differ. -/
structure Trail.Agrees (a b : Trail) : Prop where
  rules : a.rules = b.rules
  generators : a.generators = b.generators

namespace Trail.Agrees

theorem refl (a : Trail) : a.Agrees a :=
  ⟨rfl, rfl⟩

theorem symm {a b : Trail} (h : a.Agrees b) : b.Agrees a :=
  ⟨h.rules.symm, h.generators.symm⟩

theorem trans {a b c : Trail} (h : a.Agrees b) (h' : b.Agrees c) : a.Agrees c :=
  ⟨h.rules.trans h'.rules, h.generators.trans h'.generators⟩

theorem append {a b c d : Trail} (h : a.Agrees b) (h' : c.Agrees d) : (a ++ c).Agrees (b ++ d) where
  rules := by rw [rules_append, rules_append, h.rules, h'.rules]
  generators := by rw [generators_append, generators_append, h.generators, h'.generators]

/-- Visits agree if the matchers have one rule and one generator. -/
theorem visit (here : String) {as bs : List Variant} {m n : Matcher}
    (rule : m.ruleWith as = n.ruleWith bs) (generator : m.generator = n.generator) :
    (Trail.visit here as m).Agrees (Trail.visit here bs n) :=
  ⟨congrArg (Trail.entry here) rule, congrArg (Trail.entry here) generator⟩

end Trail.Agrees

open Trail (Records)

mutual

/-- A walk records what stands at the positions of the template. -/
theorem Template.walk_records (here : String) : (t : Template) →
    (t.walk here).2.Records here t.positions
  | .literal _ => .nil here []
  | .object fields => by
    rw [Template.walk]
    exact Template.walkFields_records here fields
  | .array items => by
    rw [Template.walk]
    exact Template.walkItems_records here 0 items
  | .matcher m => m.walk_records here

/-- A walk through a matcher records it, and then all positions inside. -/
theorem Matcher.walk_records (here : String) : (m : Matcher) →
    (m.walk here).2.Records here (⟨[], m⟩ :: m.inner)
  | .like content => by
    rw [Matcher.walk]
    exact (Records.visit rfl).append (content.walk_records here)
  | .equality content => by
    rw [Matcher.walk]
    exact (Records.visit rfl).append (content.walk_records here)
  | .repeated content _ => by
    rw [Matcher.walk]
    exact (Records.visit rfl).append ((content.walk_records _).under .anyItem)
  | .bounded content _ _ => by
    rw [Matcher.walk]
    exact (Records.visit rfl).append ((content.walk_records _).under .anyItem)
  | .eachKeyLike _ content => by
    rw [Matcher.walk]
    exact (Records.visit rfl).append ((content.walk_records _).under .anyValue)
  | .record fields => by
    rw [Matcher.walk]
    exact (Records.visit rfl).append (Template.walkFields_records here fields)
  | .arrayContaining variants => by
    rw [Matcher.walk]
    exact (Records.visit rfl).append (.nil here _)
  | .regex .. | .integer _ | .decimal _ | .null | .includes _ => Records.visit rfl
  | .fromProviderState .. | .moment .. => Records.visit rfl

theorem Template.walkItems_records (here : String) : (i : Nat) → (items : List Template) →
    (Template.walkItems here i items).2.Records here (Template.itemPositions i items)
  | _, [] => .nil here []
  | i, t :: rest => by
    rw [Template.walkItems]
    exact ((t.walk_records _).under (.index i)).append
      (Template.walkItems_records here (i + 1) rest)

theorem Template.walkFields_records (here : String) : (fields : List (String × Template)) →
    (Template.walkFields here fields).2.Records here (Template.fieldPositions fields)
  | [] => .nil here []
  | (name, t) :: rest => by
    rw [Template.walkFields, Path.extend_eq_render]
    exact ((t.walk_records _).under (.field name)).append
      (Template.walkFields_records here rest)

end

mutual

/-- The body of a walk is the example, wherever it starts. -/
theorem Template.walk_fst (here : String) : (t : Template) → (t.walk here).1 = t.sample
  | .literal _ => rfl
  | .object fields => by
    rw [Template.walk, Template.sample, ← Template.walkFields_fst here fields]
  | .array items => by
    rw [Template.walk, Template.sample, ← Template.walkItems_fst here 0 items]
  | .matcher m => m.walk_fst here

/-- A walk through a matcher makes its example. -/
theorem Matcher.walk_fst (here : String) : (m : Matcher) → (m.walk here).1 = m.sample
  | .like content | .equality content => by
    rw [Matcher.walk, Matcher.sample, ← content.walk_fst here]
  | .repeated content _ | .bounded content _ _ => by
    rw [Matcher.walk, Matcher.sample, ← content.walk_fst (Path.anyItem here)]
  | .eachKeyLike _ content => by
    rw [Matcher.walk, Matcher.sample, ← content.walk_fst (Path.anyValue here)]
  | .record fields => by
    rw [Matcher.walk, Matcher.sample, ← Template.walkFields_fst here fields]
  | .arrayContaining _ | .regex .. | .integer _ | .decimal _ | .null | .includes _ => rfl
  | .fromProviderState .. | .moment .. => rfl

theorem Template.walkItems_fst (here : String) : (i : Nat) → (items : List Template) →
    (Template.walkItems here i items).1 = Template.sampleItems items
  | _, [] => rfl
  | i, t :: rest => by
    rw [Template.walkItems, Template.sampleItems, ← t.walk_fst (Path.index here i),
      ← Template.walkItems_fst here (i + 1) rest]

theorem Template.walkFields_fst (here : String) : (fields : List (String × Template)) →
    (Template.walkFields here fields).1 = Template.sampleFields fields
  | [] => rfl
  | (name, t) :: rest => by
    rw [Template.walkFields, Template.sampleFields, ← t.walk_fst (Path.extend here name),
      ← Template.walkFields_fst here rest]

end

end ConsumerContract
