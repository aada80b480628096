import ConsumerContract.Proofs.Walk

/-!
# A resolution is exact

A resolution holds a rule at the path of every matcher that is no record, a generator at the path of
every matcher that makes fresh values, and nothing else. Where several matchers share a place, because
the content of `like` and `equality` stands where they stand, the innermost of them decides:
`Template.Innermost`. As positions stand outer before inner, it is the last of its place
(`Innermost.isLast`), and the last entry of a path is the one that stays.
-/

namespace ConsumerContract

/-! ### Which matchers record what -/

namespace Matcher

/-- The matcher is of a kind that makes a fresh value. -/
def makesValue (m : Matcher) : Bool :=
  match m.kind with
  | .fromProviderState | .moment _ => true
  | _ => false

/-- Only records have no rule. -/
theorem rule_eq_none_iff {m : Matcher} : m.rule.value = none ↔ m.kind = .record := by
  cases m <;> simp [rule, ruleWith, kind]

theorem rule_eq_none {m : Matcher} (h : m.kind = .record) : m.rule.value = none :=
  rule_eq_none_iff.2 h

theorem exists_rule {m : Matcher} (h : m.kind ≠ .record) : ∃ r, m.rule.value = some r :=
  Option.ne_none_iff_exists'.1 (mt rule_eq_none_iff.1 h)

/-- The matchers with a generator are those that make a value. -/
theorem generator_isSome (m : Matcher) : m.generator.isSome = m.makesValue := by
  cases m <;> rfl

theorem generator_eq_none {m : Matcher} (h : m.kind = .record) : m.generator = none := by
  cases m <;> first | rfl | cases h

/-- A matcher that makes fresh values holds no other. -/
theorem inner_of_makesValue {m : Matcher} (h : m.makesValue = true) : m.inner = [] := by
  cases m <;> first | rfl | cases h

theorem kind_ne_record_of_makesValue {m : Matcher} (h : m.makesValue = true) :
    m.kind ≠ .record := by
  intro same
  simp [makesValue, same] at h

end Matcher

/-! ### The innermost matcher of a place -/

/-- No matcher inside `m`, records apart, stands where `m` itself stands. -/
def Matcher.IsInnermost (m : Matcher) : Prop :=
  m.kind ≠ .record ∧ ∀ p ∈ m.inner, p.segments = [] → p.matcher.kind = .record

/-- `m` is the innermost matcher at the place `s`, records apart. -/
def Template.Innermost (t : Template) (s : List Segment) (m : Matcher) : Prop :=
  t.HoldsAt s m ∧ m.IsInnermost

namespace Position

/-- After `p` only records stand at its place. -/
def IsLast (p : Position) (positions : List Position) : Prop :=
  ∃ before after, positions = before ++ p :: after ∧
    ∀ q ∈ after, q.segments = p.segments → q.matcher.kind = .record

/-- What comes last of some positions comes last of them one segment further down. -/
theorem IsLast.under {p : Position} {positions : List Position} (h : p.IsLast positions)
    (s : Segment) : (p.under s).IsLast (positions.map (·.under s)) := by
  obtain ⟨before, after, rfl, records⟩ := h
  refine ⟨before.map (·.under s), after.map (·.under s), by simp, ?_⟩
  intro q hq same
  obtain ⟨r, hr, rfl⟩ := List.mem_map.1 hq
  exact records r hr (List.cons.inj same).2

theorem IsLast.append_right {p : Position} {bs : List Position} (h : p.IsLast bs)
    (as : List Position) : p.IsLast (as ++ bs) := by
  obtain ⟨before, after, rfl, records⟩ := h
  exact ⟨as ++ before, after, (List.append_assoc ..).symm, records⟩

theorem IsLast.append_left {p : Position} {as bs : List Position} (h : p.IsLast as)
    (elsewhere : ∀ q ∈ bs, q.segments ≠ p.segments) : p.IsLast (as ++ bs) := by
  obtain ⟨before, after, rfl, records⟩ := h
  refine ⟨before, after ++ bs, by simp, ?_⟩
  intro q hq same
  rcases List.mem_append.1 hq with hq | hq
  · exact records q hq same
  · exact absurd same (elsewhere q hq)

/-- A place has one last position. -/
theorem IsLast.unique {p q : Position} {positions : List Position} (hp : p.IsLast positions)
    (hq : q.IsLast positions) (same : p.segments = q.segments)
    (hpk : p.matcher.kind ≠ .record) (hqk : q.matcher.kind ≠ .record) : p = q := by
  let keep : Position → Bool := fun r =>
    decide (r.segments = p.segments) && decide (r.matcher.kind ≠ .record)
  have last {r : Position} (hr : r.IsLast positions) (hseg : r.segments = p.segments)
      (hkind : r.matcher.kind ≠ .record) : (positions.filter keep).getLast? = some r := by
    obtain ⟨before, after, rfl, records⟩ := hr
    have kept : keep r = true := by simp [keep, hseg, hkind]
    have dropped : after.filter keep = [] := by
      apply List.filter_eq_nil_iff.2
      intro a ha
      have record := records a ha
      simp only [keep, Bool.and_eq_true, decide_eq_true_eq, not_and, Decidable.not_not, ← hseg]
      exact record
    rw [List.filter_append, List.filter_cons_of_pos kept, dropped]
    simp
  have := (last hp rfl hpk).symm.trans (last hq same.symm hqk)
  exact Option.some.inj this

end Position

open Position (IsLast)

mutual

/-- In the order of a walk, an innermost matcher is the last one at its place. -/
theorem Template.isLast_of_isInnermost : (t : Template) → t.WellFormed →
    ∀ p ∈ t.positions, p.matcher.IsInnermost → p.IsLast t.positions
  | .literal _, _, _, h, _ => absurd h List.not_mem_nil
  | .object fields, wf, p, h, inner =>
    Template.isLast_fields fields wf.1 wf.2 p h inner
  | .array items, wf, p, h, inner => Template.isLast_items 0 items wf.2 p h inner
  | .matcher m, wf, p, h, inner => by
    rcases List.mem_cons.1 h with rfl | h
    · exact ⟨[], m.inner, rfl, inner.2⟩
    · exact (m.isLast_inner wf.1 wf.2 p h inner).append_right [_]

theorem Matcher.isLast_inner : (m : Matcher) → Template.InOrder (.matcher m) →
    m.Inside Template.InOrder → ∀ p ∈ m.inner, p.matcher.IsInnermost → p.IsLast m.inner
  | .like content, _, wf, p, h, inner => content.isLast_of_isInnermost wf p h inner
  | .equality content, _, wf, p, h, inner => content.isLast_of_isInnermost wf p h inner
  | .repeated content _, _, wf, p, h, inner => by
    obtain ⟨q, hq, rfl⟩ := List.mem_map.1 h
    exact (content.isLast_of_isInnermost wf q hq inner).under .anyItem
  | .bounded content _ _, _, wf, p, h, inner => by
    obtain ⟨q, hq, rfl⟩ := List.mem_map.1 h
    exact (content.isLast_of_isInnermost wf q hq inner).under .anyItem
  | .eachKeyLike _ content, _, wf, p, h, inner => by
    obtain ⟨q, hq, rfl⟩ := List.mem_map.1 h
    exact (content.isLast_of_isInnermost wf q hq inner).under .anyValue
  | .record fields, ordered, wf, p, h, inner =>
    Template.isLast_fields fields ordered wf p h inner
  | .regex .., _, _, _, h, _ | .integer _, _, _, _, h, _ | .decimal _, _, _, _, h, _
  | .null, _, _, _, h, _ | .includes _, _, _, _, h, _ | .arrayContaining _, _, _, _, h, _
  | .fromProviderState .., _, _, _, h, _ | .moment .., _, _, _, h, _ => absurd h List.not_mem_nil

theorem Template.isLast_items : (i : Nat) → (items : List Template) →
    Template.EveryItem Template.InOrder items →
    ∀ p ∈ Template.itemPositions i items, p.matcher.IsInnermost →
      p.IsLast (Template.itemPositions i items)
  | _, [], _, _, h, _ => absurd h List.not_mem_nil
  | i, t :: rest, wf, p, h, inner => by
    rcases List.mem_append.1 h with h | h
    · obtain ⟨q, hq, rfl⟩ := List.mem_map.1 h
      have last := t.isLast_of_isInnermost wf.1 q hq inner
      apply (last.under (.index i)).append_left
      intro r hr same
      obtain ⟨j, _, _, s, hs, _⟩ := Template.holdsAt_of_mem_items (i + 1) rest hr
      rw [hs] at same
      have : i + 1 + j = i := Segment.index.inj (List.cons.inj same).1
      omega
    · exact (Template.isLast_items (i + 1) rest wf.2 p h inner).append_right _

theorem Template.isLast_fields : (fields : List (String × Template)) → Dict.Ordered fields →
    Template.EveryField Template.InOrder fields →
    ∀ p ∈ Template.fieldPositions fields, p.matcher.IsInnermost →
      p.IsLast (Template.fieldPositions fields)
  | [], _, _, _, h, _ => absurd h List.not_mem_nil
  | (name, t) :: rest, ordered, wf, p, h, inner => by
    obtain ⟨above, tail⟩ := Dict.ordered_cons.1 ordered
    rcases List.mem_append.1 h with h | h
    · obtain ⟨q, hq, rfl⟩ := List.mem_map.1 h
      have last := t.isLast_of_isInnermost wf.1 q hq inner
      apply (last.under (.field name)).append_left
      intro r hr same
      obtain ⟨other, u, hother, s, hs, _⟩ := Template.holdsAt_of_mem_fields rest hr
      rw [hs] at same
      have twice : other = name := Segment.field.inj (List.cons.inj same).1
      exact Std.lt_irrefl (twice ▸ above (other, u) hother)
    · exact (Template.isLast_fields rest tail wf.2 p h inner).append_right _

end

/-- A matcher that shares the place of the one around it is the smaller of the two. -/
theorem Matcher.sizeOf_lt_of_mem_inner {m : Matcher} {p : Position} (h : p ∈ m.inner)
    (here : p.segments = []) : sizeOf p.matcher < sizeOf m := by
  cases m with
  | like content | equality content =>
    have := Template.sizeOf_le_of_holdsAt (content.holdsAt_of_mem h)
    simp
    omega
  | repeated content | bounded content | eachKeyLike _ content =>
    obtain ⟨q, _, rfl⟩ := List.mem_map.1 h
    cases here
  | record fields =>
    obtain ⟨_, _, _, s, hs, _⟩ := Template.holdsAt_of_mem_fields fields h
    cases here.symm.trans hs
  | _ => exact absurd h List.not_mem_nil

namespace Template

/-- The innermost matcher of a place comes last of those there. -/
theorem Innermost.isLast {t : Template} (wf : t.WellFormed) {s : List Segment} {m : Matcher}
    (h : t.Innermost s m) : IsLast ⟨s, m⟩ t.positions :=
  t.isLast_of_isInnermost wf ⟨s, m⟩ (mem_of_holdsAt h.1) h.2

/-- A place has one innermost matcher at most. -/
theorem Innermost.unique {t : Template} (wf : t.WellFormed) {s : List Segment} {m n : Matcher}
    (hm : t.Innermost s m) (hn : t.Innermost s n) : m = n :=
  congrArg Position.matcher ((hm.isLast wf).unique (hn.isLast wf) rfl hm.2.1 hn.2.1)

/-- Every matcher but a record has an innermost one at its own place. -/
theorem exists_isInnermost (m : Matcher) (h : m.kind ≠ .record) :
    ∃ n, (Template.matcher m).HoldsAt [] n ∧ n.IsInnermost := by
  by_cases last : ∃ p ∈ m.inner, p.segments = [] ∧ p.matcher.kind ≠ .record
  · obtain ⟨p, hp, here, other⟩ := last
    have smaller : sizeOf p.matcher < sizeOf m := Matcher.sizeOf_lt_of_mem_inner hp here
    obtain ⟨n, hn, inner⟩ := exists_isInnermost p.matcher other
    have found := m.holdsAt_of_mem_inner hp
    rw [here] at found
    exact ⟨n, found.trans hn, inner⟩
  · refine ⟨m, .here m, h, ?_⟩
    intro p hp here
    by_cases record : p.matcher.kind = .record
    · exact record
    · exact absurd ⟨p, hp, here, record⟩ last
termination_by sizeOf m

/-- Every place of a matcher, records apart, has an innermost one. -/
theorem HoldsAt.exists_innermost {t : Template} {s : List Segment} {m : Matcher}
    (found : t.HoldsAt s m) (h : m.kind ≠ .record) : ∃ n, t.Innermost s n := by
  obtain ⟨n, hn, inner⟩ := exists_isInnermost m h
  have place := found.trans hn
  rw [List.append_nil] at place
  exact ⟨n, place, inner⟩

end Template

/-! ### What the dictionaries hold -/

namespace Position

variable {α : Type} {value : Matcher → Option α}

/-- The entries of a walk are the values of matchers at the paths of their positions. -/
theorem mem_entries_iff {here : String} {positions : List Position} {e : String × α} :
    e ∈ entries here value positions ↔
      ∃ p ∈ positions, value p.matcher = some e.2 ∧
        e.1 = Path.render here (Path.visible p.segments) := by
  rw [entries, List.mem_flatMap]
  apply exists_congr
  intro p
  apply and_congr_right
  intro _
  cases h : value p.matcher with
  | none => simp [Trail.entry]
  | some a =>
    obtain ⟨path, b⟩ := e
    simp [Trail.entry, eq_comm, and_comm]

end Position

namespace Template

open Position (entries mem_entries_iff)

/-- Every name on the way to a matcher adds a segment. -/
def ShowsNames (t : Template) : Prop :=
  ∀ s m, t.HoldsAt s m → ∀ name, .field name ∈ s → Path.isSynthetic name = false

/-- Where each field has a segment of its own, names show. -/
theorem ShowsNames.of_everywhere {t : Template} (places : t.Everywhere IsAddressable) : t.ShowsNames :=
  fun _ _ found _ shown => found.isReal places _ shown

/-- Where names show, no segment of a position is left out of its path. -/
theorem ShowsNames.visible {t : Template} (names : t.ShowsNames) {p : Position}
    (hp : p ∈ t.positions) : Path.visible p.segments = p.segments :=
  Path.visible_of_forall (names p.segments p.matcher (mem_positions_iff.1 hp))

section

variable {α : Type} {value : Matcher → Option α} {t : Template}

/-- There is an entry at a path exactly if it is that of a matcher with a value. -/
theorem has_entries_iff (names : t.ShowsNames) {here path : String} :
    Dict.has path (Dict.ofList (entries here value t.positions)) = true ↔
      ∃ s m, t.HoldsAt s m ∧ (value m).isSome = true ∧ path = Path.render here s := by
  rw [Dict.has_ofList_iff]
  constructor
  · rintro ⟨e, he, rfl⟩
    obtain ⟨p, hp, hv, place⟩ := mem_entries_iff.1 he
    rw [names.visible hp] at place
    exact ⟨p.segments, p.matcher, mem_positions_iff.1 hp, by rw [hv]; rfl, place⟩
  · rintro ⟨s, m, found, hv, rfl⟩
    obtain ⟨a, hv⟩ := Option.isSome_iff_exists.1 hv
    have hp : ⟨s, m⟩ ∈ t.positions := mem_positions_iff.2 found
    refine ⟨(Path.render here s, a), mem_entries_iff.2 ⟨_, hp, hv, ?_⟩, rfl⟩
    rw [names.visible hp]

/-- The value of the last matcher of a place is the one that stays. -/
theorem get?_entries_of_isLast (names : t.ShowsNames) (records : ∀ m, m.kind = .record → value m = none)
    {here : String} {s : List Segment} {m : Matcher} (last : IsLast ⟨s, m⟩ t.positions) {a : α}
    (hv : value m = some a) :
    Dict.get? (Path.render here s) (Dict.ofList (entries here value t.positions)) = some a := by
  obtain ⟨before, after, split, later⟩ := last
  have hp : ⟨s, m⟩ ∈ t.positions := by rw [split]; simp
  have middle : entries here value [⟨s, m⟩] = [(Path.render here s, a)] := by
    simp [entries, hv, Trail.entry, names.visible hp]
  have shape : entries here value t.positions =
      entries here value before ++ (Path.render here s, a) :: entries here value after := by
    rw [split, Position.entries_append, ← List.singleton_append, Position.entries_append, middle]
    rfl
  rw [shape]
  apply Dict.get?_ofList_split
  intro e he same
  obtain ⟨q, hq, some, place⟩ := mem_entries_iff.1 he
  have hqt : q ∈ t.positions := by rw [split]; simp [hq]
  rw [names.visible hqt] at place
  have there : q.segments = s := Path.render_injective here (place.symm.trans same)
  have none := records q.matcher (later q hq there)
  rw [some] at none
  cases none

end

/-- The variants of an array, each taken apart by itself, under their indices. -/
def resolvedVariants (items : List Template) : List Variant :=
  items.mapIdx fun i v =>
    ⟨UInt64.ofNat i, (v.resolveUnchecked Path.root).value.rules.ruleSets,
      (v.resolveUnchecked Path.root).value.generators⟩

/-- A variant is the resolution of its item by itself, under the index of the item. -/
theorem walkVariants_eq (i : Nat) (items : List Template) :
    (walkVariants i items).1 = items.mapIdx fun j v =>
      ⟨UInt64.ofNat (i + j), (v.resolveUnchecked Path.root).value.rules.ruleSets,
        (v.resolveUnchecked Path.root).value.generators⟩ := by
  induction items generalizing i with
  | nil => rfl
  | cons v rest ih =>
    have step : (walkVariants i (v :: rest)).1 =
        ⟨UInt64.ofNat i, (v.resolveUnchecked Path.root).value.rules.ruleSets,
          (v.resolveUnchecked Path.root).value.generators⟩ :: (walkVariants (i + 1) rest).1 := by
      rw [walkVariants]
      rfl
    rw [step, List.mapIdx_cons, ih (i + 1)]
    simp [Nat.add_assoc, Nat.add_comm 1]

/-- The rule of an array that contains items has the resolution of each of them. -/
theorem rule_arrayContaining (items : List Template) :
    (Matcher.arrayContaining items).rule.value = some (.arrayContains (resolvedVariants items)) := by
  have resolved : (walkVariants 0 items).1 = resolvedVariants items := by
    rw [walkVariants_eq, resolvedVariants]
    simp
  rw [← resolved]
  rfl

/-- Only an array of variants has a rule with variants. -/
theorem exists_items_of_rule {m : Matcher} {variants : List Variant}
    (h : m.rule.value = some (.arrayContains variants)) :
    ∃ items, m = .arrayContaining items ∧ variants = resolvedVariants items := by
  cases m with
  | arrayContaining items =>
    rw [rule_arrayContaining] at h
    exact ⟨items, rfl, (Rule.arrayContains.inj (Option.some.inj h)).symm⟩
  | _ => cases h

/-- The rules of a resolution are those of its matchers at their places, later ones over earlier ones.
-/
theorem rules_resolveUnchecked (root : String) (t : Template) :
    (t.resolveUnchecked root).value.rules =
      Dict.ofList (entries root (·.rule.value) t.positions) := by
  rw [← (t.walk_records root).rules]
  rfl

theorem generators_resolveUnchecked (root : String) (t : Template) :
    (t.resolveUnchecked root).value.generators =
      Dict.ofList (entries root Matcher.generator t.positions) := by
  rw [← (t.walk_records root).generators]
  rfl

/-- A rule of a resolution is that of a matcher inside the template. -/
theorem exists_of_mem_rules {t : Template} {root : String} {e : String × Rule}
    (h : e ∈ (t.resolveUnchecked root).value.rules) :
    ∃ s m, t.HoldsAt s m ∧ m.rule.value = some e.2 := by
  rw [rules_resolveUnchecked] at h
  obtain ⟨p, hp, rule, _⟩ := mem_entries_iff.1 (Dict.mem_of_mem_ofList h)
  exact ⟨p.segments, p.matcher, mem_positions_iff.1 hp, rule⟩

/-- A generator of a resolution is that of a matcher inside the template. -/
theorem exists_of_mem_generators {t : Template} {root : String} {e : String × Generator}
    (h : e ∈ (t.resolveUnchecked root).value.generators) :
    ∃ s m, t.HoldsAt s m ∧ m.generator = some e.2 := by
  rw [generators_resolveUnchecked] at h
  obtain ⟨p, hp, generator, _⟩ := mem_entries_iff.1 (Dict.mem_of_mem_ofList h)
  exact ⟨p.segments, p.matcher, mem_positions_iff.1 hp, generator⟩

/-- The rule at a place is that of its innermost matcher. -/
theorem get?_rules {t : Template} (wf : t.WellFormed) (names : t.ShowsNames) {root : String}
    {s : List Segment} {m : Matcher} (h : t.Innermost s m) :
    Dict.get? (Path.render root s) (t.resolveUnchecked root).value.rules = m.rule.value := by
  obtain ⟨rule, hr⟩ := Matcher.exists_rule h.2.1
  rw [rules_resolveUnchecked, hr]
  exact get?_entries_of_isLast names (fun _ => Matcher.rule_eq_none) (h.isLast wf) hr

/-- The generator at a place is that of its innermost matcher. -/
theorem get?_generators {t : Template} (wf : t.WellFormed) (names : t.ShowsNames) {root : String}
    {s : List Segment} {m : Matcher} (h : t.Innermost s m) :
    Dict.get? (Path.render root s) (t.resolveUnchecked root).value.generators = m.generator := by
  rw [generators_resolveUnchecked]
  cases hg : m.generator with
  | some generator =>
    exact get?_entries_of_isLast names (fun _ => Matcher.generator_eq_none) (h.isLast wf) hg
  | none =>
    apply Option.not_isSome_iff_eq_none.1
    intro some
    obtain ⟨u, n, found, makes, same⟩ := (has_entries_iff names).1 some
    obtain rfl : s = u := Path.render_injective root same
    rw [Matcher.generator_isSome] at makes
    have inner : n.IsInnermost := by
      refine ⟨Matcher.kind_ne_record_of_makesValue makes, ?_⟩
      simp [Matcher.inner_of_makesValue makes]
    have innermost : t.Innermost s n := ⟨found, inner⟩
    obtain rfl := h.unique wf innermost
    rw [← Matcher.generator_isSome, hg] at makes
    cases makes

/-- The paths with a rule are those of the matchers that are no record. -/
theorem has_rules_iff {t : Template} (names : t.ShowsNames) {root path : String} :
    Dict.has path (t.resolveUnchecked root).value.rules = true ↔
      ∃ s m, t.HoldsAt s m ∧ m.kind ≠ .record ∧ path = Path.render root s := by
  rw [rules_resolveUnchecked, has_entries_iff names]
  simp only [Option.isSome_iff_ne_none, ne_eq, Matcher.rule_eq_none_iff]

/-- The paths with a generator are those of the matchers that make fresh values. -/
theorem has_generators_iff {t : Template} (names : t.ShowsNames) {root path : String} :
    Dict.has path (t.resolveUnchecked root).value.generators = true ↔
      ∃ s m, t.HoldsAt s m ∧ m.makesValue = true ∧ path = Path.render root s := by
  rw [generators_resolveUnchecked, has_entries_iff names]
  simp only [Matcher.generator_isSome]

/-- A rule with variants is that of an array of variants, and lists those of its items. -/
theorem exists_of_get?_arrayContains {t : Template} (wf : t.WellFormed) (names : t.ShowsNames)
    {root path : String} {variants : List Variant}
    (h : Dict.get? path (t.resolveUnchecked root).value.rules = some (.arrayContains variants)) :
    ∃ s items, t.Innermost s (.arrayContaining items) ∧ path = Path.render root s ∧
      variants = resolvedVariants items := by
  obtain ⟨s, m, place, other, rfl⟩ := (has_rules_iff names).1 (Dict.has_iff.2 ⟨_, h⟩)
  obtain ⟨n, innermost⟩ := place.exists_innermost other
  rw [get?_rules wf names innermost] at h
  obtain ⟨items, rfl, same⟩ := exists_items_of_rule h
  exact ⟨s, items, innermost, rfl, same⟩

end Template

/-! ### Exactness -/

open ConsumerContract.Path (render root)

/-- The resolution holds what the matchers of the template ask for, each at its place, and no more. -/
structure Resolution.Exact (r : Resolution) (t : Template) : Prop where
  /-- The paths with a rule are those of the matchers that are no record. -/
  rules : ∀ path, Dict.has path r.rules = true ↔
    ∃ s m, t.HoldsAt s m ∧ m.kind ≠ .record ∧ path = render root s
  /-- The paths with a generator are those of the matchers that make fresh values. -/
  generators : ∀ path, Dict.has path r.generators = true ↔
    ∃ s m, t.HoldsAt s m ∧ m.makesValue = true ∧ path = render root s
  /-- No two places share a path. -/
  apart : ∀ s u, render root s = render root u → s = u
  /-- Of the matchers at one place the innermost gives the rule and the generator. -/
  decided : ∀ s m, t.HoldsAt s m → m.kind ≠ .record →
    ∃ n, t.Innermost s n ∧ (∀ o, t.Innermost s o → o = n) ∧ (Template.matcher m).HoldsAt [] n ∧
      Dict.get? (render root s) r.rules = n.rule.value ∧
      Dict.get? (render root s) r.generators = n.generator
  /-- A rule with variants lists those of its items, each resolved by itself, under their indices. -/
  variants : ∀ path variants, Dict.get? path r.rules = some (.arrayContains variants) →
    ∃ s items, t.Innermost s (.arrayContaining items) ∧ path = render root s ∧
      variants = Template.resolvedVariants items

namespace Template

/-- A template whose fields are in order, and whose names show in paths, is resolved exactly. -/
theorem resolveUnchecked_exact {t : Template} (wf : t.WellFormed) (names : t.ShowsNames) :
    (t.resolveUnchecked root).value.Exact t := by
  refine ⟨fun path => has_rules_iff names, fun path => has_generators_iff names,
    fun s u => Path.render_injective root, ?decided,
    fun path variants => exists_of_get?_arrayContains wf names⟩
  case decided =>
    intro s m found other
    obtain ⟨n, inside, inner⟩ := exists_isInnermost m other
    have place : t.HoldsAt (s ++ []) n := found.trans inside
    rw [List.append_nil] at place
    have innermost : t.Innermost s n := ⟨place, inner⟩
    exact ⟨n, innermost, fun o ho => ho.unique wf innermost, inside,
      get?_rules wf names innermost, get?_generators wf names innermost⟩

/-- The content of `equality` has the last word, at a name that needs quotes. -/
theorem resolveUnchecked_exact_equality_like :
    ∃ t, t = Template.object [("it's", .matcher (.equality (.matcher (.like (.literal .null)))))] ∧
      t.WellFormed ∧ t.ShowsNames ∧ (t.resolveUnchecked root).value.Exact t ∧
      (t.resolveUnchecked root).value.rules = [("$['it\\'s']", .sameType)] := by
  refine ⟨_, rfl, ?_⟩
  have wf : (Template.object
      [("it's", .matcher (.equality (.matcher (.like (.literal .null)))))]).WellFormed :=
    ⟨Dict.ordered_singleton _, ⟨trivial, trivial, trivial⟩, trivial⟩
  have names : (Template.object
      [("it's", .matcher (.equality (.matcher (.like (.literal .null)))))]).ShowsNames := by
    refine .of_everywhere ⟨fun e he => ?_, ⟨trivial, trivial, trivial⟩, trivial⟩
    obtain rfl := List.mem_singleton.1 he
    decide
  exact ⟨wf, names, resolveUnchecked_exact wf names, by rfl⟩

end Template

end ConsumerContract
