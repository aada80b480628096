import ConsumerContract.Proofs.DerivedMatchers
import ConsumerContract.Proofs.Hints
import ConsumerContract.Proofs.Validation

/-!
# Versions that take what is derived

A derived matcher is of a kind that version 2 does not know exactly if its hint sets a greatest length or a
generator. Fields may have any names: a field holds the object of a matcher, never a text, so it does not
pass for a marker, and the markers of a matcher stand in an object of their own. So a version takes what is
derived at a visit if and only if it knows what the hints of all visits that are kept ask for:
`Visit.Yields.refusals_eq_nil_iff`. From there it is a matter of the fields of the shape, whatever their
names: `Shape.validate_deriveMatcher`.
-/

namespace ConsumerContract

open Validation (refusals memberRefusals itemRefusals IsScalar)

/-! ### Hints and kinds -/

/-- The hint asks for nothing that version 2 cannot express: for no greatest length, and no generator. -/
structure Hint.IsEarly (a : Hint) : Prop where
  max : a.max = none
  generator : a.generator = none

/-- The version can express what the hint asks for. -/
def Hint.IsKnownTo (a : Hint) (version : Version) : Prop :=
  version = .v2 → a.IsEarly

theorem Hint.coherent_empty : ({} : Hint).Coherent where
  sample _ h := nomatch h
  regex _ h := nomatch h
  generator h := nomatch h
  format h := nomatch h

variable {n : Nat} {version : Version}

/-- A hint that was read is coherent. -/
theorem Field.coherent_of_readHint {f : Field n} {a : Hint} (h : f.readHint = .ok a) : a.Coherent := by
  unfold readHint at h
  split at h
  next raw => exact (Hint.read_eq_ok_iff.1 h).2
  next =>
    cases h
    exact Hint.coherent_empty

/-- A version takes a kind of matcher unless it is version 2 and the kind came later. -/
theorem MatcherKind.refusal?_eq_none_iff {kind : MatcherKind} :
    kind.refusal? version = none ↔ (version = .v2 → kind.since ≠ .v3) := by
  by_cases early : version = .v2
  · subst early
    rw [kind.refusal?_v2]
    split <;> simp [*]
  · simp [kind.refusal?_of_ne_v2 early, early]

namespace Shape

/-- A text is matched by what version 2 does not know exactly if there is a generator. -/
theorem since_textMatcher_iff {a : Hint} (coherent : a.Coherent) :
    (textMatcher a).kind.since = .v3 ↔ a.generator ≠ none := by
  cases made : a.generator with
  | some moment =>
    have given : a.generator.isSome = true := Option.isSome_of_eq_some made
    obtain ⟨format, formatted⟩ := Option.isSome_iff_exists.1 (coherent.generator given).1
    obtain ⟨sample, sampled⟩ := Option.isSome_iff_exists.1 (coherent.generator given).2
    have unmatched : a.regex = none := by
      cases matched : a.regex with
      | none => rfl
      | some pattern =>
        rw [(coherent.regex pattern matched).2.2] at made
        cases made
    simp [textMatcher, sampled, unmatched, made, formatted, Matcher.kind, MatcherKind.since]
  | none =>
    have early : (textMatcher a).kind.since = .v2 := by
      unfold textMatcher
      rw [made]
      split <;> first | rfl | contradiction
    simp [early]

/-- The matchers of texts and of single values hold no others. -/
theorem refusals_textMatcher (a : Hint) :
    refusals version (textMatcher a).marker.canonical = ((textMatcher a).kind.refusal? version).toList := by
  rw [Matcher.refusals_marker]
  unfold textMatcher
  split <;> exact List.append_nil _

/-- A scalar matched by type is never refused. -/
theorem refusals_likeValue {value : Json} (scalar : IsScalar value.canonical) :
    refusals version (likeValue value).marker.canonical = [] := by
  rw [likeValue, Matcher.refusals_marker, MatcherKind.refusal?_of_since rfl]
  exact Validation.refusals_scalar scalar version

/-- An array of equal items is refused exactly if the item is. -/
theorem refusals_replicate_eq_nil_iff {count : UInt64} (some : 1 ≤ count) {v : Json} :
    refusals version (.arr (List.replicate count.toNat v)) = [] ↔ refusals version v = [] := by
  have positive : count.toNat ≠ 0 := Nat.ne_of_gt (UInt64.le_iff_toNat_le.1 some)
  rw [refusals, Validation.itemRefusals_eq_nil_iff, Json.everyItem_iff, Validation.refusals_eq_nil_iff]
  simp [List.mem_replicate, positive]

/-- A sequence is refused if its greatest length or its items are. -/
theorem refusals_sequenceMatcher_eq_nil_iff (a : Hint) (content : Matcher) :
    refusals version (sequenceMatcher a (.matcher content)).value.marker.canonical = [] ↔
      (version = .v2 → a.max = none) ∧ refusals version content.marker.canonical = [] := by
  rw [Matcher.refusals_marker, List.append_eq_nil_iff, Option.toList_eq_nil_iff,
    MatcherKind.refusal?_eq_none_iff]
  unfold sequenceMatcher
  split
  next max bounded =>
    have some := UInt64.le_trans (Matcher.one_le_leastLength (a.min.getD usualLength))
      (Template.le_repetitions _ max)
    apply and_congr
    · simp [Matcher.between, Matcher.kind, MatcherKind.since, bounded]
    · exact refusals_replicate_eq_nil_iff some
  next unbounded =>
    apply and_congr
    · simp [Matcher.atLeast, Matcher.kind, MatcherKind.since, unbounded]
    · exact refusals_replicate_eq_nil_iff (Matcher.one_le_leastLength (a.min.getD usualLength))

end Shape

/-! ### Records -/

/-- The object of a matcher is an object. -/
theorem Matcher.exists_marker_eq_obj (m : Matcher) : ∃ members, m.marker.canonical = .obj members := by
  cases m <;> exact ⟨_, rfl⟩

/-- A record of matchers is refused exactly if one of its fields is, whatever names they have. -/
theorem refusals_record_eq_nil_iff {fields : List (String × Template)} (ordered : Dict.Ordered fields)
    (matchers : ∀ e ∈ fields, ∃ m, e.2 = .matcher m) :
    refusals version (Matcher.record fields).marker.canonical = [] ↔
      ∀ e ∈ fields, refusals version e.2.marker.canonical = [] := by
  have members : (Matcher.record fields).marker.canonical =
      .obj (Dict.mapValues (·.marker.canonical) fields) := by
    rw [← Template.canonicalMembers_markFields]
    exact Template.canonical_markFields ordered
  have unnamed : Validation.refusal? version (Dict.mapValues (·.marker.canonical) fields) = none := by
    rw [Validation.refusal?, Dict.get?_mapValues]
    cases found : Dict.get? Marker.versionKey fields with
    | none => rfl
    | some t =>
      obtain ⟨m, rfl⟩ := matchers _ (Dict.mem_of_get? found)
      obtain ⟨inside, shape⟩ := m.exists_marker_eq_obj
      rw [Option.map_some, Template.marker, shape]
      rfl
  rw [members, refusals, unnamed, Option.toList_none, List.nil_append,
    Validation.memberRefusals_eq_nil_iff, Json.everyMember_iff, Dict.mapValues, List.forall_mem_map]
  simp only [Validation.refusals_eq_nil_iff]

/-! ### What a version takes -/

namespace Visit

open Relation (ReflTransGen)

variable {catalogue : Catalogue n} {naming : FieldNaming}

/-- What is reached is the visit itself, or is reached from one that the visit leads on to. -/
theorem forall_reaches_iff {step : Visit n → Visit n → Prop} {p : Visit n → Prop} {v : Visit n} :
    (∀ w, ReflTransGen step v w → p w) ↔ p v ∧ ∀ u, step v u → ∀ w, ReflTransGen step u w → p w := by
  constructor
  · exact fun h => ⟨h v .refl, fun u first w rest => h w (.head first rest)⟩
  · rintro ⟨here, later⟩ w reached
    rcases reached.cases_head with rfl | ⟨u, first, rest⟩
    · exact here
    · exact later u first w rest

/-- The hints of the visits to which a visit leads on are coherent if its own is. -/
theorem Next.coherent {v w : Visit n} (h : v.Next catalogue naming w) (coherent : v.hint.Coherent) :
    w.hint.Coherent := by
  cases h with
  | pointer => exact coherent
  | sequence => exact Hint.coherent_empty
  | field _ _ _ read => exact Field.coherent_of_readHint read

/-- A key that does not go together with the shape has not been given. -/
theorem Suits.has_eq_false {v : Visit n} (h : v.Suits) {key : HintKey} (other : key ∉ v.shape.allowedKeys) :
    v.hint.has key = false :=
  eq_false_of_ne_true fun given => other (h.keys key given)

/-- A shape that knows no greatest length has none in its hint. -/
theorem Suits.max_eq_none {v : Visit n} (h : v.Suits) (other : .max ∉ v.shape.allowedKeys) :
    v.hint.max = none :=
  Option.isNone_iff_eq_none.1 (Option.isSome_eq_false_iff.1 (h.has_eq_false other))

/-- A shape that knows no generator has none in its hint. -/
theorem Suits.generator_eq_none {v : Visit n} (h : v.Suits) (other : .generator ∉ v.shape.allowedKeys) :
    v.hint.generator = none :=
  Option.isNone_iff_eq_none.1 (Option.isSome_eq_false_iff.1 (h.has_eq_false other))

/-- Every version knows what a hint asks for if it gives neither key. -/
theorem Suits.isKnownTo {v : Visit n} (h : v.Suits) (noMax : .max ∉ v.shape.allowedKeys)
    (noGenerator : .generator ∉ v.shape.allowedKeys) : v.hint.IsKnownTo version :=
  fun _ => ⟨h.max_eq_none noMax, h.generator_eq_none noGenerator⟩

/-- A visit has one matcher at most. -/
theorem Yields.unique {v : Visit n} {m m' : Matcher} (h : v.Yields catalogue naming m)
    (h' : v.Yields catalogue naming m') : m = m' :=
  Except.ok.inj (h.symm.trans h')

/-- Nothing is refused of a single value, and its hint asks for nothing new. -/
theorem Yields.refusals_single {v : Visit n} {value : Json} (suits : v.Suits)
    (sampled : v.shape.allowedKeys = [.sample]) (stops : ∀ u, ¬ v.Keeps catalogue naming u)
    (scalar : IsScalar value.canonical) :
    refusals version (Shape.likeValue value).marker.canonical = [] ↔
      v.hint.IsKnownTo version ∧ ∀ u c, v.Keeps catalogue naming u → u.Yields catalogue naming c →
        refusals version c.marker.canonical = [] :=
  iff_of_true (Shape.refusals_likeValue scalar)
    ⟨suits.isKnownTo (by simp [sampled]) (by simp [sampled]), fun u _ kept => absurd kept (stops u)⟩

/-- A version takes what is derived at a visit, unless it is of a pointer, exactly if it knows what the hint
asks for, and takes what is derived at the visits that are kept next. -/
theorem Yields.refusals_step {v : Visit n} {m : Matcher} (h : v.Yields catalogue naming m)
    (coherent : v.hint.Coherent) (direct : ∀ name target, v.shape ≠ .pointer name target) :
    refusals version m.marker.canonical = [] ↔
      v.hint.IsKnownTo version ∧ ∀ u c, v.Keeps catalogue naming u → u.Yields catalogue naming c →
        refusals version c.marker.canonical = [] := by
  have suits := h.derives.suits
  obtain ⟨around, a, s⟩ := v
  cases s with
  | text name =>
    have noMax : a.max = none := suits.max_eq_none (by simp [Shape.allowedKeys])
    have known : a.IsKnownTo version ↔ (version = .v2 → a.generator = none) :=
      forall_congr' fun _ => ⟨fun early => early.generator, fun none => ⟨noMax, none⟩⟩
    rw [h.text, Shape.refusals_textMatcher, Option.toList_eq_nil_iff, MatcherKind.refusal?_eq_none_iff,
      Ne, Shape.since_textMatcher_iff coherent, Ne, Classical.not_not, known]
    exact (and_iff_left (by rintro u c ⟨⟩)).symm
  | bool name =>
    obtain ⟨b, rfl⟩ := h.bool
    exact refusals_single suits rfl (by rintro u ⟨⟩) trivial
  | integer name =>
    obtain ⟨i, rfl⟩ := h.integer
    exact refusals_single suits rfl (by rintro u ⟨⟩) trivial
  | float name =>
    obtain ⟨x, rfl⟩ := h.float
    have scalar : IsScalar (Json.float x).canonical := by
      rw [Json.float]
      split <;> trivial
    exact refusals_single suits rfl (by rintro u ⟨⟩) scalar
  | pointer name target => exact absurd rfl (direct name target)
  | sequence name item =>
    obtain ⟨content, yields, rfl⟩ := h.sequence
    have noGenerator : a.generator = none := suits.generator_eq_none (by simp [Shape.allowedKeys])
    have known : a.IsKnownTo version ↔ (version = .v2 → a.max = none) :=
      forall_congr' fun _ => ⟨fun early => early.max, fun none => ⟨none, noGenerator⟩⟩
    rw [Shape.refusals_sequenceMatcher_eq_nil_iff, known, and_congr_right_iff]
    intro _
    constructor
    · intro taken u c kept derived
      cases kept
      rwa [derived.unique yields]
    · exact fun taken => taken _ _ .sequence yields
  | record id =>
    obtain ⟨outside, fields, rfl, ordered, listed⟩ := h.record
    have matchers : ∀ e ∈ fields, ∃ m, e.2 = .matcher m := by
      intro e he
      obtain ⟨f, b, inner, -, -, -, same⟩ := (listed _ _).1 he
      exact ⟨inner, same⟩
    rw [refusals_record_eq_nil_iff ordered matchers]
    constructor
    · intro taken
      refine ⟨suits.isKnownTo (by simp [Shape.allowedKeys]) (by simp [Shape.allowedKeys]), ?_⟩
      intro u c kept derived
      cases kept with
      | field _ last read => exact taken _ ((listed _ _).2 ⟨_, _, c, last, read, derived, rfl⟩)
    · rintro ⟨-, taken⟩ ⟨name, t⟩ he
      obtain ⟨f, b, inner, last, read, yields, rfl⟩ := (listed _ _).1 he
      exact taken _ inner (.field outside last read) yields
  | unsupported name kind => exact absurd h.derives not_derives_unsupported

/-- A version takes what is derived at a visit exactly if it knows what the hints of all visits that are kept
ask for. -/
theorem Yields.refusals_eq_nil_iff {v : Visit n} {m : Matcher} (h : v.Yields catalogue naming m)
    (coherent : v.hint.Coherent) :
    refusals version m.marker.canonical = [] ↔
      ∀ w, ReflTransGen (Keeps catalogue naming) v w → w.hint.IsKnownTo version := by
  induction v using (wellFounded_next catalogue naming).induction generalizing m with
  | _ v ih =>
    rw [forall_reaches_iff]
    by_cases direct : ∀ name target, v.shape ≠ .pointer name target
    · rw [h.refusals_step coherent direct, and_congr_right_iff]
      intro _
      refine forall_congr' fun u => ⟨fun taken kept => ?_, fun known c kept yields => ?_⟩
      · obtain ⟨c, yields⟩ := h.derives.next kept.next
        exact (ih u kept.next yields (kept.next.coherent coherent)).1 (taken c kept yields)
      · exact (ih u kept.next yields (kept.next.coherent coherent)).2 (known kept)
    · -- a pointer has the matcher of its target, to which it hands its hint on
      obtain ⟨around, a, s⟩ := v
      obtain ⟨name, target, rfl⟩ : ∃ name target, s = .pointer name target := by
        simpa only [not_forall, Classical.not_not] using direct
      rw [ih ⟨around, a, target⟩ .pointer h.pointer coherent]
      constructor
      · refine fun known => ⟨known ⟨around, a, target⟩ .refl, fun u kept => ?_⟩
        cases kept
        exact known
      · exact fun ⟨_, known⟩ => known _ .pointer

end Visit

/-! ### The fields of a shape -/

section

open Relation (ReflTransGen)

variable {catalogue : Catalogue n} {naming : FieldNaming}

/-- Values of a shape hold values of another: the target of a pointer, the items of a sequence, and the
fields of a record that are not left out of documents. -/
inductive Shape.Holds (catalogue : Catalogue n) : Shape n → Shape n → Prop where
  | pointer {name target} : Holds catalogue (.pointer name target) target
  | sequence {name item} : Holds catalogue (.sequence name item) item
  | field {id f} : f ∈ (catalogue id).fields → f.skipped = false → Holds catalogue (.record id) f.shape

/-- The record stands in documents of the shape, at any depth. -/
def Shape.HasRecord (catalogue : Catalogue n) (root : Shape n) (id : Fin n) : Prop :=
  ReflTransGen (Holds catalogue) root (.record id)

/-- The field stands in documents of the shape, at any depth. -/
def Shape.HasField (catalogue : Catalogue n) (root : Shape n) (f : Field n) : Prop :=
  ∃ id, root.HasRecord catalogue id ∧ f ∈ (catalogue id).fields ∧ f.skipped = false

/-- No two fields of the record have the same name in documents. -/
def RecordType.HasDistinctNames (naming : FieldNaming) (r : RecordType n) : Prop :=
  (r.fields.filterMap (·.nameUnder naming)).Nodup

/-- A field has a name in documents exactly if it is not left out of them. -/
theorem Field.exists_nameUnder_iff {f : Field n} :
    (∃ name, f.nameUnder naming = some name) ↔ f.skipped = false := by
  rw [nameUnder]
  cases f.skipped <;> simp

namespace Visit

/-- A visit leads on to a shape that its own shape holds. -/
theorem Next.holds {v w : Visit n} (h : v.Next catalogue naming w) : v.shape.Holds catalogue w.shape := by
  cases h with
  | pointer => exact .pointer
  | sequence => exact .sequence
  | field _ mem named => exact .field mem (Field.exists_nameUnder_iff.1 ⟨_, named⟩)

/-- Whatever is reached is held, at some depth. -/
theorem holds_of_reached {v w : Visit n} (reached : ReflTransGen (Next catalogue naming) v w) :
    ReflTransGen (Shape.Holds catalogue) v.shape w.shape :=
  reached.lift Visit.shape fun _ _ => Next.holds

/-- Where a matcher is derived, derivation leads on to all that the shape holds. -/
theorem Derives.exists_next {v : Visit n} {s : Shape n} (h : v.Derives catalogue naming)
    (held : v.shape.Holds catalogue s) : ∃ w, v.Next catalogue naming w ∧ w.shape = s := by
  obtain ⟨around, a, root⟩ := v
  cases held with
  | pointer => exact ⟨_, .pointer, rfl⟩
  | sequence => exact ⟨_, .sequence, rfl⟩
  | field mem kept =>
    obtain ⟨-, outside, fields⟩ := derives_record.1 h
    obtain ⟨name, named⟩ := Field.exists_nameUnder_iff.2 kept
    obtain ⟨b, read, -⟩ := fields _ mem name named
    exact ⟨_, .field outside mem named read, rfl⟩

/-- Where a matcher is derived, every shape that is held is reached and has one too. -/
theorem Derives.exists_reached {v : Visit n} {s : Shape n} (h : v.Derives catalogue naming)
    (held : ReflTransGen (Shape.Holds catalogue) v.shape s) :
    ∃ w, ReflTransGen (Next catalogue naming) v w ∧ w.Derives catalogue naming ∧ w.shape = s := by
  induction held with
  | refl => exact ⟨v, .refl, h, rfl⟩
  | tail _ last ih =>
    obtain ⟨u, reached, derives, rfl⟩ := ih
    obtain ⟨w, next, rfl⟩ := derives.exists_next last
    exact ⟨w, reached.tail next, derives.next next, rfl⟩

/-- The hints over the visits that are reached from a root are those of its fields. -/
theorem hint_of_reached {root : Shape n} {w : Visit n}
    (reached : ReflTransGen (Next catalogue naming) ⟨[], {}, root⟩ w) :
    w.hint = {} ∨ ∃ f, root.HasField catalogue f ∧ f.readHint = .ok w.hint := by
  induction reached with
  | refl => exact .inl rfl
  | tail before last ih =>
    have held := holds_of_reached before
    cases last with
    | pointer => exact ih
    | sequence => exact .inl rfl
    | field _ mem named read =>
      exact .inr ⟨_, ⟨_, held, mem, Field.exists_nameUnder_iff.1 ⟨_, named⟩⟩, read⟩

/-- Where the names in each record are distinct, every visit that is reached is kept. -/
theorem reaches_keeps {v w : Visit n}
    (distinct : ∀ id, v.shape.HasRecord catalogue id → (catalogue id).HasDistinctNames naming)
    (reached : ReflTransGen (Next catalogue naming) v w) : ReflTransGen (Keeps catalogue naming) v w := by
  induction reached with
  | refl => exact .refl
  | tail before last ih =>
    refine ih.tail (last.keeps fun id shape => distinct id ?_)
    have held := holds_of_reached before
    rwa [shape] at held

end Visit

/-- Every version but 2 takes what is derived. Version 2 does if no field in documents of the shape has a hint
with a greatest length or a generator, and where the names in each of its records are distinct, only then. -/
theorem Shape.validate_deriveMatcher {root : Shape n} {m : Matcher}
    (derived : (root.deriveMatcher catalogue naming).result = .ok m) :
    (∀ version, version ≠ .v2 → ((Template.matcher m).validate version).result = .ok ()) ∧
    ((∀ f a, root.HasField catalogue f → f.readHint = .ok a → a.IsEarly) →
      ((Template.matcher m).validate .v2).result = .ok ()) ∧
    ((∀ id, root.HasRecord catalogue id → (catalogue id).HasDistinctNames naming) →
      ((Template.matcher m).validate .v2).result = .ok () →
      ∀ f a, root.HasField catalogue f → f.readHint = .ok a → a.IsEarly) := by
  have yields : Visit.Yields catalogue naming ⟨[], {}, root⟩ m := derived
  have taken (version : Version) : ((Template.matcher m).validate version).result = .ok () ↔
      ∀ w, ReflTransGen (Visit.Keeps catalogue naming) ⟨[], {}, root⟩ w → w.hint.IsKnownTo version := by
    rw [Template.validate_eq_ok_iff, ← Validation.refusals_eq_nil_iff]
    exact yields.refusals_eq_nil_iff Hint.coherent_empty
  refine ⟨?late, ?accepted, ?only⟩
  case late =>
    exact fun version late => (taken version).2 fun _ _ early => absurd early late
  case accepted =>
    intro early
    refine (taken .v2).2 fun w kept _ => ?_
    have reached : ReflTransGen (Visit.Next catalogue naming) ⟨[], {}, root⟩ w :=
      ReflTransGen.mono (fun _ _ => Visit.Keeps.next) _ _ kept
    rcases Visit.hint_of_reached reached with none | ⟨f, has, read⟩
    · rw [none]
      exact ⟨rfl, rfl⟩
    · exact early f _ has read
  case only =>
    rintro distinct accepted f a ⟨id, held, mem, kept⟩ read
    obtain ⟨⟨around, b, s⟩, reached, derives, rfl⟩ := yields.derives.exists_reached held
    obtain ⟨-, outside, -⟩ := Visit.derives_record.1 derives
    obtain ⟨name, named⟩ := Field.exists_nameUnder_iff.2 kept
    have inside := reached.tail (.field outside mem named read)
    exact (taken .v2).1 accepted _ (Visit.reaches_keeps distinct inside) rfl

end

namespace MarkedFields

/-- A record whose fields have the names of markers. The text of the first would pass for a version. -/
def order (hint : String) : RecordType 1 :=
  ⟨"Order", [
    { ident := "revision", rename := some "pact:specification", hint := some "example=4.0",
      shape := .text "String" },
    { ident := "compare", rename := some "pact:matcher:type", hint := some hint,
      shape := .pointer "Option" (.sequence "Vec" (.text "String")) }]⟩

/-- What is derived of the record, from the matcher of its second field. -/
def matcher (compare : Matcher) : Matcher :=
  .record [("pact:matcher:type", .matcher compare),
    ("pact:specification", .matcher (.like (.ofString "4.0")))]

theorem read_revision : Hint.read "example=4.0" = .ok { raw := "example=4.0", sample := some "4.0" } := by
  decide +kernel

theorem read_early : Hint.read "min=2" = .ok { raw := "min=2", min := some 2 } := by
  decide +kernel

theorem read_late :
    Hint.read "min=2,max=3" = .ok { raw := "min=2,max=3", min := some 2, max := some 3 } := by
  decide +kernel

theorem result_early : ((Shape.record 0).deriveMatcher (fun _ => order "min=2") .camel).result =
    .ok (matcher (.repeated (.matcher (.like (.ofString "string"))) 2)) := by
  simp only [Shape.deriveMatcher, Shape.derive, RecordType.derive, order, Field.deriveAll,
    Field.nameUnder, Field.readHint, read_revision, read_early]
  rfl

theorem result_late : ((Shape.record 0).deriveMatcher (fun _ => order "min=2,max=3") .camel).result =
    .ok (matcher (.bounded (.matcher (.like (.ofString "string"))) 2 3)) := by
  simp only [Shape.deriveMatcher, Shape.derive, RecordType.derive, order, Field.deriveAll,
    Field.nameUnder, Field.readHint, read_revision, read_late]
  rfl

theorem isEarly_of_mem {f : Field 1} (mem : f ∈ (order "min=2").fields) {a : Hint}
    (read : f.readHint = .ok a) : a.IsEarly := by
  rcases List.mem_pair.1 mem with rfl | rfl
  · obtain rfl := Except.ok.inj (read_revision.symm.trans read)
    exact ⟨rfl, rfl⟩
  · obtain rfl := Except.ok.inj (read_early.symm.trans read)
    exact ⟨rfl, rfl⟩

theorem hasDistinctNames (hint : String) : (order hint).HasDistinctNames .camel :=
  (by decide : ["pact:specification", "pact:matcher:type"].Nodup)

theorem validate_deriveMatcher_marked_fields :
    (∃ m, ((Shape.record 0).deriveMatcher (fun _ => order "min=2") .camel).result = .ok m ∧
      ((Template.matcher m).validate .v2).result = .ok ()) ∧
    (∃ m, ((Shape.record 0).deriveMatcher (fun _ => order "min=2,max=3") .camel).result = .ok m ∧
      ((Template.matcher m).validate .v3).result = .ok () ∧
      ((Template.matcher m).validate .v2).result ≠ .ok ()) := by
  obtain ⟨-, accepted, -⟩ := Shape.validate_deriveMatcher result_early
  obtain ⟨late, -, only⟩ := Shape.validate_deriveMatcher result_late
  refine ⟨⟨_, result_early, accepted ?_⟩, _, result_late, late .v3 nofun, fun taken => ?_⟩
  · rintro f a ⟨id, -, mem, -⟩ read
    exact isEarly_of_mem mem read
  · have early := only (fun _ _ => hasDistinctNames _) taken _ _
      ⟨0, .refl, List.mem_pair.2 (.inr rfl), rfl⟩ read_late
    cases early.max

end MarkedFields

end ConsumerContract
