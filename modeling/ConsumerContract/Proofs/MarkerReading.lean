import ConsumerContract.Proofs.Alignment
import ConsumerContract.Proofs.Validation
import ConsumerContract.Rule.Document

/-!
# What marker JSON tells

Marker JSON, samples, rules and generators are made from a matcher one apart from the other. They tell the
same: `Json.unmarked` takes the markers away again, and where nothing but a matcher looks like one what
remains is the example (`Template.unmarked_marker`). The object of a matcher repeats the documents of its
rule and of its generator, each under a word of its own for the kind: `Json.Tells` says so, and
`Matcher.tells_rule` and `Matcher.tells_generator` go through the kinds. All of it is read off the members
as they are written, whose keys are distinct (`Matcher.keys_members`).
-/

namespace ConsumerContract

namespace Json

/-! ### Taking markers away -/

/-- The value of the member `key`, if the value is an object with one. -/
def member? (key : String) : Json → Option Json
  | .obj members => Dict.get? key members
  | _ => none

mutual

/-- The value with its sample, its variants or `null` in place of every object that looks like a
matcher. -/
def unmarked : Json → Json
  | .arr items => .arr (unmarkedItems items)
  | .obj members =>
    if Dict.has Marker.comparisonKey members then
      ((Dict.get? "value" (unmarkedMembers members)).or
        (Dict.get? "variants" (unmarkedMembers members))).getD .null
    else .obj (unmarkedMembers members)
  | v => v

/-- `unmarked` on every item. -/
def unmarkedItems : List Json → List Json
  | [] => []
  | v :: rest => v.unmarked :: unmarkedItems rest

/-- `unmarked` on the value of every member. -/
def unmarkedMembers : List (String × Json) → List (String × Json)
  | [] => []
  | (k, v) :: rest => (k, v.unmarked) :: unmarkedMembers rest

end

theorem unmarkedItems_eq (items : List Json) : unmarkedItems items = items.map unmarked := by
  induction items with
  | nil => rfl
  | cons v rest ih => rw [unmarkedItems, ih, List.map_cons]

theorem unmarkedMembers_eq (members : List (String × Json)) :
    unmarkedMembers members = Dict.mapValues unmarked members := by
  induction members with
  | nil => rfl
  | cons e rest ih =>
    obtain ⟨k, v⟩ := e
    rw [unmarkedMembers, ih]
    rfl

/-- The value of a member is looked at only after the object. -/
theorem unmarked_obj_of_has {members : List (String × Json)}
    (marked : Dict.has Marker.comparisonKey members = true) :
    unmarked (.obj members) =
      (((Dict.get? "value" members).or (Dict.get? "variants" members)).map unmarked).getD .null := by
  rw [unmarked, if_pos marked, unmarkedMembers_eq, Dict.get?_mapValues, Dict.get?_mapValues,
    Option.map_or]

/-- An object without a comparison loses marks inside its members only. -/
theorem unmarked_obj_of_get?_eq_none {members : List (String × Json)}
    (plain : Dict.get? Marker.comparisonKey members = none) :
    unmarked (.obj members) = .obj (unmarkedMembers members) := by
  rw [unmarked, Dict.has, plain]
  rfl

theorem unmarked_replicate (n : Nat) (v : Json) :
    unmarked (.arr (List.replicate n v)) = .arr (List.replicate n v.unmarked) := by
  rw [unmarked, unmarkedItems_eq, List.map_replicate]

/-- The value is no object with a member of the name `key`. -/
def Lacks (key : String) (v : Json) : Prop :=
  v.member? key = none

mutual

/-- A value with no comparison inside has no marks to lose. -/
theorem unmarked_of_lacks : (v : Json) → v.Everywhere (Lacks Marker.comparisonKey) → v.unmarked = v
  | .null, _ | .bool _, _ | .num _, _ | .str _, _ => rfl
  | .arr items, h => by rw [unmarked, unmarkedItems_of_lacks items h.2]
  | .obj members, h => by
    rw [unmarked_obj_of_get?_eq_none h.1, unmarkedMembers_of_lacks members h.2]

theorem unmarkedItems_of_lacks : (items : List Json) →
    EveryItem (Lacks Marker.comparisonKey) items → unmarkedItems items = items
  | [], _ => rfl
  | v :: rest, h => by
    rw [unmarkedItems, unmarked_of_lacks v h.1, unmarkedItems_of_lacks rest h.2]

theorem unmarkedMembers_of_lacks : (members : List (String × Json)) →
    EveryMember (Lacks Marker.comparisonKey) members → unmarkedMembers members = members
  | [], _ => rfl
  | (_, v) :: rest, h => by
    rw [unmarkedMembers, unmarked_of_lacks v h.1, unmarkedMembers_of_lacks rest h.2]

end

/-! ### Canonical objects -/

/-- Members with distinct keys are found again in the canonical form. -/
theorem member?_canonical {members : List (String × Json)} (distinct : (members.map (·.1)).Nodup)
    (key : String) :
    (Json.obj members).canonical.member? key = (Dict.get? key members).map canonical := by
  have keys : ((Dict.mapValues canonical members).map (·.1)).Nodup := by
    rw [Dict.mapValues, List.map_map]
    exact distinct
  rw [canonical, member?, canonicalMembers_eq, Dict.get?_ofList_of_nodup key keys,
    Dict.get?_mapValues]

/-- What remains of an object that looks like a matcher, by its members as they were written. -/
theorem unmarked_canonical_obj {members : List (String × Json)}
    (distinct : (members.map (·.1)).Nodup)
    (marked : Dict.has Marker.comparisonKey members = true) :
    (Json.obj members).canonical.unmarked =
      (((Dict.get? "value" members).or (Dict.get? "variants" members)).map
        fun v => v.canonical.unmarked).getD .null := by
  have found (key : String) := member?_canonical distinct key
  simp only [canonical, member?] at found
  have has : Dict.has Marker.comparisonKey (Dict.ofList (canonicalMembers members)) = true := by
    rw [Dict.has, found, Option.isSome_map]
    exact marked
  rw [canonical, unmarked_obj_of_has has, found, found, ← Option.map_or, Option.map_map]
  rfl

end Json

open Marker (comparisonKey generatorKey)

/-! ### The object of a matcher -/

/-- The members of the matcher's object as they are written. -/
def Matcher.members (m : Matcher) : List (String × Json) :=
  match m.marker with
  | .obj members => members
  | _ => []

namespace Matcher

theorem marker_eq (m : Matcher) : m.marker = .obj m.members := by
  cases m <;> rfl

/-- Every matcher but a record writes its members under distinct keys, of which one says what is
compared. -/
theorem keys_members {m : Matcher} (own : m.kind ≠ .record) :
    (m.members.map (·.1)).Nodup ∧
      Dict.get? comparisonKey m.members = some (.str m.kind.comparison) := by
  refine ⟨?distinct, ?compared⟩
  case distinct =>
    cases m with
    | like | equality | integer | decimal | includes | eachKeyLike =>
      show ["pact:matcher:type", "pact:specification", "value"].Nodup
      decide
    | regex =>
      show ["pact:matcher:type", "pact:specification", "value", "regex"].Nodup
      decide
    | repeated =>
      show ["pact:matcher:type", "pact:specification", "min", "value"].Nodup
      decide
    | bounded =>
      show ["pact:matcher:type", "pact:specification", "min", "max", "value"].Nodup
      decide
    | null =>
      show ["pact:matcher:type", "pact:specification"].Nodup
      decide
    | arrayContaining =>
      show ["pact:matcher:type", "pact:specification", "variants"].Nodup
      decide
    | fromProviderState =>
      show ["pact:matcher:type", "pact:specification", "pact:generator:type", "expression",
        "value"].Nodup
      decide
    | moment =>
      show ["pact:matcher:type", "pact:specification", "pact:generator:type", "format",
        "value"].Nodup
      decide
    | record => exact absurd rfl own
  case compared =>
    cases m with
    | record => exact absurd rfl own
    | _ => rfl

/-- A member of a marker is that of its matcher, in canonical form. -/
theorem member?_marker {m : Matcher} (own : m.kind ≠ .record) (key : String) :
    m.marker.canonical.member? key = (Dict.get? key m.members).map Json.canonical := by
  rw [marker_eq]
  exact Json.member?_canonical (keys_members own).1 key

/-- What remains of a matcher's object is what remains of its sample. -/
theorem unmarked_marker_eq {m : Matcher} (own : m.kind ≠ .record) :
    m.marker.canonical.unmarked =
      (((Dict.get? "value" m.members).or (Dict.get? "variants" m.members)).map
        fun v => v.canonical.unmarked).getD .null := by
  obtain ⟨distinct, compared⟩ := keys_members own
  rw [marker_eq]
  apply Json.unmarked_canonical_obj distinct
  rw [Dict.has, compared]
  rfl

end Matcher

/-! ### Samples -/

/-- Nothing but a matcher has the member `key`: no field and no map key has that name, and no object in a
literal has a member of that name. -/
def Template.Avoids (key : String) : Template → Prop
  | .object fields | .matcher (.record fields) => ∀ e ∈ fields, e.1 ≠ key
  | .matcher (.eachKeyLike name _) => name ≠ key
  | .literal value | .matcher (.fromProviderState _ value) => value.Everywhere (Json.Lacks key)
  | _ => True

theorem Json.unmarked_float (x : Binary64) : (Json.float x).canonical.unmarked = Json.float x := by
  rw [Json.float]
  split <;> rfl

/-- Literals in form that do not look like matchers stay as they are. -/
theorem Json.unmarked_canonical_of_lacks {v : Json} (ordered : v.Everywhere Json.InOrder)
    (lacks : v.Everywhere (Json.Lacks comparisonKey)) : v.canonical.unmarked = v := by
  rw [canonical_of_inOrder v ordered, unmarked_of_lacks v lacks]

theorem Json.unmarked_canonical_replicate (n : Nat) (v : Json) :
    (Json.arr (List.replicate n v)).canonical.unmarked =
      .arr (List.replicate n v.canonical.unmarked) := by
  rw [canonical, canonicalItems_replicate, unmarked_replicate]

/-- Fields that avoid the name of a comparison lose their marks one by one. -/
theorem Template.unmarked_canonical_markFields {fields : List (String × Template)}
    (ordered : Dict.Ordered fields) (avoids : ∀ e ∈ fields, e.1 ≠ comparisonKey) :
    (Json.obj (Template.markFields fields)).canonical.unmarked =
      .obj (Json.unmarkedMembers (Json.canonicalMembers (Template.markFields fields))) := by
  rw [Template.canonical_markFields ordered,
    Json.unmarked_obj_of_get?_eq_none (Template.get?_markFields avoids)]

mutual

/-- Without its markers, marker JSON is the example. -/
theorem Template.unmarked_marker : (t : Template) → t.WellFormed →
    t.Everywhere (Template.Avoids comparisonKey) → t.marker.canonical.unmarked = t.sample
  | .literal _, wf, avoids => Json.unmarked_canonical_of_lacks wf avoids
  | .object fields, wf, avoids => by
    rw [Template.marker, Template.unmarked_canonical_markFields wf.1 avoids.1, Template.sample,
      Template.unmarked_markFields fields wf.2 avoids.2]
  | .array items, wf, avoids => congrArg Json.arr (Template.unmarked_markItems items wf.2 avoids.2)
  | .matcher m, wf, avoids => m.unmarked_marker wf avoids

/-- Without its marks, the marker of a matcher is its example. -/
theorem Matcher.unmarked_marker : (m : Matcher) → (Template.matcher m).WellFormed →
    (Template.matcher m).Everywhere (Template.Avoids comparisonKey) →
    m.marker.canonical.unmarked = m.sample
  | .like content, wf, avoids | .equality content, wf, avoids =>
    (Matcher.unmarked_marker_eq (by nofun)).trans (content.unmarked_marker wf.2 avoids.2)
  | .regex .., _, _ | .integer _, _, _ | .null, _, _ | .includes _, _, _ | .moment .., _, _ =>
    Matcher.unmarked_marker_eq (by nofun)
  | .decimal sample, _, _ => (Matcher.unmarked_marker_eq (by nofun)).trans (Json.unmarked_float sample)
  | .repeated content min, wf, avoids => by
    have inside := content.unmarked_marker wf.2 avoids.2
    rw [Matcher.sample, ← inside, ← Json.unmarked_canonical_replicate]
    exact Matcher.unmarked_marker_eq (by nofun)
  | .bounded content min max, wf, avoids => by
    have inside := content.unmarked_marker wf.2 avoids.2
    rw [Matcher.sample, ← inside, ← Json.unmarked_canonical_replicate]
    exact Matcher.unmarked_marker_eq (by nofun)
  | .eachKeyLike key content, wf, avoids => by
    -- The map of the sample is an object in its own right, which must not be read as a matcher.
    have inside := content.unmarked_marker wf.2 avoids.2
    have absent : Dict.get? comparisonKey [(key, content.marker.canonical)] = none :=
      if_neg (Ne.symm avoids.1)
    rw [Matcher.sample, ← inside]
    exact (Matcher.unmarked_marker_eq (by nofun)).trans (Json.unmarked_obj_of_get?_eq_none absent)
  | .arrayContaining variants, wf, avoids =>
    (Matcher.unmarked_marker_eq (by nofun)).trans
      (congrArg Json.arr (Template.unmarked_markItems variants wf.2 avoids.2))
  | .fromProviderState _ _, wf, avoids =>
    (Matcher.unmarked_marker_eq (by nofun)).trans (Json.unmarked_canonical_of_lacks wf.1 avoids.1)
  | .record fields, wf, avoids => by
    rw [Matcher.marker, Template.unmarked_canonical_markFields wf.1 avoids.1, Matcher.sample,
      Template.unmarked_markFields fields wf.2 avoids.2]

theorem Template.unmarked_markItems : (items : List Template) →
    Template.EveryItem Template.InOrder items →
    Template.EveryItem (Template.Avoids comparisonKey) items →
    Json.unmarkedItems (Json.canonicalItems (Template.markItems items)) = Template.sampleItems items
  | [], _, _ => rfl
  | t :: rest, wf, avoids => by
    rw [Template.markItems, Json.canonicalItems, Json.unmarkedItems, Template.sampleItems,
      t.unmarked_marker wf.1 avoids.1, Template.unmarked_markItems rest wf.2 avoids.2]

theorem Template.unmarked_markFields : (fields : List (String × Template)) →
    Template.EveryField Template.InOrder fields →
    Template.EveryField (Template.Avoids comparisonKey) fields →
    Json.unmarkedMembers (Json.canonicalMembers (Template.markFields fields)) =
      Template.sampleFields fields
  | [], _, _ => rfl
  | (name, t) :: rest, wf, avoids => by
    rw [Template.markFields, Json.canonicalMembers, Json.unmarkedMembers, Template.sampleFields,
      t.unmarked_marker wf.1 avoids.1, Template.unmarked_markFields rest wf.2 avoids.2]

end

/-! ### Rules and generators -/

/-- `marked` tells what the document `doc` says: the word for its kind, which is under `key` in one and
under `other` in the other, and every further member but those in `untold`, under the same name. -/
structure Json.Tells (marked doc : Json) (key other : String) (untold : List String) : Prop where
  word : ∃ word, doc.member? key = some (.str word) ∧ marked.member? other = some (.str word)
  details : ∀ members, doc = .obj members → ∀ e ∈ members, e.1 ≠ key → e.1 ∉ untold →
    marked.member? e.1 = some e.2

/-- A marker tells a document if it names the kind and has each detail that is to be told. -/
theorem Json.Tells.of_details {marked : Json} {key other word : String} {untold : List String}
    {details : List (String × Json)} (named : marked.member? other = some (.str word))
    (told : ∀ e ∈ details, e.1 ∉ untold → marked.member? e.1 = some e.2) :
    marked.Tells (.obj ((key, .str word) :: details)) key other untold where
  word := ⟨word, if_pos rfl, named⟩
  details := by
    rintro _ ⟨⟩ e he apart out
    rcases List.mem_cons.1 he with rfl | he
    · exact absurd rfl apart
    · exact told e he out

/-- The members of a rule that the object of its matcher does not repeat: the variants of an array stand
there as templates. -/
def MatcherKind.untold : MatcherKind → List String
  | .arrayContaining => ["variants"]
  | _ => []

namespace Matcher

/-- A marker names the comparison of its matcher. -/
theorem member?_comparisonKey {m : Matcher} (own : m.kind ≠ .record) :
    m.marker.canonical.member? comparisonKey = some (.str m.kind.comparison) := by
  rw [member?_marker own, (keys_members own).2]
  rfl

/-- The object of a matcher tells the matcher's rule. -/
theorem tells_rule {m : Matcher} (own : m.kind ≠ .record) :
    ∃ rule, m.rule.value = some rule ∧
      m.marker.canonical.Tells rule.toJson "match" comparisonKey m.kind.untold := by
  have named := member?_comparisonKey own
  have found := member?_marker own
  cases m with
  | record => exact absurd rfl own
  | like | equality | integer | decimal | null | eachKeyLike | fromProviderState =>
    exact ⟨_, rfl, .of_details named (List.forall_mem_nil _)⟩
  | regex | includes | repeated =>
    refine ⟨_, rfl, .of_details named (List.forall_mem_singleton.2 ?_)⟩
    exact fun _ => found _
  | bounded =>
    refine ⟨_, rfl, .of_details named (List.forall_mem_cons.2 ⟨?_, List.forall_mem_singleton.2 ?_⟩)⟩
    · exact fun _ => found _
    · exact fun _ => found _
  | arrayContaining =>
    refine ⟨_, rfl, .of_details named (List.forall_mem_singleton.2 ?_)⟩
    exact fun out => absurd List.mem_cons_self out
  | moment kind =>
    cases kind <;>
    · refine ⟨_, rfl, .of_details named (List.forall_mem_singleton.2 ?_)⟩
      exact fun _ => found _

/-- The object of a matcher tells whether the matcher has a generator. -/
theorem isSome_generator_iff {m : Matcher} (own : m.kind ≠ .record) :
    m.generator.isSome = true ↔ (m.marker.canonical.member? generatorKey).isSome = true := by
  rw [member?_marker own]
  cases m with
  | record => exact absurd rfl own
  | fromProviderState | moment => exact iff_of_true rfl rfl
  | _ => exact iff_of_false nofun nofun

/-- The object of a matcher tells the matcher's generator. -/
theorem tells_generator {m : Matcher} (own : m.kind ≠ .record) {generator : Generator}
    (has : m.generator = some generator) :
    m.marker.canonical.Tells generator.toJson "type" generatorKey [] := by
  have found := member?_marker own
  cases m with
  | fromProviderState | moment =>
    obtain rfl := Option.some.inj has
    refine .of_details (found _) (List.forall_mem_singleton.2 ?_)
    exact fun _ => found _
  | _ => exact nomatch has

/-- Marker JSON and resolution describe the same: marker JSON without its markers is the example and so
the body of every resolution, and each matcher's object tells the matcher's rule and generator. -/
theorem marker_tells :
    (∀ t : Template, t.WellFormed → t.Everywhere (Template.Avoids comparisonKey) →
      t.marker.canonical.unmarked = t.sample ∧
        ∀ root, t.marker.canonical.unmarked = (t.resolveUnchecked root).value.body) ∧
    ∀ m : Matcher, m.kind ≠ .record →
      (∃ rule, m.rule.value = some rule ∧
        m.marker.canonical.Tells rule.toJson "match" comparisonKey m.kind.untold) ∧
      (m.generator.isSome = true ↔ (m.marker.canonical.member? generatorKey).isSome = true) ∧
      ∀ generator, m.generator = some generator →
        m.marker.canonical.Tells generator.toJson "type" generatorKey [] := by
  refine ⟨fun t wf avoids => ?template, fun m own => ?matcher⟩
  case template =>
    have bare := t.unmarked_marker wf avoids
    refine ⟨bare, fun root => ?_⟩
    exact bare.trans (t.walk_fst root).symm
  case matcher =>
    exact ⟨tells_rule own, isSome_generator_iff own, fun _ => tells_generator own⟩

/-- Two maps, with a literal that names a version but compares nothing, and a day. -/
theorem marker_tells_maps :
    let literal := Json.obj [("pact:specification", .str "4.0")]
    let maps := Matcher.bounded (.matcher (.eachKeyLike "key" (.literal literal))) 1 2
    let day := Matcher.moment .date "2000-01-01" "yyyy-MM-dd"
    (Template.matcher maps).WellFormed ∧
      (Template.matcher maps).Everywhere (Template.Avoids comparisonKey) ∧
      maps.kind ≠ .record ∧ day.kind ≠ .record ∧
      (Template.matcher maps).marker.canonical.unmarked =
        .arr [.obj [("key", literal)], .obj [("key", literal)]] ∧
      (∃ rule, maps.rule.value = some rule ∧
        maps.marker.canonical.Tells rule.toJson "match" comparisonKey []) ∧
      day.generator = some (.moment .date "yyyy-MM-dd") ∧
      day.marker.canonical.Tells (Generator.moment .date "yyyy-MM-dd").toJson "type" generatorKey
        [] := by
  intro literal maps day
  have wf : (Template.matcher maps).WellFormed :=
    ⟨trivial, trivial, Dict.ordered_singleton _, trivial, trivial⟩
  have avoids : (Template.matcher maps).Everywhere (Template.Avoids comparisonKey) :=
    ⟨trivial, (by decide : "key" ≠ comparisonKey), rfl, rfl, trivial⟩
  have ownMaps : maps.kind ≠ .record := by decide
  have ownDay : day.kind ≠ .record := by decide
  obtain ⟨bare, _⟩ := marker_tells.1 _ wf avoids
  obtain ⟨rule, _⟩ := marker_tells.2 maps ownMaps
  obtain ⟨_, _, generator⟩ := marker_tells.2 day ownDay
  exact ⟨wf, avoids, ownMaps, ownDay, bare, rule, rfl, generator _ rfl⟩

end Matcher

end ConsumerContract
