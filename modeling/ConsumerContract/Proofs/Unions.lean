import ConsumerContract.Proofs.Agreement
import Mathlib.Algebra.GroupWithZero.Nat

/-!
# Nothing is lost when parts are put together

Later versions look only at what is recorded at the root of a path, a header or a value of the query, and
version 2 puts the rules of all parts into one dictionary, one part after the other. Neither loses anything.
A template whose example is a text has nothing recorded but at its root (`Template.onlyAt_of_scalar`), so
the root is enough; and no two places of a draft are the same, nor do two places share a path, so in the one
dictionary no rule stands in the way of another (`Placed.isUnion_sharedRules`).
-/

namespace ConsumerContract

/-! ### Templates of texts -/

/-- Nothing is recorded but at `root`, and there one rule and one generator at most. -/
structure Resolution.OnlyAt (r : Resolution) (root : String) : Prop where
  rules : ∀ e ∈ r.rules, e.1 = root
  generators : ∀ e ∈ r.generators, e.1 = root
  oneRule : r.rules.length ≤ 1
  oneGenerator : r.generators.length ≤ 1

namespace Template

/-- A template whose example is a scalar leaves one rule and one generator at most, at its root. -/
theorem onlyAt_of_scalar {t : Template} (scalar : t.sample.asScalar?.isSome = true) (root : String) :
    (t.resolveUnchecked root).value.OnlyAt root := by
  have rules : ∀ e ∈ (t.resolveUnchecked root).value.rules, e.1 = root := by
    rw [rules_resolveUnchecked]
    exact eq_of_mem_entries_of_scalar scalar
  have generators : ∀ e ∈ (t.resolveUnchecked root).value.generators, e.1 = root := by
    rw [generators_resolveUnchecked]
    exact eq_of_mem_entries_of_scalar scalar
  exact ⟨rules, generators, (Dict.ordered_ofList _).length_le_one rules,
    (Dict.ordered_ofList _).length_le_one generators⟩

end Template

/-! ### What a template leaves -/

section

variable {α : Type}

/-- Somewhere in the resolution of the template `said` finds `a`. -/
def Template.Leaves (said : Resolution → List (String × α)) (t : Template) (a : α) : Prop :=
  ∃ path, (path, a) ∈ said (t.resolveUnchecked Path.root).value

/-- What `said` finds in the resolution of a text stands at the root, and once. -/
def Resolution.IsTerse (said : Resolution → List (String × α)) : Prop :=
  ∀ t : Template, t.sample.asScalar?.isSome = true →
    Dict.Ordered (said (t.resolveUnchecked Path.root).value) ∧
      ∀ e ∈ said (t.resolveUnchecked Path.root).value, e.1 = Path.root

/-- The rule sets of a scalar say one thing at most. -/
theorem Resolution.isTerse_ruleSets : IsTerse Resolution.ruleSets := by
  intro t scalar
  refine ⟨(Dict.ordered_ofList _).mapValues _, ?_⟩
  intro e he
  obtain ⟨rule, hrule, rfl⟩ := List.mem_map.1 he
  exact (t.onlyAt_of_scalar scalar Path.root).rules rule hrule

theorem Resolution.isTerse_generators : IsTerse Resolution.generators :=
  fun t scalar => ⟨Dict.ordered_ofList _, (t.onlyAt_of_scalar scalar Path.root).generators⟩

/-- What is said of a text as a whole is all that is said of it. -/
theorem Placed.whole_eq_some_iff {said : Resolution → List (String × α)}
    (terse : Resolution.IsTerse said) {t : Template} (scalar : t.sample.asScalar?.isSome = true)
    {a : α} : whole said t = some a ↔ t.Leaves said a := by
  obtain ⟨ordered, only⟩ := terse t scalar
  constructor
  · intro found
    exact ⟨Path.root, Dict.mem_of_get? found⟩
  · rintro ⟨path, stored⟩
    obtain rfl : path = Path.root := only _ stored
    exact Dict.get?_of_mem ordered stored

/-- Nothing is said of a whole place exactly if its template leaves nothing. -/
theorem Placed.whole_eq_none_iff_forall {said : Resolution → List (String × α)}
    (terse : Resolution.IsTerse said) {t : Template} (scalar : t.sample.asScalar?.isSome = true) :
    whole said t = none ↔ ∀ a, ¬ t.Leaves said a := by
  simp only [Option.eq_none_iff_forall_ne_some, ne_eq, whole_eq_some_iff terse scalar]

/-- What is said by part is what the templates at their places leave: of the path and of a header what its
template leaves, of a query parameter what the first of its values leaves that leaves anything, and of the
body what is found in its resolution. -/
structure ByPart.LeftBy (said : Resolution → List (String × α)) (holds : Place → Template → Prop)
    (b : ByPart α) : Prop where
  path : ∀ a, b.path = some a ↔ ∃ t, holds .path t ∧ t.Leaves said a
  header : ∀ name a, Dict.get? name b.header = some a ↔
    ∃ t, holds (.header name) t ∧ t.Leaves said a
  query : ∀ name a, Dict.get? name b.query = some a ↔
    ∃ i t, holds (.query name i) t ∧ t.Leaves said a ∧
      ∀ j < i, ∀ u, holds (.query name j) u → ∀ other, ¬ u.Leaves said other
  body : ∀ path a, Dict.get? path b.body = some a ↔
    ∃ t, holds .body t ∧ Dict.get? path (said (t.resolveUnchecked Path.root).value) = some a

/-- What is gathered by part is what the templates leave. -/
theorem Placed.leftBy_gather {said : Resolution → List (String × α)}
    (terse : Resolution.IsTerse said) {version : Version} (late : version ≠ .v2)
    {places : List (Place × Template)} (assigned : Place.Assigned places) :
    (gather said (ofPlaces version places)).LeftBy said fun place t => (place, t) ∈ places := by
  -- Only what is said of a place as a whole is taken up; outside the body that is everything.
  have left {place : Place} {t : Template} (ht : (place, t) ∈ places) (outside : place ≠ .body)
      (a : α) : whole said t = some a ↔ t.Leaves said a :=
    whole_eq_some_iff terse (assigned.scalar place t ht outside)
  have nothing {place : Place} {t : Template} (ht : (place, t) ∈ places) (outside : place ≠ .body) :
      whole said t = none ↔ ∀ a, ¬ t.Leaves said a :=
    whole_eq_none_iff_forall terse (assigned.scalar place t ht outside)
  refine ⟨?path, ?header, ?query, fun path a => get?_body_gather said late assigned⟩
  case path =>
    intro a
    rw [path_gather said late assigned]
    exact exists_congr fun t => and_congr_right fun ht => left ht (by simp) a
  case header =>
    intro name a
    rw [get?_header_gather said late assigned]
    exact exists_congr fun t => and_congr_right fun ht => left ht (by simp) a
  case query =>
    intro name a
    rw [get?_query_gather said late assigned]
    refine exists_congr fun i => exists_congr fun t => and_congr_right fun ht => ?_
    refine and_congr (left ht (by simp) a) ?_
    exact forall_congr' fun j => forall_congr' fun _ => forall_congr' fun u => forall_congr' fun hu =>
      nothing hu (by simp)

end

/-! ### No place twice -/

/-- No place occurs twice. -/
def Place.Distinct (places : List (Place × Template)) : Prop :=
  places.Pairwise fun a b => a.1 ≠ b.1

/-- No two headers stand at one place. -/
theorem Place.distinct_ofHeaders {fields : List (String × Template)} (ordered : Dict.Ordered fields) :
    Distinct (ofHeaders fields) := by
  rw [Distinct, ofHeaders, List.pairwise_map]
  apply List.Pairwise.imp _ ordered
  intro a b below same
  exact Std.ne_of_lt below (Place.header.inj same)

theorem Place.distinct_ofQuery {parameters : List (String × List Template)}
    (ordered : Dict.Ordered parameters) : Distinct (ofQuery parameters) := by
  rw [Distinct, ofQuery, List.pairwise_flatMap]
  constructor
  · intro q _
    rw [List.pairwise_iff_getElem]
    intro m n hm hn below
    simp only [List.getElem_mapIdx, ne_eq, Place.query.injEq]
    omega
  · apply List.Pairwise.imp _ ordered
    intro q s below a ha b hb same
    obtain ⟨m, _, rfl⟩ := List.mem_mapIdx.1 ha
    obtain ⟨n, _, rfl⟩ := List.mem_mapIdx.1 hb
    exact Std.ne_of_lt below (Place.query.inj same).1

theorem Place.exists_of_mem_ofQuery {parameters : List (String × List Template)}
    {e : Place × Template} (h : e ∈ ofQuery parameters) : ∃ name i, e.1 = .query name i := by
  obtain ⟨q, _, he⟩ := List.mem_flatMap.1 h
  obtain ⟨i, _, rfl⟩ := List.mem_mapIdx.1 he
  exact ⟨q.1, i, rfl⟩

theorem PayloadDraft.distinct_places {p : PayloadDraft} (ordered : Dict.Ordered p.headers) :
    Place.Distinct p.places := by
  refine List.pairwise_append.2 ⟨Place.distinct_ofHeaders ordered, ?body, ?apart⟩
  case body =>
    rw [Place.ofBody]
    cases p.body.bind BodyDraft.template? with
    | none => exact .nil
    | some t => exact List.pairwise_singleton ..
  case apart =>
    intro a ha b hb
    obtain ⟨_, _, rfl⟩ := List.mem_map.1 ha
    obtain ⟨_, _, rfl⟩ := List.mem_map.1 hb
    simp

/-- No two templates of a request stand at one place. -/
theorem RequestDraft.distinct_places {r : RequestDraft} (wf : r.WellFormed) :
    Place.Distinct r.places := by
  have other (b : Place × Template) (hb : b ∈ r.payload.places) :
      b.1 ≠ .path ∧ ∀ name i, b.1 ≠ .query name i := by
    cases h : b.1 with
    | header | body => simp
    | path | query =>
      have held := PayloadDraft.mem_places_iff.1 hb
      rw [h] at held
      cases held
  rw [Place.Distinct, places, List.cons_append, List.pairwise_cons, List.pairwise_append]
  refine ⟨?first, Place.distinct_ofQuery wf.query, PayloadDraft.distinct_places wf.headers, ?apart⟩
  case first =>
    intro b hb
    rcases List.mem_append.1 hb with hb | hb
    · obtain ⟨name, i, value⟩ := Place.exists_of_mem_ofQuery hb
      simp [value]
    · exact (other b hb).1.symm
  case apart =>
    intro a ha b hb
    obtain ⟨name, i, value⟩ := Place.exists_of_mem_ofQuery ha
    rw [value]
    exact ((other b hb).2 name i).symm

/-! ### The one dictionary of version 2 -/

/-- The rules of the template at the path of its place in the one dictionary of version 2. -/
def Place.rulesAt (place : Place) (t : Template) : Rules :=
  (t.resolveUnchecked place.sharedRoot).value.rules

/-- The dictionary is the disjoint union of the rules of the templates at their places: no path has rules of
two of them, and it holds all of their rules and nothing else. -/
structure Rules.IsUnion (places : List (Place × Template)) (flat : Rules) : Prop where
  ordered : Dict.Ordered flat
  apart : places.Pairwise fun a b => ∀ path,
    Dict.has path (a.1.rulesAt a.2) = true → Dict.has path (b.1.rulesAt b.2) = false
  all : flat.Perm (places.flatMap fun e => e.1.rulesAt e.2)
  count : flat.length = (places.map fun e => (e.1.rulesAt e.2).length).sum

namespace Placed

open Place (Assigned rulesAt)

/-- One part after the other is all parts at once. -/
theorem sharedRules_eq_ofList (parts : List Placed) :
    sharedRules parts = Dict.ofList (parts.flatMap fun p => p.resolution.rules) := by
  have fold (d : Rules) :
      parts.foldl (fun rules p => Dict.insertAll rules p.resolution.rules) d =
        Dict.insertAll d (parts.flatMap fun p => p.resolution.rules) := by
    induction parts generalizing d with
    | nil => rfl
    | cons p rest ih => rw [List.foldl_cons, ih, List.flatMap_cons, Dict.insertAll_append]
  exact fold []

/-- The one dictionary of version 2 is made of the rules of all places, in order. -/
theorem sharedRules_ofPlaces (places : List (Place × Template)) :
    sharedRules (ofPlaces .v2 places) =
      Dict.ofList (places.flatMap fun e => e.1.rulesAt e.2) := by
  rw [sharedRules_eq_ofList, ofPlaces, List.flatMap_map]
  rfl

variable {places : List (Place × Template)}

/-- Two places have no path in common. -/
theorem apart_rulesAt (assigned : Assigned places) (distinct : Place.Distinct places) :
    places.Pairwise fun a b => ∀ path,
      Dict.has path (a.1.rulesAt a.2) = true → Dict.has path (b.1.rulesAt b.2) = false := by
  refine List.Pairwise.imp_of_mem ?_ distinct
  intro a b ha hb other path first
  rw [Bool.eq_false_iff]
  intro second
  obtain ⟨rule, hrule⟩ := Dict.has_iff.1 first
  obtain ⟨stored, hstored⟩ := Dict.has_iff.1 second
  exact other
    ((owns_of_get?_rules assigned ha hrule).unique (owns_of_get?_rules assigned hb hstored))

/-- No two rules of all places have one path. -/
theorem nodup_rulesAt (assigned : Assigned places) (distinct : Place.Distinct places) :
    ((places.flatMap fun e => e.1.rulesAt e.2).map (·.1)).Nodup := by
  apply List.pairwise_map.2
  rw [List.pairwise_flatMap]
  -- Within a part the keys are those of a dictionary, and between parts no path is shared.
  refine ⟨fun e _ => List.pairwise_map.1 (Dict.ordered_ofList _).nodup_keys, ?_⟩
  apply (apart_rulesAt assigned distinct).imp
  intro a b apart e he f hf same
  have first : Dict.has e.1 (a.1.rulesAt a.2) = true := Dict.has_of_mem he
  have second : Dict.has e.1 (b.1.rulesAt b.2) = true := same ▸ Dict.has_of_mem hf
  rw [apart _ first] at second
  cases second

/-- The one dictionary of version 2 is the union of the rules of all places. -/
theorem isUnion_sharedRules (assigned : Assigned places) (distinct : Place.Distinct places) :
    (sharedRules (ofPlaces .v2 places)).IsUnion places := by
  have kept := Dict.ofList_perm (nodup_rulesAt assigned distinct)
  rw [sharedRules_ofPlaces]
  refine ⟨Dict.ordered_ofList _, apart_rulesAt assigned distinct, kept, ?_⟩
  rw [kept.length_eq, List.length_flatMap]

end Placed

/-! ### Interactions -/

/-- What is said by part, if anything is. -/
def ByPart.ifAny {α : Type} (b : ByPart α) : Option (ByPart α) :=
  if b.isEmpty then none else some b

/-- The rules and the generators of a later version are those that the templates leave. -/
structure Place.Kept (holds : Place → Template → Prop) (rules : Option PartRules)
    (generators : Option (ByPart Generator)) : Prop where
  rules : ∃ sets, rules = PartRules.ifAny (.byPart sets) ∧ sets.LeftBy Resolution.ruleSets holds
  generators : ∃ all : ByPart Generator, generators = all.ifAny ∧ all.LeftBy Resolution.generators holds

/-- The rules of version 2 are the disjoint union of those of the templates. -/
def Place.United (places : List (Place × Template)) (rules : Option PartRules) : Prop :=
  ∃ flat, rules = PartRules.ifAny (.flat flat) ∧ flat.IsUnion places

namespace Placed

variable {places : List (Place × Template)}

/-- Later versions keep all that the templates leave. -/
theorem kept_ofPlaces {version : Version} (late : version ≠ .v2) (assigned : Place.Assigned places)
    {holds : Place → Template → Prop} (held : ∀ {place t}, (place, t) ∈ places ↔ holds place t) :
    Place.Kept holds (rules version (ofPlaces version places))
      (generators version (ofPlaces version places)) := by
  have same : (fun place t => (place, t) ∈ places) = holds :=
    funext fun _ => funext fun _ => propext held
  constructor
  · refine ⟨_, ?_, same ▸ leftBy_gather Resolution.isTerse_ruleSets late assigned⟩
    rw [rules, usesRuleSets_of_ne late]
    rfl
  · refine ⟨_, ?_, same ▸ leftBy_gather Resolution.isTerse_generators late assigned⟩
    rw [generators, usesRuleSets_of_ne late]
    rfl

/-- Version 2 unites all that the templates leave. -/
theorem united_ofPlaces {version : Version} (early : version = .v2)
    (assigned : Place.Assigned places) (distinct : Place.Distinct places) :
    Place.United places (rules version (ofPlaces version places)) := by
  subst early
  exact ⟨_, rfl, isUnion_sharedRules assigned distinct⟩

end Placed

namespace Recorder

/-- Putting parts together loses nothing. A template that is resolved to a text, a number or a truth value
has a rule and a generator at its root at most; so in every interaction that is recorded, later versions
keep by part all that the templates leave, and version 2 unites the rules of all of them in one
dictionary. -/
theorem addInteraction_loses_nothing :
    (∀ (t : Template) (root : String),
      (t.resolveUnchecked root).value.body.asScalar?.isSome = true →
      (t.resolveUnchecked root).value.OnlyAt root) ∧
    ∀ (before after : Recorder) (draft : InteractionDraft) (i : Interaction), draft.WellFormed →
      (before.addInteraction draft).result = .ok (i, after) →
      ∃ request response, draft.request = some request ∧ draft.response = some response ∧
        (before.settings.version ≠ .v2 →
          Place.Kept request.Holds i.request.rules i.request.generators ∧
            Place.Kept response.payload.Holds i.response.rules i.response.generators) ∧
        (before.settings.version = .v2 →
          Place.United request.places i.request.rules ∧
            Place.United response.payload.places i.response.rules) := by
  refine ⟨fun t root scalar => ?texts, fun before after draft i wf recorded => ?interactions⟩
  case texts =>
    have body : (t.resolveUnchecked root).value.body = t.sample := t.walk_fst root
    rw [body] at scalar
    exact t.onlyAt_of_scalar scalar root
  case interactions =>
    obtain ⟨found, _⟩ := addInteraction_eq_ok_iff.1 recorded
    obtain ⟨r, s, hr, hs, taken, rfl⟩ := Assembly.interaction_eq_ok_iff.1 found
    have asked : Place.Assigned r.places :=
      RequestDraft.assigned (wf.request r hr) fun place t held => taken place t (.request hr held)
    have answered : Place.Assigned s.payload.places :=
      PayloadDraft.assigned (wf.response s hs).headers
        fun place t held => taken place t (.response hs held)
    refine ⟨r, s, hr, hs, fun late => ⟨?_, ?_⟩, fun early => ⟨?_, ?_⟩⟩
    · exact Placed.kept_ofPlaces late asked RequestDraft.mem_places_iff
    · exact Placed.kept_ofPlaces late answered PayloadDraft.mem_places_iff
    · exact Placed.united_ofPlaces early asked (RequestDraft.distinct_places (wf.request r hr))
    · exact Placed.united_ofPlaces early answered
        (PayloadDraft.distinct_places (wf.response s hs).headers)

end Recorder

namespace OddNames

open MarkerNames (word)

/-- A parameter named by a number: its second value has a rule, its third a rule and a generator. -/
def search : RequestDraft :=
  ((RequestDraft.addQuery { method := "get", path := .ofString "/" } "7" (.ofString "c")).addQuery "7"
    word).addQuery "7" (.matcher (.moment .date "2000-01-01" "yyyy-MM-dd"))

/-- The search, and an empty answer to it. -/
def searchDraft : InteractionDraft where
  description := "s"
  request := some search
  response := some { status := 204 }

theorem wellFormed_searchDraft : searchDraft.WellFormed := by
  have words : word.WellFormed := ⟨trivial, trivial⟩
  have day : (Template.matcher (.moment .date "2000-01-01" "yyyy-MM-dd")).WellFormed :=
    ⟨trivial, trivial⟩
  have slash : (Template.ofString "/").WellFormed := trivial
  have letter : (Template.ofString "c").WellFormed := trivial
  have asked : search.WellFormed :=
    (((RequestDraft.wellFormed_new "get" slash).addQuery "7" letter).addQuery "7" words).addQuery "7" day
  exact ((InteractionDraft.wellFormed_new "s").withRequest asked).withResponse
    (ResponseDraft.wellFormed_iff.2 PayloadDraft.wellFormed_empty)

/-- Names that are numbers or need quotes, in one dictionary; and a parameter whose rule and generator come
from two of its values. -/
theorem addInteraction_loses_nothing_odd_names :
    (word.resolveUnchecked "$.headers.7").value.OnlyAt "$.headers.7" ∧
    (∃ i early, ((recorder .v2).addInteraction draft).result = .ok (i, early) ∧
      Place.United request.places i.request.rules ∧ Place.United payload.places i.response.rules ∧
      i.response.rules = some (.flat [("$.body", .sameType), ("$.headers.7", .regex "[a-z]")])) ∧
    ∃ j late, ((recorder .v4).addInteraction searchDraft).result = .ok (j, late) ∧
      Place.Kept search.Holds j.request.rules j.request.generators ∧
      j.request.rules = some (.byPart { query := [("7", (Rule.regex "[a-z]").alone)] }) ∧
      j.request.generators = some { query := [("7", .moment .date "yyyy-MM-dd")] } := by
  obtain ⟨texts, interactions⟩ := Recorder.addInteraction_loses_nothing
  refine ⟨texts word "$.headers.7" (by rfl), ?early, ?late⟩
  case early =>
    obtain ⟨i, early, recorded, rules⟩ : ∃ i early,
        ((recorder .v2).addInteraction draft).result = .ok (i, early) ∧
        i.response.rules = some (.flat [("$.body", .sameType), ("$.headers.7", .regex "[a-z]")]) :=
      ⟨_, _, by rfl, by rfl⟩
    obtain ⟨r, s, hr, hs, _, united⟩ := interactions _ _ _ _ wellFormed_draft recorded
    obtain rfl := Option.some.inj hr
    obtain rfl := Option.some.inj hs
    obtain ⟨requested, responded⟩ := united rfl
    exact ⟨i, early, recorded, requested, responded, rules⟩
  case late =>
    obtain ⟨j, late, recorded, rules, generators⟩ : ∃ j late,
        ((recorder .v4).addInteraction searchDraft).result = .ok (j, late) ∧
        j.request.rules = some (.byPart { query := [("7", (Rule.regex "[a-z]").alone)] }) ∧
        j.request.generators = some { query := [("7", .moment .date "yyyy-MM-dd")] } :=
      ⟨_, _, by rfl, by rfl, by rfl⟩
    obtain ⟨r, _, hr, _, kept, _⟩ := interactions _ _ _ _ wellFormed_searchDraft recorded
    obtain rfl := Option.some.inj hr
    have newer : (recorder .v4).settings.version ≠ .v2 := by decide
    exact ⟨j, late, recorded, (kept newer).1, rules, generators⟩

end OddNames

end ConsumerContract
