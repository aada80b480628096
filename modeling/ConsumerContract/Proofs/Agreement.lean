import ConsumerContract.Proofs.EarlyRules
import ConsumerContract.Proofs.Lookups

/-!
# What version 2 and later versions record of one draft

A draft that version 2 takes every later version takes, and what they record says the same: the examples
are equal, the query in one text is that of the query by name, and a rule stands in the one dictionary of
version 2 exactly where it stands, in a set of its own, among the rules by part. So
`Recorder.addInteraction_agrees` relates the contracts of two versions, rule by rule.
-/

namespace ConsumerContract

/-! ### Drafts assign templates to places -/

/-- A place of a payload holds one template. -/
theorem PayloadDraft.Holds.unique {p : PayloadDraft} (ordered : Dict.Ordered p.headers) {place : Place}
    {t u : Template} (ht : p.Holds place t) (hu : p.Holds place u) : t = u := by
  cases ht with
  | header ht =>
    cases hu with
    | header hu => exact Dict.eq_of_mem ordered ht hu
  | body ht =>
    cases hu with
    | body hu => exact BodyDraft.json.inj (Option.some.inj (ht.symm.trans hu))

theorem RequestDraft.Holds.unique {r : RequestDraft} (wf : r.WellFormed) {place : Place}
    {t u : Template} (ht : r.Holds place t) (hu : r.Holds place u) : t = u := by
  cases ht with
  | path =>
    cases hu with
    | path => rfl
    | payload hu => cases hu
  | query hvalues ht =>
    cases hu with
    | query others hu =>
      obtain rfl := Dict.eq_of_mem wf.query hvalues others
      exact Option.some.inj (ht.symm.trans hu)
    | payload hu => cases hu
  | payload ht =>
    cases hu with
    | path => cases ht
    | query => cases ht
    | payload hu => exact ht.unique wf.headers hu

/-- No place of a payload is a value of the query, so there is nothing to be ordered. -/
theorem PayloadDraft.ascending_places (p : PayloadDraft) :
    p.places.Pairwise fun a b => ∀ name i j, a.1 = .query name i → b.1 = .query name j → i < j := by
  apply List.pairwise_of_forall_mem_list
  intro a ha b _ name i j same
  have held := mem_places_iff.1 ha
  rw [same] at held
  cases held

/-- The values of each query parameter stand in the order of their indices. -/
theorem RequestDraft.ascending_places {r : RequestDraft} (ordered : Dict.Ordered r.query) :
    r.places.Pairwise fun a b => ∀ name i j, a.1 = .query name i → b.1 = .query name j → i < j := by
  rw [places, List.cons_append, List.pairwise_cons, List.pairwise_append]
  refine ⟨?path, ?query, r.payload.ascending_places, ?apart⟩
  case path =>
    intro b _ name i j same
    cases same
  case query =>
    rw [Place.ofQuery, List.pairwise_flatMap]
    constructor
    · intro q _
      rw [List.pairwise_iff_getElem]
      intro m n hm hn below name i j first second
      simp only [List.getElem_mapIdx, Place.query.injEq] at first second
      omega
    · apply List.Pairwise.imp _ ordered
      intro q s below a ha b hb name i j first second
      obtain ⟨m, _, rfl⟩ := List.mem_mapIdx.1 ha
      obtain ⟨n, _, rfl⟩ := List.mem_mapIdx.1 hb
      rw [(Place.query.inj first).1, (Place.query.inj second).1] at below
      exact absurd below (Std.lt_irrefl)
  case apart =>
    intro a _ b hb name i j _ same
    have held := PayloadDraft.mem_places_iff.1 hb
    rw [same] at held
    cases held

theorem PayloadDraft.assigned {p : PayloadDraft} (ordered : Dict.Ordered p.headers)
    {version : Version} (taken : ∀ place t, p.Holds place t → place.Takes version t) :
    Place.Assigned p.places where
  unique _ _ _ ht hu := (mem_places_iff.1 ht).unique ordered (mem_places_iff.1 hu)
  ascending := p.ascending_places
  scalar place t ht := (taken place t (mem_places_iff.1 ht)).scalar

/-- Where the version takes all templates of a request, its places are assigned. -/
theorem RequestDraft.assigned {r : RequestDraft} (wf : r.WellFormed) {version : Version}
    (taken : ∀ place t, r.Holds place t → place.Takes version t) : Place.Assigned r.places where
  unique _ _ _ ht hu := (mem_places_iff.1 ht).unique wf (mem_places_iff.1 hu)
  ascending := ascending_places wf.query
  scalar place t ht := (taken place t (mem_places_iff.1 ht)).scalar

/-! ### Rules in one dictionary and by part -/

/-- The path of a value of a query parameter in the one dictionary of version 2. -/
def Path.queryValue (name : String) (i : Nat) : String :=
  Path.index (Path.field "$.query" name) i

/-- A rule stands in the one dictionary exactly where it stands, in a set of its own, by part. Of several
values of a query parameter the first that has a rule decides. -/
structure Rules.AgreeWith (flat : Rules) (sets : ByPart RuleSet) : Prop where
  body : ∀ rest, Dict.get? ("$" ++ rest) sets.body =
    (Dict.get? ("$.body" ++ rest) flat).map Rule.alone
  header : ∀ name, Dict.get? name sets.header =
    (Dict.get? (Path.field "$.headers" name) flat).map Rule.alone
  path : sets.path = (Dict.get? "$.path" flat).map Rule.alone
  query : ∀ name set, Dict.get? name sets.query = some set ↔
    ∃ i rule, set = rule.alone ∧ Dict.get? (Path.queryValue name i) flat = some rule ∧
      ∀ j < i, Dict.get? (Path.queryValue name j) flat = none
  noQuery : ∀ name, Dict.get? name sets.query = none ↔
    ∀ i, Dict.get? (Path.queryValue name i) flat = none

/-- The rules of the resolution, each in a set of its own. -/
def Resolution.ruleSets (r : Resolution) : List (String × RuleSet) :=
  Rules.ruleSets r.rules

/-- The rule set at a path is the rule there, alone. -/
theorem Resolution.get?_ruleSets (r : Resolution) (path : String) :
    Dict.get? path r.ruleSets = (Dict.get? path r.rules).map Rule.alone :=
  Dict.get?_mapValues Rule.alone path r.rules

namespace Placed

open Place (Assigned)

variable {version : Version} {places : List (Place × Template)}

/-- What a later version says of a whole place is the rule at the template's root, alone. -/
theorem whole_ruleSets (t : Template) :
    whole Resolution.ruleSets t = t.rootRule.map Rule.alone :=
  Resolution.get?_ruleSets _ Path.root

/-- Outside the body the rule of a place is that of its template, in a set of its own or as it is. -/
theorem exists_whole_iff (assigned : Assigned places) {place : Place} (outside : place ≠ .body)
    {set : RuleSet} :
    (∃ t, (place, t) ∈ places ∧ whole Resolution.ruleSets t = some set) ↔
      (Dict.get? place.sharedRoot (sharedRules (ofPlaces .v2 places))).map Rule.alone = some set := by
  rw [Option.map_eq_some_iff]
  constructor
  · rintro ⟨t, ht, found⟩
    rw [whole_ruleSets, Option.map_eq_some_iff] at found
    obtain ⟨rule, hrule, rfl⟩ := found
    exact ⟨rule, (get?_sharedRules assigned outside).2 ⟨t, ht, hrule⟩, rfl⟩
  · rintro ⟨rule, found, rfl⟩
    obtain ⟨t, ht, hrule⟩ := (get?_sharedRules assigned outside).1 found
    exact ⟨t, ht, by rw [whole_ruleSets, hrule, Option.map_some]⟩

/-- A later version says nothing of a place exactly if version 2 has no rule at the place's own path. -/
theorem whole_eq_none_iff (assigned : Assigned places) {place : Place} (outside : place ≠ .body) :
    (∀ t, (place, t) ∈ places → whole Resolution.ruleSets t = none) ↔
      Dict.get? place.sharedRoot (sharedRules (ofPlaces .v2 places)) = none := by
  rw [← Option.map_eq_none_iff (f := Rule.alone), Option.eq_none_iff_forall_ne_some]
  simp only [ne_eq, ← exists_whole_iff assigned outside]
  constructor
  · rintro none set ⟨t, ht, found⟩
    rw [none t ht] at found
    cases found
  · intro none t ht
    apply Option.eq_none_iff_forall_ne_some.2
    intro set found
    exact none set ⟨t, ht, found⟩

/-- The first value of a parameter that has a rule decides by part. -/
theorem get?_query_rulesByPart (late : version ≠ .v2) (assigned : Assigned places) {name : String}
    {set : RuleSet} :
    Dict.get? name (rulesByPart (ofPlaces version places)).query = some set ↔
      ∃ i rule, set = Rule.alone rule ∧
        Dict.get? (Path.queryValue name i) (sharedRules (ofPlaces .v2 places)) = some rule ∧
        ∀ j < i, Dict.get? (Path.queryValue name j) (sharedRules (ofPlaces .v2 places)) = none := by
  have value (i : Nat) : Place.query name i ≠ .body := by simp
  constructor
  · intro h
    obtain ⟨i, t, ht, found, earlier⟩ := (get?_query_gather Resolution.ruleSets late assigned).1 h
    obtain ⟨rule, hrule, rfl⟩ :=
      Option.map_eq_some_iff.1 ((exists_whole_iff assigned (value i)).1 ⟨t, ht, found⟩)
    exact ⟨i, rule, rfl, hrule,
      fun j below => (whole_eq_none_iff assigned (value j)).1 (earlier j below)⟩
  · rintro ⟨i, rule, rfl, hrule, earlier⟩
    obtain ⟨t, ht, found⟩ :=
      (exists_whole_iff assigned (value i)).2 (Option.map_eq_some_iff.2 ⟨rule, hrule, rfl⟩)
    exact (get?_query_gather Resolution.ruleSets late assigned).2 ⟨i, t, ht, found,
      fun j below => (whole_eq_none_iff assigned (value j)).2 (earlier j below)⟩

/-- What a later version says at a path in the body, version 2 says at the same path below that of the
body. -/
theorem get?_body_rulesByPart (late : version ≠ .v2) (assigned : Assigned places) (rest : String) :
    Dict.get? (Path.root ++ rest) (rulesByPart (ofPlaces version places)).body =
      (Dict.get? (Place.body.sharedRoot ++ rest) (sharedRules (ofPlaces .v2 places))).map
        Rule.alone := by
  apply Option.ext
  intro set
  rw [Option.map_eq_some_iff]
  constructor
  · intro h
    obtain ⟨t, ht, found⟩ := (get?_body_gather Resolution.ruleSets late assigned).1 h
    rw [Resolution.get?_ruleSets, Option.map_eq_some_iff] at found
    obtain ⟨rule, hrule, rfl⟩ := found
    exact ⟨rule, (get?_sharedRules_body assigned).2 ⟨t, ht, hrule⟩, rfl⟩
  · rintro ⟨rule, found, rfl⟩
    obtain ⟨t, ht, hrule⟩ := (get?_sharedRules_body assigned).1 found
    refine (get?_body_gather Resolution.ruleSets late assigned).2 ⟨t, ht, ?_⟩
    rw [Resolution.get?_ruleSets, hrule, Option.map_some]

/-- What version 2 records of templates agrees with what later versions record of them. -/
theorem agreeWith (late : version ≠ .v2) (assigned : Assigned places) :
    (sharedRules (ofPlaces .v2 places)).AgreeWith (rulesByPart (ofPlaces version places)) := by
  refine ⟨get?_body_rulesByPart late assigned, ?header, ?path, ?query, ?noQuery⟩
  case header =>
    intro name
    apply Option.ext
    intro set
    exact (get?_header_gather Resolution.ruleSets late assigned).trans (exists_whole_iff assigned (by simp))
  case path =>
    apply Option.ext
    intro set
    exact (path_gather Resolution.ruleSets late assigned).trans (exists_whole_iff assigned (by simp))
  case query =>
    intro name set
    exact get?_query_rulesByPart late assigned
  case noQuery =>
    intro name
    constructor
    · intro absent i
      induction i using Nat.strongRecOn with
      | ind i earlier =>
        cases found : Dict.get? (Path.queryValue name i) (sharedRules (ofPlaces .v2 places)) with
        | none => rfl
        | some rule =>
          have present := (get?_query_rulesByPart late assigned).2 ⟨i, rule, rfl, found, earlier⟩
          rw [absent] at present
          cases present
    · intro nowhere
      apply Option.eq_none_iff_forall_ne_some.2
      intro set found
      obtain ⟨i, rule, _, hrule, _⟩ := (get?_query_rulesByPart late assigned).1 found
      rw [nowhere i] at hrule
      cases hrule

end Placed

/-! ### Interactions -/

namespace PartRules

/-- The rules, if there are any. -/
def ifAny (all : PartRules) : Option PartRules :=
  if all.isEmpty then none else some all

/-- The rules of version 2 stand in one dictionary, those of a later version by part, and they agree. -/
def Agree (early late : Option PartRules) : Prop :=
  ∃ flat sets, early = ifAny (.flat flat) ∧ late = ifAny (.byPart sets) ∧ Rules.AgreeWith flat sets

end PartRules

namespace Placed

/-- Version 2 and any later version have rules that agree place by place. -/
theorem agree_rules {version : Version} (late : version ≠ .v2) {places : List (Place × Template)}
    (assigned : Place.Assigned places) :
    PartRules.Agree (rules .v2 (ofPlaces .v2 places)) (rules version (ofPlaces version places)) := by
  refine ⟨_, rulesByPart (ofPlaces version places), rfl, ?_, agreeWith late assigned⟩
  simp only [rules, usesRuleSets_of_ne late, if_true]
  rfl

/-- Where no place has a generator, no generators are recorded. -/
theorem generators_eq_none {version : Version} {parts : List Placed}
    (h : ∀ p ∈ parts, p.resolution.generators = []) : generators version parts = none := by
  have nothing : generatorsByPart parts = {} := by
    apply List.foldlRecOn (motive := fun b : ByPart Generator => b = {}) parts
    · rfl
    · rintro _ rfl p hp
      rw [h p hp]
      cases p.place <;> rfl
  rw [generators, nothing]
  split <;> rfl

end Placed

/-- Two requests, of version 2 and of a later one, say the same. -/
structure Request.Agrees (style : QueryStyle) (early late : Request) : Prop where
  method : early.method = late.method
  path : early.path = late.path
  headers : early.headers = late.headers
  body : early.body = late.body
  query : ∃ values : Option (List (String × List String)), late.query = values.map .byName ∧
    early.query = values.map fun vs => .text (style.render vs)
  rules : PartRules.Agree early.rules late.rules
  generators : late.generators = none

/-- Two responses, of version 2 and of a later one, say the same. -/
structure Response.Agrees (early late : Response) : Prop where
  status : early.status = late.status
  headers : early.headers = late.headers
  body : early.body = late.body
  rules : PartRules.Agree early.rules late.rules
  generators : late.generators = none

/-- Two interactions, of version 2 and of a later one, say the same: version 2 has the name of the first
state. -/
structure Interaction.Agrees (style : QueryStyle) (early late : Interaction) : Prop where
  description : early.description = late.description
  state : early.state = late.states.head?.map ProviderState.name
  request : early.request.Agrees style late.request
  response : early.response.Agrees late.response

/-- What version 2 takes every version takes. -/
theorem Place.Takes.of_v2 {place : Place} {t : Template} (taken : place.Takes .v2 t)
    (version : Version) : place.Takes version t := by
  have newest : ¬ version < .v2 := by cases version <;> decide
  exact ⟨Template.validate_mono newest taken.valid, taken.scalar⟩

namespace Placed

/-- Templates that version 2 takes leave no generators in any version. -/
theorem generators_ofPlaces_eq_none {version : Version} {places : List (Place × Template)}
    (early : ∀ place t, (place, t) ∈ places → ∀ root, (t.resolveUnchecked root).value.IsEarly) :
    generators version (ofPlaces version places) = none := by
  apply generators_eq_none
  intro p hp
  obtain ⟨⟨place, t⟩, ht, rfl⟩ := List.mem_map.1 hp
  exact (early place t ht _).generators

end Placed

namespace Assembly

variable {version : Version}

/-- The requests that version 2 and a later version assemble from one draft agree. -/
theorem request_agrees (late : version ≠ .v2) (style other : QueryStyle) {r : RequestDraft}
    (wf : r.WellFormed) (taken : ∀ place t, r.Holds place t → place.Takes .v2 t)
    (early : ∀ place t, r.Holds place t → ∀ root, (t.resolveUnchecked root).value.IsEarly) :
    (r.assembled .v2 style).Agrees style (r.assembled version other) where
  method := rfl
  path := rfl
  headers := rfl
  body := rfl
  query := by
    simp only [RequestDraft.assembled, renderQuery, usesRuleSets_v2, usesRuleSets_of_ne late]
    by_cases empty : r.values.isEmpty = true
    · exact ⟨none, by simp [empty]⟩
    · exact ⟨some r.values, by simp [empty]⟩
  rules := Placed.agree_rules late (RequestDraft.assigned wf taken)
  generators := Placed.generators_ofPlaces_eq_none fun place t ht =>
    early place t (RequestDraft.mem_places_iff.1 ht)

/-- The responses that version 2 and a later version assemble from one draft agree. -/
theorem response_agrees (late : version ≠ .v2) {r : ResponseDraft} (wf : r.WellFormed)
    (taken : ∀ place t, r.payload.Holds place t → place.Takes .v2 t)
    (early : ∀ place t, r.payload.Holds place t → ∀ root,
      (t.resolveUnchecked root).value.IsEarly) :
    (r.assembled .v2).Agrees (r.assembled version) where
  status := rfl
  headers := rfl
  body := rfl
  rules := Placed.agree_rules late (PayloadDraft.assigned wf.headers taken)
  generators := Placed.generators_ofPlaces_eq_none fun place t ht =>
    early place t (PayloadDraft.mem_places_iff.1 ht)

/-- A draft that version 2 takes every later version takes, and the interactions agree. -/
theorem interaction_agrees (late : version ≠ .v2) {style : QueryStyle} (other : QueryStyle)
    {draft : InteractionDraft} (wf : draft.WellFormed) (asks : draft.AsksForItems) {i : Interaction}
    (h : (interaction .v2 style draft).result = .ok i) :
    ∃ j, (interaction version other draft).result = .ok j ∧ i.Agrees style j := by
  obtain ⟨r, s, hr, hs, taken, rfl⟩ := interaction_eq_ok_iff.1 h
  have early (place : Place) (t : Template) (held : draft.Holds place t) (root : String) :
      (t.resolveUnchecked root).value.IsEarly :=
    t.isEarly_of_validate (wf.templates held) (asks place t held) (taken place t held).valid root
  have later : (interaction version other draft).result = .ok (draft.assembled version other r s) :=
    interaction_eq_ok_iff.2
      ⟨r, s, hr, hs, fun place t held => (taken place t held).of_v2 version, rfl⟩
  refine ⟨_, later, ?description, ?state, ?request, ?response⟩
  case description => rfl
  case state =>
    rw [InteractionDraft.assembled, InteractionDraft.assembled, value_states, value_states,
      if_pos (usesRuleSets_of_ne late)]
    rfl
  case request =>
    exact request_agrees late style other (wf.request r hr)
      (fun place t held => taken place t (.request hr held))
      fun place t held => early place t (.request hr held)
  case response =>
    exact response_agrees late (wf.response s hs)
      (fun place t held => taken place t (.response hs held))
      fun place t held => early place t (.response hs held)

end Assembly

/-! ### Recorders -/

namespace Recorder

/-- A recorder takes an interaction exactly if it can be assembled, and puts it behind the others. -/
theorem addInteraction_eq_ok_iff {r r' : Recorder} {draft : InteractionDraft} {i : Interaction} :
    (r.addInteraction draft).result = .ok (i, r') ↔
      (Assembly.interaction r.settings.version r.settings.queryStyle draft).result = .ok i ∧
        r' = { r with contract.interactions := r.contract.interactions ++ [i] } := by
  rw [addInteraction, Attempt.bind_eq_ok]
  constructor
  · rintro ⟨j, found, same⟩
    obtain ⟨rfl, rfl⟩ := Prod.mk.inj (Except.ok.inj same)
    exact ⟨found, rfl⟩
  · rintro ⟨found, rfl⟩
    exact ⟨i, found, rfl⟩

/-- An interaction that a recorder of version 2 records every recorder of a later version records as
well, and what the two record agrees. -/
theorem addInteraction_agrees {early late : Recorder} (v2 : early.settings.version = .v2)
    (newer : late.settings.version ≠ .v2) {draft : InteractionDraft} (wf : draft.WellFormed)
    (asks : draft.AsksForItems) {i : Interaction} {early' : Recorder}
    (h : (early.addInteraction draft).result = .ok (i, early')) :
    ∃ j late', (late.addInteraction draft).result = .ok (j, late') ∧
      early'.contract.interactions = early.contract.interactions ++ [i] ∧
      late'.contract.interactions = late.contract.interactions ++ [j] ∧
      i.Agrees early.settings.queryStyle j := by
  obtain ⟨found, rfl⟩ := addInteraction_eq_ok_iff.1 h
  rw [v2] at found
  obtain ⟨j, later, agrees⟩ :=
    Assembly.interaction_agrees newer late.settings.queryStyle wf asks found
  exact ⟨j, _, addInteraction_eq_ok_iff.2 ⟨later, rfl⟩, rfl, rfl, agrees⟩

end Recorder

/-! ### A draft with odd names -/

namespace OddNames

open MarkerNames (word)

/-- Under a name that adds no segment, a text like any other. -/
def body : Template :=
  .object [("1", .matcher (.like (.ofString "b")))]

/-- A query with several values to a name, and a name that needs quotes. -/
def request : RequestDraft :=
  ((RequestDraft.addQuery { method := "get", path := word } "1" (.ofString "c")).addQuery "1" word).addQuery
    "it's" word

/-- A header whose name is a number, and a body. -/
def payload : PayloadDraft :=
  (({} : PayloadDraft).header "7" word).setBody (.json body)

/-- Two states, the request, and an answer to it. -/
def draft : InteractionDraft where
  description := "p"
  states := [⟨"ready", []⟩, ⟨"set", []⟩]
  request := some request
  response := some { status := 200, payload := payload }

/-- A recorder of the version that has recorded nothing. -/
def recorder (version : Version) : Recorder :=
  .ofSettings ⟨"web-app", "user-service", version, .ifSeveral, "info"⟩

theorem wellFormed_draft : draft.WellFormed := by
  have words : word.WellFormed := ⟨trivial, trivial⟩
  have plain : (Template.ofString "c").WellFormed := trivial
  have text : body.WellFormed := ⟨Dict.ordered_singleton _, ⟨trivial, trivial⟩, trivial⟩
  have asked : request.WellFormed :=
    (((RequestDraft.wellFormed_new "get" words).addQuery "1" plain).addQuery "1" words).addQuery
      "it's" words
  have answered : payload.WellFormed := by
    apply (PayloadDraft.wellFormed_empty.header "7" words).setBody
    intro t given
    rw [← BodyDraft.json.inj given]
    exact text
  have states : ∀ s ∈ draft.states, s.InOrder := by
    intro s hs
    rcases List.mem_cons.1 hs with rfl | hs
    · exact ⟨Dict.ordered_nil, fun e he => absurd he List.not_mem_nil⟩
    · rw [List.mem_singleton.1 hs]
      exact ⟨Dict.ordered_nil, fun e he => absurd he List.not_mem_nil⟩
  refine ⟨states, ?_, ?_⟩
  · intro r given
    rw [← Option.some.inj given]
    exact asked
  · intro r given
    rw [← Option.some.inj given]
    exact ResponseDraft.wellFormed_iff.2 answered

theorem asksForItems_draft : draft.AsksForItems := by
  have templates : Template.EveryItem Template.AsksForItem
      [word, .ofString "c", word, word, word, .ofString BodyDraft.jsonContentType, body] :=
    ⟨⟨trivial, trivial⟩, trivial, ⟨trivial, trivial⟩, ⟨trivial, trivial⟩, ⟨trivial, trivial⟩, trivial,
      ⟨trivial, ⟨trivial, trivial⟩, trivial⟩, trivial⟩
  exact InteractionDraft.everywhere_of_places rfl rfl templates

theorem addInteraction_agrees_odd_names :
    ∃ i j early late,
      ((recorder .v2).addInteraction draft).result = .ok (i, early) ∧
      ((recorder .v4).addInteraction draft).result = .ok (j, late) ∧ i.Agrees .ifSeveral j ∧
      i.request.rules = some (.flat [("$.path", .regex "[a-z]"),
        ("$.query.1[1]", .regex "[a-z]"), ("$.query['it\\'s'][0]", .regex "[a-z]")]) := by
  obtain ⟨i, early, recorded, rules⟩ : ∃ i early,
      ((recorder .v2).addInteraction draft).result = .ok (i, early) ∧
      i.request.rules = some (.flat [("$.path", .regex "[a-z]"),
        ("$.query.1[1]", .regex "[a-z]"), ("$.query['it\\'s'][0]", .regex "[a-z]")]) :=
    ⟨_, _, by rfl, by rfl⟩
  have newer : (recorder .v4).settings.version ≠ .v2 := by decide
  obtain ⟨j, late, later, _, _, agrees⟩ :=
    Recorder.addInteraction_agrees rfl newer wellFormed_draft asksForItems_draft recorded
  exact ⟨i, j, early, late, recorded, later, agrees, rules⟩

end OddNames

end ConsumerContract
