import ConsumerContract.Proofs.Agreement
import ConsumerContract.Proofs.RoundTrip

/-!
# Everything that is said is said of something recorded

A contract says something of places in bodies, of headers, of query parameters and of paths. Whatever it
says, what it speaks of stands beside it: paths lead into the body that is recorded, names are those of
recorded headers and parameters. In version 2 one dictionary speaks of all parts of a request, and each of
its keys tells which part is meant. A body that is raw or missing has nothing said of it.

The rules were found at some place of the draft, `Placed.exists_owner` and the lemmas on what is gathered
by part, and what stands there is recorded; in bodies, resolutions are aligned with their examples. So it
is for every assembled request, response and message, and so for whole runs: `Desk.run_aligned`.
-/

namespace ConsumerContract

open ConsumerContract.Path (root resolves)

/-! ### Templates as they are built -/

/-- The template is as builders make it, and each of its fields and items has a segment of its own. -/
structure Template.IsBuilt (t : Template) : Prop where
  form : t.WellFormed
  asks : t.Everywhere Template.AsksForItem
  places : t.Everywhere Template.IsAddressable

namespace Template

/-- Every rule of a built template leads into its example. -/
theorem IsBuilt.resolves_of_has_rules {t : Template} (built : t.IsBuilt) {path : String}
    (h : Dict.has path (t.resolveUnchecked root).value.rules = true) :
    resolves t.sample path = true := by
  obtain ⟨s, m, found, _, rfl⟩ := (has_rules_iff (.of_everywhere built.places)).1 h
  exact found.resolves built.form built.asks built.places

theorem IsBuilt.resolves_of_has_ruleSets {t : Template} (built : t.IsBuilt) (path : String)
    (h : Dict.has path (t.resolveUnchecked root).value.ruleSets = true) :
    resolves t.sample path = true :=
  built.resolves_of_has_rules ((has_ruleSets _ path).symm.trans h)

theorem IsBuilt.resolves_of_has_generators {t : Template} (built : t.IsBuilt) (path : String)
    (h : Dict.has path (t.resolveUnchecked root).value.generators = true) :
    resolves t.sample path = true := by
  obtain ⟨s, m, found, _, rfl⟩ := (has_generators_iff (.of_everywhere built.places)).1 h
  exact found.resolves built.form built.asks built.places

end Template

/-! ### What is spoken of -/

/-- What is said of parts is said of places in the body, of headers and of parameters of the query that are
there. -/
structure ByPart.SpeaksOf {α : Type} (b : ByPart α) (headers : List (String × String))
    (parameters : Option Query) (contents : Option Json) : Prop where
  body : ∀ path, Dict.has path b.body = true → ∃ v, contents = some v ∧ resolves v path = true
  header : ∀ name, Dict.has name b.header = true → Dict.has name headers = true
  query : ∀ name, Dict.has name b.query = true →
    ∃ values, parameters = some (.byName values) ∧ Dict.has name values = true

/-- The path is, in the one dictionary of version 2, that of a header or of a place in the body. -/
inductive PayloadKey (headers : List (String × String)) (contents : Option Json) : String → Prop where
  | header {name} : Dict.has name headers = true →
      PayloadKey headers contents (Path.field "$.headers" name)
  | body {v rest} : contents = some v → resolves v ("$" ++ rest) = true →
      PayloadKey headers contents ("$.body" ++ rest)

/-- The path is, in the one dictionary of version 2, that of a part of the request: what is asked for in the
query is told by the draft, as the request has the query in one text. -/
inductive RequestKey (draft : RequestDraft) (r : Request) : String → Prop where
  | path : RequestKey draft r "$.path"
  | query {name values} {i : Nat} : Dict.get? name draft.query = some values → i < values.length →
      RequestKey draft r (Path.queryValue name i)
  | payload {path} : PayloadKey r.headers r.body path → RequestKey draft r path

/-- The body is raw or missing. -/
def PayloadDraft.IsBare (p : PayloadDraft) : Prop :=
  p.body = none ∨ ∃ contentType bytes, p.body = some (.raw contentType bytes)

/-- Rules and generators of version 2: under keys of its dictionary only, of a bare body none. -/
structure EarlyPlacement (isKey : String → Prop) (bare : Prop) (rules : Option PartRules)
    (generators : Option (ByPart Generator)) : Prop where
  rules : ∀ p, rules = some p → ∃ flat, p = .flat flat ∧
    (∀ path, Dict.has path flat = true → isKey path) ∧
    (bare → ∀ rest, Dict.has ("$.body" ++ rest) flat = false)
  generators : generators = none

/-- Rules and generators of later versions: they speak of what is there, and not of a bare body. -/
structure LatePlacement (headers : List (String × String)) (parameters : Option Query)
    (contents : Option Json) (bare : Prop) (rules : Option PartRules)
    (generators : Option (ByPart Generator)) : Prop where
  rules : ∀ p, rules = some p → ∃ sets, p = .byPart sets ∧
    sets.SpeaksOf headers parameters contents ∧ (bare → sets.body = [])
  generators : ∀ g, generators = some g → g.SpeaksOf headers parameters contents ∧ (bare → g.body = [])

/-- The request of the draft says everything of something in it. -/
structure Request.Aligned (version : Version) (draft : RequestDraft) (r : Request) : Prop where
  early : version = .v2 →
    EarlyPlacement (RequestKey draft r) draft.payload.IsBare r.rules r.generators
  late : version ≠ .v2 →
    LatePlacement r.headers r.query r.body draft.payload.IsBare r.rules r.generators

/-- The response of the draft says everything of something in it. -/
structure Response.Aligned (version : Version) (draft : ResponseDraft) (r : Response) : Prop where
  early : version = .v2 →
    EarlyPlacement (PayloadKey r.headers r.body) draft.payload.IsBare r.rules r.generators
  late : version ≠ .v2 →
    LatePlacement r.headers none r.body draft.payload.IsBare r.rules r.generators

/-- The interaction of the draft says everything of something in it. -/
structure Interaction.Aligned (version : Version) (draft : InteractionDraft) (i : Interaction) :
    Prop where
  request : ∃ r, draft.request = some r ∧ i.request.Aligned version r
  response : ∃ r, draft.response = some r ∧ i.response.Aligned version r

/-- The message says everything of places in its contents. -/
def Message.Aligned (m : Message) : Prop :=
  LatePlacement [] none (some m.contents) False m.rules m.generators

/-! ### What is recorded for templates at their places -/

/-- What stands at the places, those of a version with a query by name, is recorded. -/
structure Place.Recorded (places : List (Place × Template)) (headers : List (String × String))
    (parameters : Option Query) (contents : Option Json) : Prop where
  header : ∀ name t, (.header name, t) ∈ places → Dict.has name headers = true
  query : ∀ name i t, (.query name i, t) ∈ places →
    ∃ values, parameters = some (.byName values) ∧ Dict.has name values = true
  body : ∀ t, (.body, t) ∈ places → contents = some t.sample

namespace Placed

variable {places : List (Place × Template)}

/-- A key of the one dictionary is the root of a place, or leads on from that of the body. -/
theorem exists_owner (assigned : Place.Assigned places) {path : String}
    (h : Dict.has path (sharedRules (ofPlaces .v2 places)) = true) :
    (∃ place t, (place, t) ∈ places ∧ place ≠ .body ∧ path = place.sharedRoot) ∨
      ∃ t rest, (.body, t) ∈ places ∧ path = Place.body.sharedRoot ++ rest ∧
        Dict.has (root ++ rest) (t.resolveUnchecked root).value.rules = true := by
  obtain ⟨rule, found⟩ := Dict.has_iff.1 h
  obtain ⟨place, t, ht, found⟩ := (get?_sharedRules_iff assigned).1 found
  by_cases body : place = .body
  · subst body
    obtain ⟨rest, rfl⟩ := Template.exists_append_of_get?_rules found
    rw [t.get?_rules_append _ root] at found
    exact .inr ⟨t, rest, ht, rfl, Dict.has_iff.2 ⟨rule, found⟩⟩
  · -- The example of any other place is a text, so all that is said of it is said at its root.
    rw [Template.get?_rules_of_scalar (assigned.scalar place t ht body)] at found
    split at found
    next same => exact .inl ⟨place, t, ht, body, same⟩
    next => cases found

/-- Version 2 says everything under keys that the places own. -/
theorem earlyPlacement (assigned : Place.Assigned places) {isKey : String → Prop} {bare : Prop}
    (outside : ∀ place t, (place, t) ∈ places → place ≠ .body → isKey place.sharedRoot)
    (inside : ∀ t rest, (.body, t) ∈ places →
      Dict.has (root ++ rest) (t.resolveUnchecked root).value.rules = true →
      isKey (Place.body.sharedRoot ++ rest))
    (nowhere : bare → ∀ t, (.body, t) ∉ places) :
    EarlyPlacement isKey bare (rules .v2 (ofPlaces .v2 places))
      (generators .v2 (ofPlaces .v2 places)) where
  rules p hp := by
    obtain ⟨_, rfl⟩ := rules_early _ hp
    refine ⟨_, rfl, ?_, ?_⟩
    · intro path h
      obtain ⟨place, t, ht, other, rfl⟩ | ⟨t, rest, ht, rfl, stored⟩ := exists_owner assigned h
      · exact outside place t ht other
      · exact inside t rest ht stored
    · intro none rest
      rw [Bool.eq_false_iff]
      intro h
      obtain ⟨rule, found⟩ := Dict.has_iff.1 h
      obtain ⟨t, ht, _⟩ := (get?_sharedRules_body assigned).1 found
      exact nowhere none t ht
  generators := rfl

section

variable {α : Type} (said : Resolution → List (String × α)) {version : Version}
  {headers : List (String × String)} {parameters : Option Query} {contents : Option Json}

/-- What later versions say by part is said of what is recorded at the places. -/
theorem speaksOf_gather (late : version ≠ .v2) (assigned : Place.Assigned places)
    (recorded : Place.Recorded places headers parameters contents)
    (leads : ∀ t, (.body, t) ∈ places → ∀ path,
      Dict.has path (said (t.resolveUnchecked root).value) = true → resolves t.sample path = true) :
    (gather said (ofPlaces version places)).SpeaksOf headers parameters contents where
  body path h := by
    obtain ⟨a, found⟩ := Dict.has_iff.1 h
    obtain ⟨t, ht, found⟩ := (get?_body_gather said late assigned).1 found
    exact ⟨t.sample, recorded.body t ht, leads t ht path (Dict.has_iff.2 ⟨a, found⟩)⟩
  header name h := by
    obtain ⟨a, found⟩ := Dict.has_iff.1 h
    obtain ⟨t, ht, _⟩ := (get?_header_gather said late assigned).1 found
    exact recorded.header name t ht
  query name h := by
    obtain ⟨a, found⟩ := Dict.has_iff.1 h
    obtain ⟨i, t, ht, _⟩ := (get?_query_gather said late assigned).1 found
    exact recorded.query name i t ht

/-- Where no template stands at the body, nothing is said of places in it. -/
theorem body_gather_eq_nil (late : version ≠ .v2) (assigned : Place.Assigned places)
    (nowhere : ∀ t, (.body, t) ∉ places) : (gather said (ofPlaces version places)).body = [] := by
  cases entries : (gather said (ofPlaces version places)).body with
  | nil => rfl
  | cons e rest =>
    obtain ⟨path, a⟩ := e
    have found : Dict.get? path (gather said (ofPlaces version places)).body = some a := by
      rw [entries]
      exact if_pos rfl
    obtain ⟨t, ht, _⟩ := (get?_body_gather said late assigned).1 found
    exact absurd ht (nowhere t)

end

/-- Later versions say everything of something that is recorded. -/
theorem latePlacement {version : Version} (late : version ≠ .v2) (assigned : Place.Assigned places)
    {headers : List (String × String)} {parameters : Option Query} {contents : Option Json}
    (recorded : Place.Recorded places headers parameters contents) {bare : Prop}
    (built : ∀ t, (.body, t) ∈ places → t.IsBuilt) (nowhere : bare → ∀ t, (.body, t) ∉ places) :
    LatePlacement headers parameters contents bare (rules version (ofPlaces version places))
      (generators version (ofPlaces version places)) where
  rules p hp := by
    obtain ⟨_, rfl⟩ := rules_late late _ hp
    have speaks := speaksOf_gather Resolution.ruleSets late assigned recorded
      fun t ht => (built t ht).resolves_of_has_ruleSets
    exact ⟨_, rfl, speaks, fun none => body_gather_eq_nil Resolution.ruleSets late assigned (nowhere none)⟩
  generators g hg := by
    obtain ⟨_, rfl⟩ := generators_late late _ hg
    have speaks := speaksOf_gather Resolution.generators late assigned recorded
      fun t ht => (built t ht).resolves_of_has_generators
    exact ⟨speaks, fun none => body_gather_eq_nil Resolution.generators late assigned (nowhere none)⟩

end Placed

/-! ### Requests, responses and messages -/

namespace PayloadDraft

variable {p : PayloadDraft}

/-- Every header of a payload is recorded. -/
theorem has_texts (ordered : Dict.Ordered p.headers) {name : String} {t : Template}
    (h : (name, t) ∈ p.headers) : Dict.has name p.texts = true := by
  refine Dict.has_iff.2 ⟨t.text, ?_⟩
  rw [texts, Dict.get?_mapValues, Dict.get?_of_mem ordered h]
  rfl

/-- The body that is recorded is the example of the template that stands there. -/
theorem map_sample_of_holds {t : Template} (held : p.Holds .body t) :
    p.body.map BodyDraft.sample = some t.sample := by
  cases held with
  | body given => rw [given]; rfl

/-- A bare body has no template. -/
theorem IsBare.not_holds (bare : p.IsBare) (t : Template) : ¬ p.Holds .body t := by
  intro held
  cases held with
  | body given =>
    rcases bare with none | ⟨_, _, raw⟩
    · rw [none] at given
      cases given
    · rw [raw] at given
      cases given

/-- What stands at the places of a payload is recorded. -/
theorem recorded_places (ordered : Dict.Ordered p.headers) (parameters : Option Query) :
    Place.Recorded p.places p.texts parameters (p.body.map BodyDraft.sample) := by
  constructor
  · intro name t ht
    cases mem_places_iff.1 ht with
    | header ht => exact has_texts ordered ht
  · intro name i t ht
    cases mem_places_iff.1 ht
  · intro t ht
    exact map_sample_of_holds (mem_places_iff.1 ht)

/-- The templates of the payload speak of its headers and of its body. -/
theorem payloadKey_of_holds (ordered : Dict.Ordered p.headers) {place : Place} {t : Template}
    (held : p.Holds place t) (outside : place ≠ .body) :
    PayloadKey p.texts (p.body.map BodyDraft.sample) place.sharedRoot := by
  cases held with
  | header ht => exact .header (has_texts ordered ht)
  | body => exact absurd rfl outside

/-- The rules of the body have keys that lead into the body. -/
theorem payloadKey_of_has_rules {t : Template} (held : p.Holds .body t) (built : t.IsBuilt)
    {rest : String} (h : Dict.has (root ++ rest) (t.resolveUnchecked root).value.rules = true) :
    PayloadKey p.texts (p.body.map BodyDraft.sample) (Place.body.sharedRoot ++ rest) :=
  .body (map_sample_of_holds held) (built.resolves_of_has_rules h)

end PayloadDraft

theorem RequestDraft.Holds.of_body {r : RequestDraft} {t : Template} (held : r.Holds .body t) :
    r.payload.Holds .body t := by
  cases held with
  | payload held => exact held

/-- What stands at the places of a request is recorded. -/
theorem RequestDraft.recorded_places {version : Version} (late : version ≠ .v2) (style : QueryStyle)
    {r : RequestDraft} (wf : r.WellFormed) :
    Place.Recorded r.places r.payload.texts (Assembly.renderQuery version style r.values)
      (r.payload.body.map BodyDraft.sample) := by
  constructor
  · intro name t ht
    cases mem_places_iff.1 ht with
    | payload held =>
      cases held with
      | header ht => exact PayloadDraft.has_texts wf.headers ht
  · intro name i t ht
    cases mem_places_iff.1 ht with
    | payload held => cases held
    | @query _ values _ _ hvalues _ =>
      have stored : Dict.get? name r.values = some (values.map Template.text) := by
        rw [RequestDraft.values, Dict.get?_mapValues, Dict.get?_of_mem wf.query hvalues]
        rfl
      have filled : r.values.isEmpty = false := by
        cases h : r.values with
        | nil =>
          rw [h] at stored
          cases stored
        | cons => rfl
      refine ⟨r.values, ?_, Dict.has_iff.2 ⟨_, stored⟩⟩
      rw [Assembly.renderQuery, filled, if_pos (usesRuleSets_of_ne late)]
      rfl
  · intro t ht
    exact PayloadDraft.map_sample_of_holds (mem_places_iff.1 ht).of_body

namespace MessageDraft

theorem assigned_places (m : MessageDraft) : Place.Assigned m.places := by
  constructor
  · intro place t u ht hu
    rw [(mem_places_iff.1 ht).2, (mem_places_iff.1 hu).2]
  · exact List.pairwise_singleton ..
  · intro place t ht outside
    exact absurd (mem_places_iff.1 ht).1 outside

theorem recorded_places (m : MessageDraft) :
    Place.Recorded m.places [] none (some m.contents.sample) := by
  constructor
  · intro name t ht
    cases (mem_places_iff.1 ht).1
  · intro name i t ht
    cases (mem_places_iff.1 ht).1
  · intro t ht
    rw [(mem_places_iff.1 ht).2]

end MessageDraft

namespace Assembly

variable {version : Version} {style : QueryStyle}

/-- An assembled request says everything of something in it. -/
theorem request_aligned {draft : RequestDraft} (wf : draft.WellFormed)
    (taken : ∀ place t, draft.Holds place t → place.Takes version t)
    (built : ∀ t, draft.payload.Holds .body t → t.IsBuilt) :
    (draft.assembled version style).Aligned version draft := by
  have assigned := RequestDraft.assigned wf taken
  have nowhere (bare : draft.payload.IsBare) (t : Template) : (.body, t) ∉ draft.places :=
    fun ht => bare.not_holds t (RequestDraft.mem_places_iff.1 ht).of_body
  constructor
  · rintro rfl
    refine Placed.earlyPlacement assigned ?outside ?inside nowhere
    case outside =>
      intro place t ht outside
      cases RequestDraft.mem_places_iff.1 ht with
      | path => exact .path
      | query hvalues ht =>
        exact .query (Dict.get?_of_mem wf.query hvalues) (List.getElem?_eq_some_iff.1 ht).1
      | payload held => exact .payload (PayloadDraft.payloadKey_of_holds wf.headers held outside)
    case inside =>
      intro t rest ht stored
      have held := (RequestDraft.mem_places_iff.1 ht).of_body
      exact .payload (PayloadDraft.payloadKey_of_has_rules held (built t held) stored)
  · intro late
    exact Placed.latePlacement late assigned (RequestDraft.recorded_places late style wf)
      (fun t ht => built t (RequestDraft.mem_places_iff.1 ht).of_body) nowhere

/-- An assembled response says everything of something in it. -/
theorem response_aligned {draft : ResponseDraft} (wf : draft.WellFormed)
    (taken : ∀ place t, draft.payload.Holds place t → place.Takes version t)
    (built : ∀ t, draft.payload.Holds .body t → t.IsBuilt) :
    (draft.assembled version).Aligned version draft := by
  have assigned := PayloadDraft.assigned wf.headers taken
  have nowhere (bare : draft.payload.IsBare) (t : Template) : (.body, t) ∉ draft.payload.places :=
    fun ht => bare.not_holds t (PayloadDraft.mem_places_iff.1 ht)
  constructor
  · rintro rfl
    refine Placed.earlyPlacement assigned ?outside ?inside nowhere
    case outside =>
      intro place t ht outside
      exact PayloadDraft.payloadKey_of_holds wf.headers (PayloadDraft.mem_places_iff.1 ht) outside
    case inside =>
      intro t rest ht stored
      have held := PayloadDraft.mem_places_iff.1 ht
      exact PayloadDraft.payloadKey_of_has_rules held (built t held) stored
  · intro late
    exact Placed.latePlacement late assigned (PayloadDraft.recorded_places wf.headers none)
      (fun t ht => built t (PayloadDraft.mem_places_iff.1 ht)) nowhere

/-- An assembled interaction says everything of something in it. -/
theorem interaction_aligned {draft : InteractionDraft} {i : Interaction} (wf : draft.WellFormed)
    (built : ∀ t, draft.Holds .body t → t.IsBuilt)
    (h : (interaction version style draft).result = .ok i) : i.Aligned version draft := by
  obtain ⟨r, s, hr, hs, taken, rfl⟩ := interaction_eq_ok_iff.1 h
  constructor
  · refine ⟨r, hr, request_aligned (wf.request r hr) ?_ ?_⟩
    · exact fun place t held => taken place t (.request hr held)
    · exact fun t held => built t (.request hr (.payload held))
  · refine ⟨s, hs, response_aligned (wf.response s hs) ?_ ?_⟩
    · exact fun place t held => taken place t (.response hs held)
    · exact fun t held => built t (.response hs held)

/-- A message has one place, its contents. -/
theorem message_aligned {draft : MessageDraft} {m : Message} (built : draft.contents.IsBuilt)
    (h : (message version draft).result = .ok m) : m.Aligned := by
  have late : version ≠ .v2 := (isLate_of_message h).1
  obtain ⟨_, rfl⟩ := (message_gives version draft m).1 h
  refine Placed.latePlacement late draft.assigned_places draft.recorded_places ?_ False.elim
  intro t ht
  rw [(MessageDraft.mem_places_iff.1 ht).2]
  exact built

end Assembly

/-! ### Runs -/

/-- Each field and each item in the templates of the draft has a segment of its own. -/
def InteractionDraft.IsAddressable (i : InteractionDraft) : Prop :=
  ∀ place t, i.Holds place t → t.Everywhere Template.IsAddressable

/-- Each field and each item in the templates of the call has a segment of its own. -/
def Call.IsAddressable : Call → Prop
  | .interaction draft => draft.IsAddressable
  | .message draft => draft.contents.Everywhere Template.IsAddressable
  | .write _ => True

namespace Desk

/-- After any calls, failed ones among them, all rules and generators in the contract speak of something
that is recorded beside them. -/
theorem run_aligned (s : Settings) (archives : Nat → Archive) {calls : List Call}
    (built : ∀ call ∈ calls, call.WellFormed ∧ call.AsksForItems ∧ call.IsAddressable) :
    let c := ((start s archives).run calls).contract
    (∀ i ∈ c.interactions, ∃ draft, Call.interaction draft ∈ calls ∧
      (Assembly.interaction s.version s.queryStyle draft).result = .ok i ∧
      i.Aligned s.version draft) ∧
    ∀ m ∈ c.messages, m.Aligned := by
  intro c
  have stems := stems_run s archives calls
  constructor
  · intro i hi
    obtain ⟨draft, hcall, found⟩ := stems.interactions i hi
    obtain ⟨wf, asks, places⟩ := built _ hcall
    have each (t : Template) (held : draft.Holds .body t) : t.IsBuilt :=
      ⟨InteractionDraft.WellFormed.templates wf held, asks .body t held, places .body t held⟩
    exact ⟨draft, hcall, found, Assembly.interaction_aligned wf each found⟩
  · intro m hm
    obtain ⟨draft, hcall, found⟩ := stems.messages m hm
    obtain ⟨wf, asks, places⟩ := built _ hcall
    exact Assembly.message_aligned ⟨wf.contents, asks, places⟩ found

end Desk

/-! ### A raw request, its answer, and a note -/

namespace RawRequest

open MarkerNames (word)

/-- Words in the path, in the second value of a parameter and in a header, and a raw body. -/
def request : RequestDraft where
  method := "put"
  path := word
  query := [("q", [.ofString "c", word])]
  payload := (({} : PayloadDraft).header "7" word).setBody (.raw "text/plain" "raw".toUTF8)

/-- Words under a name that needs quotes. -/
def body : Template :=
  .object [("it's", .matcher (.repeated word 2))]

/-- The request, and an answer to it. -/
def draft : InteractionDraft where
  description := "p"
  request := some request
  response := some { status := 200, payload := ({} : PayloadDraft).setBody (.json body) }

/-- A note with a date. -/
def note : MessageDraft where
  description := "n"
  contents := .object [("on", .matcher (.moment .date "2000-01-01" "yyyy-MM-dd"))]

/-- The desk of the version after both have been asked for. -/
def desk (version : Version) : Desk :=
  (Desk.start ⟨"web-app", "user-service", version, .never, "info"⟩ fun _ => {}).run
    [.interaction draft, .message note]

theorem wellFormed_draft : draft.WellFormed := by
  have words : word.WellFormed := ⟨trivial, trivial⟩
  have plain : (Template.ofString "c").WellFormed := trivial
  have list : body.WellFormed := ⟨Dict.ordered_singleton _, ⟨trivial, words⟩, trivial⟩
  have raw : (({} : PayloadDraft).header "7" word |>.setBody (.raw "text/plain" "raw".toUTF8)).WellFormed :=
    (PayloadDraft.wellFormed_empty.header "7" words).setBody fun t given => nomatch given
  have asked : request.WellFormed :=
    (((RequestDraft.wellFormed_new "put" words).addQuery "q" plain).addQuery "q" words).withPayload raw
  have answered : (({} : PayloadDraft).setBody (.json body)).WellFormed := by
    apply PayloadDraft.wellFormed_empty.setBody
    intro t given
    rw [← BodyDraft.json.inj given]
    exact list
  exact ((InteractionDraft.wellFormed_new "p").withRequest asked).withResponse
    (ResponseDraft.wellFormed_iff.2 answered)

theorem asksForItems_draft : draft.AsksForItems := by
  have two : (1 : UInt64) ≤ 2 := by decide
  have templates : Template.EveryItem Template.AsksForItem
      [word, .ofString "c", word, word, .ofString "text/plain", .ofString BodyDraft.jsonContentType,
        body] :=
    ⟨⟨trivial, trivial⟩, trivial, ⟨trivial, trivial⟩, ⟨trivial, trivial⟩, trivial, trivial,
      ⟨trivial, ⟨two, trivial, trivial⟩, trivial⟩, trivial⟩
  exact InteractionDraft.everywhere_of_places rfl rfl templates

theorem isAddressable_draft : draft.IsAddressable := by
  have places : body.IsAddressable := List.forall_mem_singleton.2 (by decide)
  have templates : Template.EveryItem Template.IsAddressable
      [word, .ofString "c", word, word, .ofString "text/plain", .ofString BodyDraft.jsonContentType,
        body] :=
    ⟨⟨trivial, trivial⟩, trivial, ⟨trivial, trivial⟩, ⟨trivial, trivial⟩, trivial, trivial,
      ⟨places, ⟨trivial, trivial, trivial⟩, trivial⟩, trivial⟩
  exact InteractionDraft.everywhere_of_places rfl rfl templates

theorem built : ∀ call ∈ [Call.interaction draft, .message note],
    call.WellFormed ∧ call.AsksForItems ∧ call.IsAddressable := by
  have places : note.contents.IsAddressable := List.forall_mem_singleton.2 (by decide)
  have form : note.WellFormed := (MessageDraft.wellFormed_new "n").withContents
    ⟨Dict.ordered_singleton _, ⟨trivial, trivial⟩, trivial⟩
  exact List.forall_mem_cons.2 ⟨⟨wellFormed_draft, asksForItems_draft, isAddressable_draft⟩,
    List.forall_mem_singleton.2 ⟨form, ⟨trivial, ⟨trivial, trivial⟩, trivial⟩,
      places, ⟨trivial, trivial⟩, trivial⟩⟩

theorem run_aligned_raw_request :
    (∃ i ∈ (desk .v2).contract.interactions, i.Aligned .v2 draft ∧
      i.request.rules = some (.flat [("$.headers.7", .regex "[a-z]"), ("$.path", .regex "[a-z]"),
        ("$.query.q[1]", .regex "[a-z]")]) ∧
      i.response.rules = some (.flat [("$.body['it\\'s']", .minType 2),
        ("$.body['it\\'s'][*]", .regex "[a-z]")])) ∧
    (∃ i ∈ (desk .v4).contract.interactions, i.Aligned .v4 draft) ∧
    ∃ m ∈ (desk .v4).contract.messages, m.Aligned ∧
      m.generators = some { body := [("$.on", .moment .date "yyyy-MM-dd")] } := by
  have aligned (version : Version) {i : Interaction} (hi : i ∈ (desk version).contract.interactions) :
      i.Aligned version draft := by
    obtain ⟨other, hcall, _, aligned⟩ := (Desk.run_aligned _ _ built).1 i hi
    rcases List.mem_cons.1 hcall with same | later
    · rw [← Call.interaction.inj same]
      exact aligned
    · cases List.mem_singleton.1 later
  refine ⟨?early, ?late, ?message⟩
  case early =>
    obtain ⟨i, only, request, response⟩ : ∃ i, (desk .v2).contract.interactions = [i] ∧
        i.request.rules = some (.flat [("$.headers.7", .regex "[a-z]"), ("$.path", .regex "[a-z]"),
          ("$.query.q[1]", .regex "[a-z]")]) ∧
        i.response.rules = some (.flat [("$.body['it\\'s']", .minType 2),
          ("$.body['it\\'s'][*]", .regex "[a-z]")]) := ⟨_, rfl, by rfl, by rfl⟩
    have found : i ∈ (desk .v2).contract.interactions := only ▸ List.mem_singleton_self i
    exact ⟨i, found, aligned .v2 found, request, response⟩
  case late =>
    obtain ⟨i, only⟩ : ∃ i, (desk .v4).contract.interactions = [i] := ⟨_, rfl⟩
    have found : i ∈ (desk .v4).contract.interactions := only ▸ List.mem_singleton_self i
    exact ⟨i, found, aligned .v4 found⟩
  case message =>
    obtain ⟨m, only, generators⟩ : ∃ m, (desk .v4).contract.messages = [m] ∧
        m.generators = some { body := [("$.on", .moment .date "yyyy-MM-dd")] } := ⟨_, rfl, by rfl⟩
    have found : m ∈ (desk .v4).contract.messages := only ▸ List.mem_singleton_self m
    exact ⟨m, found, (Desk.run_aligned _ _ built).2 m found, generators⟩

end RawRequest

end ConsumerContract
