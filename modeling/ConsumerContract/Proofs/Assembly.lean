import ConsumerContract.Draft.Assembly
import ConsumerContract.Proofs.Attempts
import ConsumerContract.Proofs.ContractDocuments
import ConsumerContract.Proofs.Walk

/-!
# What an assembly gives, and when it succeeds

Every step of an assembly succeeds exactly if the version takes the templates at their places, and what it
gives is a function of the draft. So `Assembly.request_gives` and `Assembly.response_gives` name an
assembled request and response outright, and `Assembly.interaction_eq_ok_iff` an interaction. Whatever is
said of these follows without opening the functions again.
-/

namespace ConsumerContract

/-! ### Places of drafts -/

/-- The template stands at the place in the headers or the body. -/
inductive PayloadDraft.Holds (p : PayloadDraft) : Place → Template → Prop where
  | header {name t} : (name, t) ∈ p.headers → Holds p (.header name) t
  | body {t} : p.body = some (.json t) → Holds p .body t

/-- The template stands at the place in the request. -/
inductive RequestDraft.Holds (r : RequestDraft) : Place → Template → Prop where
  | path : Holds r .path r.path
  | query {name values t} {i : Nat} : (name, values) ∈ r.query → values[i]? = some t →
      Holds r (.query name i) t
  | payload {place t} : r.payload.Holds place t → Holds r place t

/-- The template stands at the place in the request or in the response. -/
inductive InteractionDraft.Holds (i : InteractionDraft) : Place → Template → Prop where
  | request {r place t} : i.request = some r → r.Holds place t → Holds i place t
  | response {r place t} : i.response = some r → r.payload.Holds place t → Holds i place t

/-- The template of the body, unless it is raw. -/
def BodyDraft.template? : BodyDraft → Option Template
  | .json t => some t
  | .raw .. => none

theorem BodyDraft.template?_eq_some_iff {b : BodyDraft} {t : Template} :
    b.template? = some t ↔ b = .json t := by
  cases b <;> simp [template?]

namespace Place

/-- The values of a query at their places. -/
def ofQuery (parameters : List (String × List Template)) : List (Place × Template) :=
  parameters.flatMap fun q => q.2.mapIdx fun i t => (.query q.1 i, t)

/-- Headers at their places. -/
def ofHeaders (fields : List (String × Template)) : List (Place × Template) :=
  fields.map fun h => (.header h.1, h.2)

/-- The template of a body at its place. -/
def ofBody (draft : Option BodyDraft) : List (Place × Template) :=
  (draft.bind BodyDraft.template?).toList.map fun t => (.body, t)

end Place

/-- The templates of the payload at their places, in the order in which they are resolved. -/
def PayloadDraft.places (p : PayloadDraft) : List (Place × Template) :=
  Place.ofHeaders p.headers ++ Place.ofBody p.body

/-- The templates of the request at their places, in the order in which they are resolved. -/
def RequestDraft.places (r : RequestDraft) : List (Place × Template) :=
  (.path, r.path) :: Place.ofQuery r.query ++ r.payload.places

/-- The list of a payload's places has all templates that the payload holds. -/
theorem PayloadDraft.mem_places_iff {p : PayloadDraft} {place : Place} {t : Template} :
    (place, t) ∈ p.places ↔ p.Holds place t := by
  simp only [places, Place.ofHeaders, Place.ofBody, List.mem_append, List.mem_map, Option.mem_toList,
    Option.bind_eq_some_iff, BodyDraft.template?_eq_some_iff]
  constructor
  · rintro (⟨⟨name, u⟩, hu, same⟩ | ⟨u, ⟨_, hu, rfl⟩, same⟩)
    · obtain ⟨rfl, rfl⟩ := Prod.mk.inj same
      exact .header hu
    · obtain ⟨rfl, rfl⟩ := Prod.mk.inj same
      exact .body hu
  · intro held
    cases held with
    | header ht => exact .inl ⟨_, ht, rfl⟩
    | body hb => exact .inr ⟨_, ⟨_, hb, rfl⟩, rfl⟩

/-- The list of a request's places has all templates that the request holds. -/
theorem RequestDraft.mem_places_iff {r : RequestDraft} {place : Place} {t : Template} :
    (place, t) ∈ r.places ↔ r.Holds place t := by
  simp only [places, Place.ofQuery, List.cons_append, List.mem_cons, List.mem_append,
    List.mem_flatMap, List.mem_mapIdx, PayloadDraft.mem_places_iff]
  constructor
  · rintro (same | ⟨⟨name, values⟩, hvalues, i, hi, same⟩ | held)
    · obtain ⟨rfl, rfl⟩ := Prod.mk.inj same
      exact .path
    · obtain ⟨rfl, rfl⟩ := Prod.mk.inj same
      exact .query hvalues (List.getElem?_eq_getElem hi)
    · exact .payload held
  · intro held
    cases held with
    | path => exact .inl rfl
    | query hvalues ht =>
      obtain ⟨hi, rfl⟩ := List.getElem?_eq_some_iff.1 ht
      exact .inr (.inl ⟨_, hvalues, _, hi, rfl⟩)
    | payload held => exact .inr (.inr held)

/-- The template of the message at its place: a message has no part but its body. -/
def MessageDraft.places (m : MessageDraft) : List (Place × Template) :=
  [(.body, m.contents)]

/-- The contents are the only place of a message. -/
theorem MessageDraft.mem_places_iff {m : MessageDraft} {place : Place} {t : Template} :
    (place, t) ∈ m.places ↔ place = .body ∧ t = m.contents := by
  rw [places, List.mem_singleton, Prod.mk.injEq]

/-- What is recorded for a template at a place. -/
def Placed.ofTemplate (version : Version) (place : Place) (t : Template) : Placed :=
  ⟨place, (t.resolveUnchecked (place.root version)).value⟩

/-- What is recorded for templates at their places. -/
def Placed.ofPlaces (version : Version) (places : List (Place × Template)) : List Placed :=
  places.map fun e => .ofTemplate version e.1 e.2

/-- Every part is recorded for a template that `holds` knows at its place. -/
def Placed.AllOf (version : Version) (holds : Place → Template → Prop) (parts : List Placed) : Prop :=
  ∀ p ∈ parts, ∃ t, holds p.place t ∧ p = .ofTemplate version p.place t

/-- What is recorded for a list of places is recorded for templates that stand there. -/
theorem Placed.allOf_ofPlaces {version : Version} {holds : Place → Template → Prop}
    {places : List (Place × Template)} (h : ∀ place t, (place, t) ∈ places → holds place t) :
    AllOf version holds (ofPlaces version places) := by
  intro p hp
  obtain ⟨⟨place, t⟩, hplace, rfl⟩ := List.mem_map.1 hp
  exact ⟨t, h place t hplace, rfl⟩

theorem PayloadDraft.allOf_places (p : PayloadDraft) (version : Version) :
    Placed.AllOf version p.Holds (Placed.ofPlaces version p.places) :=
  Placed.allOf_ofPlaces fun _ _ => mem_places_iff.1

theorem RequestDraft.allOf_places (r : RequestDraft) (version : Version) :
    Placed.AllOf version r.Holds (Placed.ofPlaces version r.places) :=
  Placed.allOf_ofPlaces fun _ _ => mem_places_iff.1

theorem MessageDraft.allOf_places (m : MessageDraft) (version : Version) :
    Placed.AllOf version (fun place t => place = .body ∧ t = m.contents)
      (Placed.ofPlaces version m.places) :=
  Placed.allOf_ofPlaces fun _ _ => mem_places_iff.1

namespace Placed

variable {α : Type}

/-- What holds of everything that is said of parts and of a place holds of both together. -/
theorem all_takeUp {p : α → Prop} {b : ByPart α} (h : b.All p) (place : Place)
    {entries : List (String × α)} (he : ∀ e ∈ entries, p e.2) : (takeUp b place entries).All p := by
  have whole : ∀ a, Dict.get? Path.root entries = some a → p a :=
    fun a found => he _ (Dict.mem_of_get? found)
  rw [takeUp.eq_def]
  split
  next => exact { h with path := whole }
  next found =>
    refine { h with query := ?_ }
    intro e hq
    rcases Dict.mem_of_mem_insertNew hq with rfl | hq
    · exact whole _ found
    · exact h.query e hq
  next found =>
    refine { h with header := ?_ }
    intro e hq
    rcases Dict.mem_of_mem_insert hq with rfl | hq
    · exact whole _ found
    · exact h.header e hq
  next => exact h
  next => exact h
  next => exact { h with body := he }

/-- Taking up keeps the dictionaries of the parts in order. -/
theorem inOrder_takeUp {b : ByPart α} (h : b.InOrder) (place : Place)
    {entries : List (String × α)} (ordered : Dict.Ordered entries) :
    (takeUp b place entries).InOrder := by
  rw [takeUp.eq_def]
  split
  next => exact { h with }
  next => exact { h with query := h.query.insertNew _ _ }
  next => exact { h with header := h.header.insert _ _ }
  next => exact h
  next => exact h
  next => exact { h with body := ordered }

end Placed

/-! ### What a draft becomes -/

/-- The example of the template as a text, if it is one. -/
def Template.text (t : Template) : String :=
  t.sample.asScalar?.getD ""

/-- The version takes the template at the place: it accepts its matchers, and outside the body the example
is a text. -/
structure Place.Takes (version : Version) (place : Place) (t : Template) : Prop where
  valid : (t.validate version).result = .ok ()
  scalar : place ≠ .body → t.sample.asScalar?.isSome = true

/-- The headers in text. -/
def PayloadDraft.texts (p : PayloadDraft) : List (String × String) :=
  Dict.mapValues Template.text p.headers

/-- The example of a body. -/
def BodyDraft.sample : BodyDraft → Json
  | .json t => t.sample
  | .raw _ bytes => .str (Text.repaired bytes)

/-- The query in text. -/
def RequestDraft.values (r : RequestDraft) : List (String × List String) :=
  Dict.mapValues (·.map Template.text) r.query

/-- The request of the draft, if the version takes all of its templates. -/
def RequestDraft.assembled (version : Version) (style : QueryStyle) (r : RequestDraft) : Request where
  method := Text.upperCase r.method
  path := r.path.text
  query := Assembly.renderQuery version style r.values
  headers := r.payload.texts
  body := r.payload.body.map BodyDraft.sample
  rules := Placed.rules version (Placed.ofPlaces version r.places)
  generators := Placed.generators version (Placed.ofPlaces version r.places)

/-- The response of the draft, if the version takes all of its templates. -/
def ResponseDraft.assembled (version : Version) (r : ResponseDraft) : Response where
  status := r.status
  headers := r.payload.texts
  body := r.payload.body.map BodyDraft.sample
  rules := Placed.rules version (Placed.ofPlaces version r.payload.places)
  generators := Placed.generators version (Placed.ofPlaces version r.payload.places)

/-- The interaction of the draft of that request and response, if the version takes all templates. -/
def InteractionDraft.assembled (version : Version) (style : QueryStyle) (i : InteractionDraft)
    (request : RequestDraft) (response : ResponseDraft) : Interaction where
  description := i.description
  state := (Assembly.states version i.states).value.1
  states := (Assembly.states version i.states).value.2
  request := request.assembled version style
  response := response.assembled version

/-- The message of the draft, if the version takes its contents. -/
def MessageDraft.assembled (version : Version) (m : MessageDraft) : Message where
  description := m.description
  states := m.states
  contents := m.contents.sample
  rules := Placed.rules version [.ofTemplate version .body m.contents]
  generators := Placed.generators version [.ofTemplate version .body m.contents]
  metadata :=
    Dict.insertNew Assembly.contentTypeKey (.str BodyDraft.jsonContentType) m.metadata

namespace Assembly

open Attempt (Gives bind_eq_ok result_give_bind)

variable {version : Version}

/-! ### Templates at places -/

/-- A template at a place is resolved exactly if it passes validation. -/
theorem resolveAt_gives (version : Version) (place : Place) (t : Template) :
    (resolveAt version place t).Gives ((t.validate version).result = .ok ())
      (.ofTemplate version place t) := by
  have valid : (t.validate version).Gives ((t.validate version).result = .ok ()) () := by
    intro u
    simp
  have unchecked : (Attempt.ofNoted (t.resolveUnchecked (place.root version))).Gives True
      (t.resolveUnchecked (place.root version)).value := .pure _
  have resolved : (t.resolve version (place.root version)).Gives
      ((t.validate version).result = .ok ()) (t.resolveUnchecked (place.root version)).value :=
    Gives.congr (Gives.bind valid unchecked) (by rw [and_true])
  exact resolved.andPure (Placed.mk place)

/-- A template whose value must be a text is resolved exactly if the version takes it, and its text
comes with it. -/
theorem resolveText_gives (version : Version) {place : Place} (outside : place ≠ .body) (t : Template) :
    (resolveText version place t).Gives (place.Takes version t)
      (t.text, .ofTemplate version place t) := by
  have text : (Attempt.ofExcept (textOf (.ofTemplate version place t))).Gives
      (t.sample.asScalar?.isSome = true) t.text := by
    have body : (Placed.ofTemplate version place t).resolution.body = t.sample := t.walk_fst _
    intro s
    rw [Attempt.result_ofExcept, textOf, body, Template.text]
    cases t.sample.asScalar? <;> simp [eq_comm]
  apply Gives.congr (Gives.bind (resolveAt_gives version place t)
    (Gives.andPure text fun s => (s, Placed.ofTemplate version place t)))
  constructor
  · rintro ⟨valid, scalar⟩
    exact ⟨valid, fun _ => scalar⟩
  · intro takes
    exact ⟨takes.valid, takes.scalar outside⟩

/-- The values of a query parameter are resolved exactly if the version takes each at its index. -/
theorem queryValues_gives (version : Version) (name : String) (i : Nat) (values : List Template) :
    (queryValues version name i values).Gives
      (∀ (j : Nat) t, values[j]? = some t → (Place.query name (i + j)).Takes version t)
      (values.mapIdx fun j t => (t.text, .ofTemplate version (.query name (i + j)) t)) := by
  induction values generalizing i with
  | nil => exact Gives.congr (Gives.pure []) (by simp)
  | cons t rest ih =>
    have outside : Place.query name i ≠ .body := by simp
    have first := resolveText_gives version outside t
    have more := ih (i + 1)
    have shift (j : Nat) : i + 1 + j = i + (j + 1) := by omega
    simp only [shift] at more
    rw [List.mapIdx_cons]
    apply Gives.congr (Gives.bind first (Gives.andPure more
      ((t.text, Placed.ofTemplate version (.query name i) t) :: ·)))
    constructor
    · rintro ⟨takes, more⟩ j u hu
      cases j with
      | zero =>
        obtain rfl := Option.some.inj hu
        exact takes
      | succ j => exact more j u hu
    · intro all
      exact ⟨all 0 t rfl, fun j u hu => all (j + 1) u hu⟩

/-- The parameters of a query with the texts of their values, and what is recorded for each. -/
def resolvedQuery (version : Version) (parameters : List (String × List Template)) :
    List (String × List (String × Placed)) :=
  parameters.map fun q =>
    (q.1, q.2.mapIdx fun j t => (t.text, .ofTemplate version (.query q.1 j) t))

/-- A query is resolved exactly if the version takes all values of all parameters. -/
theorem query_gives (version : Version) (parameters : List (String × List Template)) :
    (query version parameters).Gives
      (∀ q ∈ parameters, ∀ (j : Nat) t, q.2[j]? = some t → (Place.query q.1 j).Takes version t)
      (resolvedQuery version parameters) := by
  apply Gives.each
  intro q
  have values := queryValues_gives version q.1 0 q.2
  simp only [Nat.zero_add] at values
  exact values.andPure fun vs => (q.1, vs)

/-- The texts of a resolved query are those of its templates. -/
theorem mapValues_resolvedQuery (version : Version) (parameters : List (String × List Template)) :
    Dict.mapValues (·.map (·.1)) (resolvedQuery version parameters) =
      Dict.mapValues (·.map Template.text) parameters := by
  have texts (q : String × List Template) :
      (q.2.mapIdx fun j t => (t.text, Placed.ofTemplate version (.query q.1 j) t)).map (·.1) =
        q.2.map Template.text := by
    apply List.ext_getElem?
    simp [Function.comp_def]
  simp [Dict.mapValues, resolvedQuery, Function.comp_def, texts]

/-- What is recorded for a query is what its templates leave at their places, in order. -/
theorem flatMap_resolvedQuery (version : Version) (parameters : List (String × List Template)) :
    (resolvedQuery version parameters).flatMap (fun p => p.2.map (·.2)) =
      Placed.ofPlaces version (Place.ofQuery parameters) := by
  have placed (q : String × List Template) :
      (q.2.mapIdx fun j t => (t.text, Placed.ofTemplate version (.query q.1 j) t)).map (·.2) =
        (q.2.mapIdx fun j t => (Place.query q.1 j, t)).map fun e => .ofTemplate version e.1 e.2 := by
    apply List.ext_getElem?
    simp [Function.comp_def]
  simp [resolvedQuery, Placed.ofPlaces, Place.ofQuery, List.flatMap_map, List.map_flatMap, placed]

/-- Headers with the texts of their values, and what is recorded for each. -/
def resolvedHeaders (version : Version) (fields : List (String × Template)) :
    List (String × (String × Placed)) :=
  fields.map fun h => (h.1, (h.2.text, .ofTemplate version (.header h.1) h.2))

/-- Headers are resolved exactly if the version takes each of them. -/
theorem headers_gives (version : Version) (fields : List (String × Template)) :
    (headers version fields).Gives (∀ h ∈ fields, (Place.header h.1).Takes version h.2)
      (resolvedHeaders version fields) := by
  apply Gives.each
  intro h
  exact (resolveText_gives version (by simp) h.2).andPure fun value => (h.1, value)

theorem mapValues_resolvedHeaders (version : Version) (fields : List (String × Template)) :
    Dict.mapValues (·.1) (resolvedHeaders version fields) = Dict.mapValues Template.text fields := by
  simp [Dict.mapValues, resolvedHeaders, Function.comp_def]

theorem map_resolvedHeaders (version : Version) (fields : List (String × Template)) :
    (resolvedHeaders version fields).map (fun f => f.2.2) =
      Placed.ofPlaces version (Place.ofHeaders fields) := by
  simp [resolvedHeaders, Placed.ofPlaces, Place.ofHeaders]

/-- A raw body leaves nothing to be recorded. -/
theorem body_gives (version : Version) (draft : Option BodyDraft) :
    (body version draft).Gives (∀ t, draft = some (.json t) → Place.body.Takes version t)
      (draft.map BodyDraft.sample,
        Placed.ofPlaces version (Place.ofBody draft)) := by
  match draft with
  | none => exact Gives.congr (Gives.pure _) (by simp)
  | some (.raw _ bytes) => exact Gives.congr (Gives.pure _) (by simp)
  | some (.json t) =>
    have given := (resolveAt_gives version .body t).andPure
      fun placed => (some placed.resolution.body, [placed])
    have sample : (Placed.ofTemplate version .body t).resolution.body = t.sample := t.walk_fst _
    rw [sample] at given
    apply given.congr
    constructor
    · intro valid u same
      obtain rfl := BodyDraft.json.inj (Option.some.inj same)
      exact ⟨valid, fun outside => absurd rfl outside⟩
    · intro takes
      exact (takes t rfl).valid

/-! ### Requests, responses and messages -/

/-- A request is assembled exactly if the version takes all of its templates. -/
theorem request_gives (version : Version) (style : QueryStyle) (draft : RequestDraft) :
    (request version style draft).Gives (∀ place t, draft.Holds place t → place.Takes version t)
      (draft.assembled version style) := by
  refine Gives.congr (Gives.bind (resolveText_gives version (by simp) draft.path)
    (Gives.bind (query_gives version draft.query) (Gives.bind
      (headers_gives version draft.payload.headers) (Gives.bind
        (body_gives version draft.payload.body) (q := True) ?assembled)))) ?taken
  case assembled =>
    have parts : Placed.ofPlaces version draft.places =
        Placed.ofTemplate version .path draft.path ::
            ((resolvedQuery version draft.query).flatMap fun p => p.2.map (·.2)) ++
          (resolvedHeaders version draft.payload.headers).map (fun f => f.2.2) ++
          Placed.ofPlaces version (Place.ofBody draft.payload.body) := by
      rw [flatMap_resolvedQuery, map_resolvedHeaders]
      simp [Placed.ofPlaces, RequestDraft.places, PayloadDraft.places]
    rw [RequestDraft.assembled, parts, RequestDraft.values, PayloadDraft.texts,
      ← mapValues_resolvedQuery version, ← mapValues_resolvedHeaders version]
    exact Gives.pure _
  case taken =>
    constructor
    · rintro ⟨path, query, headers, body, -⟩ place t held
      cases held with
      | path => exact path
      | query hvalues ht => exact query _ hvalues _ _ ht
      | payload held =>
        cases held with
        | header ht => exact headers _ ht
        | body hb => exact body _ hb
    · intro all
      exact ⟨all _ _ .path, fun q hq j t ht => all _ _ (.query hq ht),
        fun h hh => all _ _ (.payload (.header hh)), fun t hb => all _ _ (.payload (.body hb)), trivial⟩

/-- A response is assembled exactly if the version takes all of its templates. -/
theorem response_gives (version : Version) (draft : ResponseDraft) :
    (response version draft).Gives
      (∀ place t, draft.payload.Holds place t → place.Takes version t)
      (draft.assembled version) := by
  refine Gives.congr (Gives.bind (headers_gives version draft.payload.headers) (Gives.bind
    (body_gives version draft.payload.body) (q := True) ?assembled)) ?taken
  case assembled =>
    have parts : Placed.ofPlaces version draft.payload.places =
        (resolvedHeaders version draft.payload.headers).map (fun f => f.2.2) ++
          Placed.ofPlaces version (Place.ofBody draft.payload.body) := by
      rw [map_resolvedHeaders]
      simp [Placed.ofPlaces, PayloadDraft.places]
    rw [ResponseDraft.assembled, parts, PayloadDraft.texts, ← mapValues_resolvedHeaders version]
    exact Gives.pure _
  case taken =>
    constructor
    · rintro ⟨headers, body, -⟩ place t held
      cases held with
      | header ht => exact headers _ ht
      | body hb => exact body _ hb
    · intro all
      exact ⟨fun h hh => all _ _ (.header hh), fun t hb => all _ _ (.body hb), trivial⟩

/-- The states of an interaction: version 2 keeps the name of the first. -/
theorem value_states (all : List ProviderState) :
    (states version all).value =
      if version.usesRuleSets then (none, all) else (all.head?.map ProviderState.name, []) := by
  rw [states]
  split <;> rfl

theorem given_eq_ok_iff {α : Type} {what : String} {part : Option α} {a : α} :
    (given what part).result = .ok a ↔ part = some a := by
  cases part <;> simp [given]

/-- An interaction with both parts is assembled exactly if the version takes all of its templates. -/
theorem interaction_gives (version : Version) (style : QueryStyle) {draft : InteractionDraft}
    {r : RequestDraft} {s : ResponseDraft} (hr : draft.request = some r)
    (hs : draft.response = some s) :
    (interaction version style draft).Gives (∀ place t, draft.Holds place t → place.Takes version t)
      (draft.assembled version style r s) := by
  have requested : (given "request" draft.request).Gives True r := by
    rw [hr]
    exact .pure r
  have responded : (given "response" draft.response).Gives True s := by
    rw [hs]
    exact .pure s
  have stated : (Attempt.ofNoted (states version draft.states)).Gives True
      (states version draft.states).value := .pure _
  refine Gives.afterNotice _ (Gives.congr (Gives.bind requested (Gives.bind responded
    (Gives.bind stated (Gives.bind (request_gives version style r)
      (Gives.andPure (response_gives version s) _))))) ?taken)
  constructor
  · rintro ⟨-, -, -, request, response⟩ place t held
    cases held with
    | request given held =>
      obtain rfl := Option.some.inj (hr.symm.trans given)
      exact request place t held
    | response given held =>
      obtain rfl := Option.some.inj (hs.symm.trans given)
      exact response place t held
  · intro all
    exact ⟨trivial, trivial, trivial, fun place t held => all place t (.request hr held),
      fun place t held => all place t (.response hs held)⟩

/-- An interaction is assembled exactly if the draft has both parts and the version takes all of its
templates. -/
theorem interaction_eq_ok_iff {style : QueryStyle} {draft : InteractionDraft} {i : Interaction} :
    (interaction version style draft).result = .ok i ↔
      ∃ r s, draft.request = some r ∧ draft.response = some s ∧
        (∀ place t, draft.Holds place t → place.Takes version t) ∧
        i = draft.assembled version style r s := by
  constructor
  · intro h
    obtain ⟨r, hr, more⟩ := bind_eq_ok.1 ((result_give_bind _ _).symm.trans h)
    obtain ⟨s, hs, -⟩ := bind_eq_ok.1 more
    rw [given_eq_ok_iff] at hr hs
    exact ⟨r, s, hr, hs, (interaction_gives version style hr hs i).1 h⟩
  · rintro ⟨r, s, hr, hs, taken⟩
    exact (interaction_gives version style hr hs i).2 taken

/-- A message is one of a version with rule sets, and has no part but its body. -/
theorem message_gives (version : Version) (draft : MessageDraft) :
    (message version draft).Gives
      (version.usesRuleSets = true ∧ (draft.contents.validate version).result = .ok ())
      (draft.assembled version) := by
  rw [message]
  split
  next later =>
    have sample : (Placed.ofTemplate version .body draft.contents).resolution.body =
        draft.contents.sample := draft.contents.walk_fst _
    rw [MessageDraft.assembled, ← sample]
    exact Gives.afterNotice _ (Gives.congr
      (Gives.andPure (resolveAt_gives version .body draft.contents) _) (by simp [later]))
  next early =>
    intro m
    simp [early]

end Assembly

end ConsumerContract
