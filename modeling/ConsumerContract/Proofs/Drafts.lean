import ConsumerContract.Proofs.Assembly

/-!
# Drafts in form

A draft is in form if its dictionaries are in order and all its templates are well-formed. New drafts are
in form, and each builder keeps them so: `RequestDraft.WellFormed.addQuery`,
`PayloadDraft.WellFormed.header` and the like. What is said of drafts in form holds of all that authors
can write down.
-/

namespace ConsumerContract

/-! ### Headers and bodies -/

/-- The payload keeps the form that its builders give it. -/
structure PayloadDraft.WellFormed (p : PayloadDraft) : Prop where
  headers : Dict.Ordered p.headers
  templates : ∀ place t, p.Holds place t → t.WellFormed

namespace PayloadDraft

theorem wellFormed_empty : ({} : PayloadDraft).WellFormed := by
  constructor
  · exact Dict.ordered_nil
  · intro place t held
    cases held with
    | header ht => exact absurd ht List.not_mem_nil
    | body hb => cases hb

/-- A well-formed header keeps a payload well-formed. -/
theorem WellFormed.header {p : PayloadDraft} (h : p.WellFormed) (name : String) {value : Template}
    (hv : value.WellFormed) : (p.header name value).WellFormed := by
  constructor
  · exact h.headers.insert name value
  · intro place t held
    cases held with
    | body hb => exact h.templates .body t (.body hb)
    | header ht =>
      rcases Dict.mem_of_mem_insert ht with same | ht
      · obtain ⟨rfl, rfl⟩ := Prod.mk.inj same
        exact hv
      · exact h.templates _ t (.header ht)

theorem WellFormed.withBody {p : PayloadDraft} (h : p.WellFormed) {body : BodyDraft}
    (hb : ∀ t, body = .json t → t.WellFormed) : { p with body := some body }.WellFormed := by
  constructor
  · exact h.headers
  · intro place t held
    cases held with
    | header ht => exact h.templates _ t (.header ht)
    | body given => exact hb t (Option.some.inj given)

/-- Setting a body may add the header of its content type, which is a plain text. -/
theorem WellFormed.setBody {p : PayloadDraft} (h : p.WellFormed) {body : BodyDraft}
    (hb : ∀ t, body = .json t → t.WellFormed) : (p.setBody body).WellFormed := by
  have text : (Template.ofString body.contentType).WellFormed := trivial
  rw [PayloadDraft.setBody]
  split
  · exact h.withBody hb
  · exact (h.header contentTypeName text).withBody hb

end PayloadDraft

/-! ### Requests and responses -/

/-- The draft keeps the form that its builders give it. -/
structure RequestDraft.WellFormed (r : RequestDraft) : Prop where
  query : Dict.Ordered r.query
  headers : Dict.Ordered r.payload.headers
  templates : ∀ place t, r.Holds place t → t.WellFormed

/-- The draft keeps the form that its builders give it. -/
structure ResponseDraft.WellFormed (r : ResponseDraft) : Prop where
  headers : Dict.Ordered r.payload.headers
  templates : ∀ place t, r.payload.Holds place t → t.WellFormed

namespace RequestDraft

/-- A new request is well-formed if its path is. -/
theorem wellFormed_new (method : String) {path : Template} (hp : path.WellFormed) :
    ({ method, path } : RequestDraft).WellFormed := by
  constructor
  · exact Dict.ordered_nil
  · exact Dict.ordered_nil
  · intro place t held
    cases held with
    | path => exact hp
    | query hq => exact absurd hq List.not_mem_nil
    | payload ht => exact PayloadDraft.wellFormed_empty.templates place t ht

theorem WellFormed.withPayload {r : RequestDraft} (h : r.WellFormed) {p : PayloadDraft}
    (hp : p.WellFormed) : { r with payload := p }.WellFormed := by
  constructor
  · exact h.query
  · exact hp.headers
  · intro place t held
    cases held with
    | path => exact h.templates .path _ .path
    | query hq ht => exact h.templates _ t (.query hq ht)
    | payload ht => exact hp.templates place t ht

/-- The values of a parameter are its old ones and the new one. -/
theorem WellFormed.addQuery {r : RequestDraft} (h : r.WellFormed) (name : String) {value : Template}
    (hv : value.WellFormed) : (r.addQuery name value).WellFormed := by
  have values : ∀ t ∈ (Dict.get? name r.query).getD [] ++ [value], t.WellFormed := by
    intro t ht
    rcases List.mem_append.1 ht with old | new
    · cases found : Dict.get? name r.query with
      | none =>
        rw [found] at old
        exact absurd old List.not_mem_nil
      | some before =>
        rw [found] at old
        obtain ⟨i, hi⟩ := List.mem_iff_getElem?.1 old
        exact h.templates _ t (.query (Dict.mem_of_get? found) hi)
    · rw [List.mem_singleton.1 new]
      exact hv
  constructor
  · exact h.query.insert name _
  · exact h.headers
  · intro place t held
    cases held with
    | path => exact h.templates .path _ .path
    | payload ht => exact h.templates place t (.payload ht)
    | query hq ht =>
      rcases Dict.mem_of_mem_insert hq with same | hq
      · obtain ⟨rfl, rfl⟩ := Prod.mk.inj same
        exact values t (List.mem_of_getElem? ht)
      · exact h.templates _ t (.query hq ht)

end RequestDraft

/-- A response is well-formed exactly if its payload is. -/
theorem ResponseDraft.wellFormed_iff {r : ResponseDraft} : r.WellFormed ↔ r.payload.WellFormed := by
  constructor
  · intro h
    exact ⟨h.headers, h.templates⟩
  · intro h
    exact ⟨h.headers, h.templates⟩

/-! ### Interactions -/

/-- The draft keeps the form that its builders give it. -/
structure InteractionDraft.WellFormed (i : InteractionDraft) : Prop where
  states : ∀ s ∈ i.states, s.InOrder
  request : ∀ r, i.request = some r → r.WellFormed
  response : ∀ r, i.response = some r → r.WellFormed

namespace InteractionDraft

theorem wellFormed_new (description : String) :
    ({ description } : InteractionDraft).WellFormed := by
  constructor
  · intro s hs
    exact absurd hs List.not_mem_nil
  · intro r hr
    cases hr
  · intro r hr
    cases hr

/-- The parameters of a state are brought into order. -/
theorem WellFormed.given {i : InteractionDraft} (h : i.WellFormed) (state : String)
    {params : List (String × Json)} (hp : ∀ e ∈ params, e.2.Everywhere Json.InOrder) :
    (i.given state params).WellFormed := by
  have ordered : (⟨state, Dict.ofList params⟩ : ProviderState).InOrder :=
    ⟨Dict.ordered_ofList params, fun e he => hp e (Dict.mem_of_mem_ofList he)⟩
  exact { h with states := List.forall_mem_append.2 ⟨h.states, List.forall_mem_singleton.2 ordered⟩ }

theorem WellFormed.withRequest {i : InteractionDraft} (h : i.WellFormed) {r : RequestDraft}
    (hr : r.WellFormed) : { i with request := some r }.WellFormed := by
  refine { h with request := ?_ }
  intro s hs
  rw [← Option.some.inj hs]
  exact hr

theorem WellFormed.withResponse {i : InteractionDraft} (h : i.WellFormed) {r : ResponseDraft}
    (hr : r.WellFormed) : { i with response := some r }.WellFormed := by
  refine { h with response := ?_ }
  intro s hs
  rw [← Option.some.inj hs]
  exact hr

/-- All templates of a well-formed interaction are well-formed. -/
theorem WellFormed.templates {i : InteractionDraft} (wf : i.WellFormed) {place : Place} {t : Template}
    (held : i.Holds place t) : t.WellFormed := by
  cases held with
  | request given held => exact (wf.request _ given).templates place t held
  | response given held => exact (wf.response _ given).templates place t held

/-- Every matcher of an array of one shape in the draft asks for at least one item. -/
def AsksForItems (i : InteractionDraft) : Prop :=
  ∀ place t, i.Holds place t → t.Everywhere Template.AsksForItem

/-- What holds throughout the templates of both parts, listed, holds throughout all of the draft. -/
theorem everywhere_of_places {p : Template → Prop} {i : InteractionDraft} {r : RequestDraft}
    {s : ResponseDraft} (hr : i.request = some r) (hs : i.response = some s)
    (h : Template.EveryItem p ((r.places ++ s.payload.places).map (·.2))) :
    ∀ place t, i.Holds place t → t.Everywhere p := by
  intro place t held
  apply Template.everyItem_iff.1 h t
  apply List.mem_map_of_mem (f := (·.2)) (a := (place, t))
  cases held with
  | request given held =>
    obtain rfl := Option.some.inj (hr.symm.trans given)
    exact List.mem_append_left _ (RequestDraft.mem_places_iff.2 held)
  | response given held =>
    obtain rfl := Option.some.inj (hs.symm.trans given)
    exact List.mem_append_right _ (PayloadDraft.mem_places_iff.2 held)

end InteractionDraft

/-! ### Messages -/

/-- The draft keeps the form that its builders give it. -/
structure MessageDraft.WellFormed (m : MessageDraft) : Prop where
  states : ∀ s ∈ m.states, s.InOrder
  contents : m.contents.WellFormed
  metadata : Dict.Ordered m.metadata
  values : ∀ e ∈ m.metadata, e.2.Everywhere Json.InOrder

namespace MessageDraft

theorem wellFormed_new (description : String) : ({ description } : MessageDraft).WellFormed := by
  constructor
  · intro s hs
    exact absurd hs List.not_mem_nil
  · exact trivial
  · exact Dict.ordered_nil
  · intro e he
    exact absurd he List.not_mem_nil

theorem WellFormed.given {m : MessageDraft} (h : m.WellFormed) (state : String) :
    (m.given state).WellFormed := by
  have ordered : (⟨state, []⟩ : ProviderState).InOrder :=
    ⟨Dict.ordered_nil, fun e he => absurd he List.not_mem_nil⟩
  exact { h with states := List.forall_mem_append.2 ⟨h.states, List.forall_mem_singleton.2 ordered⟩ }

theorem WellFormed.withContents {m : MessageDraft} (h : m.WellFormed) {t : Template}
    (ht : t.WellFormed) : { m with contents := t }.WellFormed :=
  { h with contents := ht }

theorem WellFormed.withMetadata {m : MessageDraft} (h : m.WellFormed) (key : String) {value : Json}
    (hv : value.Everywhere Json.InOrder) : (m.withMetadata key value).WellFormed := by
  refine { h with metadata := h.metadata.insert key value, values := ?_ }
  intro e he
  rcases Dict.mem_of_mem_insert he with rfl | he
  · exact hv
  · exact h.values e he

end MessageDraft

end ConsumerContract
