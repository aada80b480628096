import ConsumerContract.Proofs.Alignment
import ConsumerContract.Proofs.Drafts
import ConsumerContract.Proofs.Runs

/-!
# A contract survives its own text

Whatever calls have been made, the dictionaries of the contract are in order, `Desk.inOrder_run`: those
of drafts in form are, and whatever a resolution gives is in order by construction, variants of arrays
at any depth included. So the contract is read back from either layout of its text, but for bodies
`null`: `Desk.read_run` says exactly when it comes back the same.
-/

namespace ConsumerContract

/-! ### What a resolution gives -/

theorem Template.ordered_sampleFields {fields : List (String × Template)}
    (ordered : Dict.Ordered fields) : Dict.Ordered (Template.sampleFields fields) := by
  rw [Template.sampleFields_eq]
  exact ordered.mapValues _

mutual

/-- The example of a template that keeps its form keeps its form. -/
theorem Template.sample_inOrder : (t : Template) → t.WellFormed →
    t.sample.Everywhere Json.InOrder
  | .literal _, wf => wf
  | .object fields, wf =>
    ⟨Template.ordered_sampleFields wf.1, Template.sampleFields_inOrder fields wf.2⟩
  | .array items, wf => ⟨trivial, Template.sampleItems_inOrder items wf.2⟩
  | .matcher m, wf => m.sample_inOrder wf.1 wf.2

/-- The example of a well-formed matcher is in order. -/
theorem Matcher.sample_inOrder : (m : Matcher) → Template.InOrder (.matcher m) →
    m.Inside Template.InOrder → m.sample.Everywhere Json.InOrder
  | .like content, _, wf | .equality content, _, wf => content.sample_inOrder wf
  | .repeated content _, _, wf | .bounded content _ _, _, wf => by
    have each {n : Nat} : ∀ v ∈ List.replicate n content.sample, v.Everywhere Json.InOrder := by
      intro v hv
      rw [(List.mem_replicate.1 hv).2]
      exact content.sample_inOrder wf
    exact ⟨trivial, Json.everyItem_iff.2 each⟩
  | .eachKeyLike _ content, _, wf =>
    ⟨Dict.ordered_singleton _, content.sample_inOrder wf, trivial⟩
  | .arrayContaining variants, _, wf => ⟨trivial, Template.sampleItems_inOrder variants wf⟩
  | .record fields, ordered, wf =>
    ⟨Template.ordered_sampleFields ordered, Template.sampleFields_inOrder fields wf⟩
  | .decimal x, _, _ => by
    unfold Matcher.sample Json.float
    split <;> trivial
  | .fromProviderState _ _, wf, _ => wf
  | .regex .., _, _ | .integer _, _, _ | .null, _, _ | .includes _, _, _ | .moment .., _, _ => trivial

theorem Template.sampleItems_inOrder : (items : List Template) →
    Template.EveryItem Template.InOrder items →
    Json.EveryItem Json.InOrder (Template.sampleItems items)
  | [], _ => trivial
  | t :: rest, wf => ⟨t.sample_inOrder wf.1, Template.sampleItems_inOrder rest wf.2⟩

theorem Template.sampleFields_inOrder : (fields : List (String × Template)) →
    Template.EveryField Template.InOrder fields →
    Json.EveryMember Json.InOrder (Template.sampleFields fields)
  | [], _ => trivial
  | (_, t) :: rest, wf => ⟨t.sample_inOrder wf.1, Template.sampleFields_inOrder rest wf.2⟩

end

open ConsumerContract.Path (root)

/-- Every variant is the resolution of one of the items. -/
theorem Template.mem_resolvedVariants {items : List Template} {v : Variant}
    (h : v ∈ resolvedVariants items) : ∃ i u, u ∈ items ∧
      v = ⟨UInt64.ofNat i, (u.resolveUnchecked root).value.rules.ruleSets,
        (u.resolveUnchecked root).value.generators⟩ := by
  obtain ⟨i, hi⟩ := List.mem_iff_getElem?.1 h
  rw [resolvedVariants, List.getElem?_mapIdx] at hi
  obtain ⟨u, hu, rfl⟩ := Option.map_eq_some_iff.1 hi
  exact ⟨i, u, List.mem_of_getElem? hu, rfl⟩

/-- The dictionaries inside the rule of a matcher are in order. The induction is on the size of the
matcher, as the rules of variants are those of matchers inside its items. -/
theorem Matcher.rule_inOrder (m : Matcher) {r : Rule} (h : m.rule.value = some r) : r.InOrder := by
  match m with
  | .arrayContaining items =>
    rw [Template.rule_arrayContaining] at h
    obtain rfl := Option.some.inj h
    apply Rule.InOrder.arrayContains
    · intro v hv
      obtain ⟨i, u, _, rfl⟩ := Template.mem_resolvedVariants hv
      exact (Dict.ordered_ofList _).mapValues _
    · intro v hv
      obtain ⟨i, u, _, rfl⟩ := Template.mem_resolvedVariants hv
      exact Dict.ordered_ofList _
    · intro v hv e he q hq
      obtain ⟨i, u, hu, rfl⟩ := Template.mem_resolvedVariants hv
      have stored := Dict.mem_of_get? (Template.get?_of_mem_ruleSets he hq)
      obtain ⟨s, n, found, rule⟩ := Template.exists_of_mem_rules stored
      have : sizeOf n < 1 + sizeOf items := by
        have inTemplate := Template.sizeOf_le_of_holdsAt found
        have inItems := List.sizeOf_lt_of_mem hu
        omega
      exact n.rule_inOrder rule
  | .record _ => cases h
  | .like _ | .equality _ | .repeated .. | .bounded .. | .eachKeyLike .. | .regex .. | .integer _
  | .decimal _ | .null | .includes _ | .fromProviderState .. | .moment .. =>
    obtain rfl := Option.some.inj h
    exact .plain fun variants same => nomatch same
termination_by sizeOf m

/-- Whatever the template, the rules of its resolution are in order, those of variants included. -/
theorem Template.rules_inOrder {t : Template} {path : String} :
    ∀ e ∈ (t.resolveUnchecked path).value.rules, e.2.InOrder := by
  intro e he
  obtain ⟨_, m, _, rule⟩ := exists_of_mem_rules he
  exact m.rule_inOrder rule

/-! ### What an assembly gives -/

namespace Placed

variable {version : Version} {holds : Place → Template → Prop} {parts : List Placed}

/-- The rules and generators of every part are dictionaries in order. -/
theorem AllOf.inOrder (h : AllOf version holds parts) {p : Placed} (hp : p ∈ parts) :
    Dict.Ordered p.resolution.rules ∧ (∀ e ∈ p.resolution.rules, e.2.InOrder) ∧
      Dict.Ordered p.resolution.generators := by
  obtain ⟨t, _, same⟩ := h p hp
  rw [same]
  exact ⟨Dict.ordered_ofList _, Template.rules_inOrder, Dict.ordered_ofList _⟩

/-- The one dictionary of version 2 is in order, and so is each rule in it. -/
theorem sharedRules_inOrder (h : AllOf version holds parts) :
    Dict.Ordered (sharedRules parts) ∧ ∀ e ∈ sharedRules parts, e.2.InOrder := by
  apply List.foldlRecOn (motive := fun rules : Rules => Dict.Ordered rules ∧ ∀ e ∈ rules, e.2.InOrder)
    parts
  · exact ⟨Dict.ordered_nil, fun e he => absurd he List.not_mem_nil⟩
  · intro rules ⟨ordered, all⟩ p hp
    obtain ⟨_, inside, _⟩ := h.inOrder hp
    refine ⟨ordered.insertAll _, ?_⟩
    intro e he
    rcases Dict.mem_of_mem_insertAll he with he | he
    · exact all e he
    · exact inside e he

/-- The rules by part are in order, and so is each of their sets. -/
theorem rulesByPart_inOrder (h : AllOf version holds parts) :
    (rulesByPart parts).InOrder ∧ (rulesByPart parts).All RuleSet.InOrder := by
  apply List.foldlRecOn (motive := fun b : ByPart RuleSet => b.InOrder ∧ b.All RuleSet.InOrder) parts
  · exact ⟨⟨Dict.ordered_nil, Dict.ordered_nil, Dict.ordered_nil⟩, by simp, by simp, by simp, by simp⟩
  · intro b ⟨ordered, all⟩ p hp
    obtain ⟨rules, inside, _⟩ := h.inOrder hp
    have sets : ∀ e ∈ Dict.mapValues Rule.alone p.resolution.rules, e.2.InOrder := by
      intro e he
      obtain ⟨⟨_, rule⟩, stored, rfl⟩ := List.mem_map.1 he
      intro r hr
      rw [List.mem_singleton.1 hr]
      exact inside _ stored
    exact ⟨inOrder_takeUp ordered p.place (rules.mapValues _), all_takeUp all p.place sets⟩

theorem generatorsByPart_inOrder (h : AllOf version holds parts) :
    (generatorsByPart parts).InOrder := by
  apply List.foldlRecOn parts
  · exact ⟨Dict.ordered_nil, Dict.ordered_nil, Dict.ordered_nil⟩
  · intro b ordered p hp
    obtain ⟨_, _, generators⟩ := h.inOrder hp
    exact inOrder_takeUp ordered p.place generators

/-- Recorded rules are in order, in either shape. -/
theorem rules_inOrder (h : AllOf version holds parts) :
    ∀ p, rules version parts = some p → p.InOrder := by
  intro p hp
  by_cases early : version = .v2
  · subst early
    obtain ⟨_, rfl⟩ := rules_early parts hp
    exact sharedRules_inOrder h
  · obtain ⟨filled, rfl⟩ := rules_late early parts hp
    exact ⟨filled, rulesByPart_inOrder h⟩

theorem generators_inOrder (h : AllOf version holds parts) :
    ∀ g, generators version parts = some g → g.InOrder := by
  intro g hg
  by_cases early : version = .v2
  · subst early
    cases hg
  · obtain ⟨_, rfl⟩ := generators_late early parts hg
    exact generatorsByPart_inOrder h

end Placed

/-- The draft of the call, if it has one, keeps its form. -/
def Call.WellFormed : Call → Prop
  | .interaction draft => draft.WellFormed
  | .message draft => draft.WellFormed
  | .write _ => True

namespace Assembly

variable {version : Version} {style : QueryStyle}

/-- A body is the example of a template in form, or a text. -/
theorem body_inOrder {draft : Option BodyDraft} (wf : ∀ t, draft = some (.json t) → t.WellFormed)
    {v : Json} (hv : draft.map BodyDraft.sample = some v) : v.Everywhere Json.InOrder := by
  obtain ⟨body, given, rfl⟩ := Option.map_eq_some_iff.1 hv
  cases body with
  | json t => exact t.sample_inOrder (wf t given)
  | raw => trivial

/-- The request of a well-formed draft is in order. -/
theorem request_inOrder {draft : RequestDraft} (wf : draft.WellFormed) :
    (draft.assembled version style).InOrder := by
  constructor
  · intro byName hq
    rw [RequestDraft.assembled, renderQuery] at hq
    split at hq
    · cases hq
    · split at hq
      · rw [← Query.byName.inj (Option.some.inj hq)]
        exact wf.query.mapValues _
      · cases hq
  · exact wf.headers.mapValues _
  · intro v hv
    exact body_inOrder (fun t given => wf.templates .body t (.payload (.body given))) hv
  · exact Placed.rules_inOrder (draft.allOf_places version)
  · exact Placed.generators_inOrder (draft.allOf_places version)

theorem response_inOrder {draft : ResponseDraft} (wf : draft.WellFormed) :
    (draft.assembled version).InOrder := by
  constructor
  · exact wf.headers.mapValues _
  · intro v hv
    exact body_inOrder (fun t given => wf.templates .body t (.body given)) hv
  · exact Placed.rules_inOrder (draft.payload.allOf_places version)
  · exact Placed.generators_inOrder (draft.payload.allOf_places version)

/-- The interaction of a well-formed draft is in order. -/
theorem interaction_inOrder {draft : InteractionDraft} {i : Interaction} (wf : draft.WellFormed)
    (h : (interaction version style draft).result = .ok i) : i.InOrder := by
  obtain ⟨r, s, hasRequest, hasResponse, _, rfl⟩ := interaction_eq_ok_iff.1 h
  constructor
  · intro state hstate
    rw [InteractionDraft.assembled, value_states] at hstate
    split at hstate
    · exact wf.states state hstate
    · exact absurd hstate List.not_mem_nil
  · exact request_inOrder (wf.request r hasRequest)
  · exact response_inOrder (wf.response s hasResponse)

/-- The message of a well-formed draft is in order. -/
theorem message_inOrder {draft : MessageDraft} {m : Message} (wf : draft.WellFormed)
    (h : (message version draft).result = .ok m) : m.InOrder := by
  obtain ⟨_, rfl⟩ := (message_gives version draft m).1 h
  constructor
  · exact wf.states
  · exact draft.contents.sample_inOrder wf.contents
  · exact Placed.rules_inOrder (draft.allOf_places version)
  · exact Placed.generators_inOrder (draft.allOf_places version)
  · exact wf.metadata.insertNew _ _
  · intro e he
    rcases Dict.mem_of_mem_insertNew he with rfl | he
    · trivial
    · exact wf.values e he

end Assembly

/-! ### Runs -/

namespace Desk

/-- After a whole run the contract is in order, as everything in it was assembled from drafts in form. -/
theorem inOrder_run (s : Settings) (archives : Nat → Archive) {calls : List Call}
    (wf : ∀ call ∈ calls, call.WellFormed) : ((start s archives).run calls).contract.InOrder := by
  have stems := stems_run s archives calls
  constructor
  · intro i hi
    obtain ⟨draft, hcall, found⟩ := stems.interactions i hi
    exact Assembly.interaction_inOrder (wf _ hcall) found
  · intro m hm
    obtain ⟨draft, hcall, found⟩ := stems.messages m hm
    exact Assembly.message_inOrder (wf _ hcall) found

end Desk

/-- A contract in order, with plain numbers and not too deep, is read back from its text, bodies of
`null` left out. -/
theorem Contract.read_text {c : Contract} (h : c.InOrder)
    (plain : c.toJson.Everywhere Json.HasPlainNumber)
    (shallow : c.toJson.depth ≤ Json.Source.maxDepth) : read c.text = .ok c.reread := by
  unfold read text
  rw [Json.decodeText_compact decode plain shallow, decode_toJson h]

/-- So it is from its text in lines. -/
theorem Contract.read_prettyText {c : Contract} (h : c.InOrder)
    (plain : c.toJson.Everywhere Json.HasPlainNumber)
    (shallow : c.toJson.depth ≤ Json.Source.maxDepth) : read c.prettyText = .ok c.reread := by
  unfold read prettyText
  rw [Json.decodeText_pretty decode plain shallow, decode_toJson h]

namespace Desk

/-- After any calls, failed ones among them, the contract is read back from either layout of its text,
and it comes back the same exactly if none of its bodies is `null`: these are lost. -/
theorem read_run (s : Settings) (archives : Nat → Archive) {calls : List Call}
    (wf : ∀ call ∈ calls, call.WellFormed)
    (plain : ((start s archives).run calls).contract.toJson.Everywhere Json.HasPlainNumber)
    (shallow : ((start s archives).run calls).contract.toJson.depth ≤ Json.Source.maxDepth) :
    let c := ((start s archives).run calls).contract
    Contract.read c.text = .ok c.reread ∧ Contract.read c.prettyText = .ok c.reread ∧
      (Contract.read c.text = .ok c ↔
        ∀ i ∈ c.interactions, i.request.body ≠ some .null ∧ i.response.body ≠ some .null) := by
  intro c
  have ordered : c.InOrder := inOrder_run s archives wf
  have compact := Contract.read_text ordered plain shallow
  refine ⟨compact, Contract.read_prettyText ordered plain shallow, ?_⟩
  rw [compact, ← Contract.reread_eq_iff]
  exact ⟨Except.ok.inj, congrArg Except.ok⟩

/-- The contract of one interaction whose response has the body `null` does not come back the same. -/
theorem read_run_null_body :
    let settings : Settings := ⟨"web-app", "user-service", .v3, .never, "info"⟩
    let draft : InteractionDraft := {
      description := "p"
      request := some { method := "GET", path := .ofString "/" }
      response := some {
        status := 200
        payload := { headers := [("Content-Type", .ofString "application/json")],
                     body := some (.json (.literal .null)) } } }
    let c := ((start settings fun _ => {}).run [.interaction draft]).contract
    (∀ call ∈ [Call.interaction draft], call.WellFormed) ∧
      c.toJson.Everywhere Json.HasPlainNumber ∧ c.toJson.depth ≤ Json.Source.maxDepth ∧
      c.interactions.length = 1 ∧ Contract.read c.text ≠ .ok c := by
  intro settings draft c
  have shape : c = {
      consumer := "web-app"
      provider := "user-service"
      interactions := [{
        description := "p"
        request := { method := "GET", path := "/" }
        response := { status := 200, headers := [("Content-Type", "application/json")],
                      body := some .null } }]
      metadata := ⟨"3.0.0", "0.1.0"⟩ } := by rfl
  have request : (RequestDraft.mk "GET" (.ofString "/") [] {}).WellFormed :=
    RequestDraft.wellFormed_new "GET" trivial
  have payload : (({} : PayloadDraft).setBody (.json (.literal .null))).WellFormed := by
    apply PayloadDraft.wellFormed_empty.setBody
    intro t given
    rw [← BodyDraft.json.inj given]
    exact trivial
  have response : (ResponseDraft.mk 200
      (({} : PayloadDraft).setBody (.json (.literal .null)))).WellFormed :=
    ResponseDraft.wellFormed_iff.2 payload
  have wf : ∀ call ∈ [Call.interaction draft], call.WellFormed :=
    List.forall_mem_singleton.2
      (((InteractionDraft.wellFormed_new "p").withRequest request).withResponse response)
  have plain : c.toJson.Everywhere Json.HasPlainNumber := by
    have status : (Json.Number.int 200).IsPlain := ⟨by decide, by decide⟩
    rw [shape]
    simp [Contract.toJson, Interaction.toJson, Request.toJson, Response.toJson, Metadata.toJson,
      artifactMembers, listMember, optionalMember, textsJson, singleJson, Json.int, Dict.mapValues,
      Json.Everywhere, Json.EveryItem, Json.EveryMember, Json.HasPlainNumber, status]
  have shallow : c.toJson.depth ≤ Json.Source.maxDepth := by
    rw [shape]
    decide
  refine ⟨wf, plain, shallow, by rw [shape]; rfl, fun same => ?_⟩
  have filled := (read_run settings (fun _ => {}) wf plain shallow).2.2.1 same
  rw [show ((start settings fun _ => {}).run [.interaction draft]).contract = c from rfl,
    shape] at filled
  exact (filled _ (List.mem_singleton.2 rfl)).2 rfl

end Desk

end ConsumerContract
