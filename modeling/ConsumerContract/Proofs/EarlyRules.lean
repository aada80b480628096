import ConsumerContract.Proofs.Exactness
import ConsumerContract.Proofs.RoundTrip
import ConsumerContract.Proofs.Validation

/-!
# What version 2 records

Validation looks at marker JSON and resolution at the template, yet nothing slips through between them:
every matcher that a walk meets shows in the markers. So a template that version 2 takes is resolved to
rules that version 2 knows, and to no generators: `Template.isEarly_of_validate`. As everything in a
contract stems from the draft of some call, no other rule ever gets into a contract of version 2, and no
generator is dropped on the way: `Desk.run_early_rules`.
-/

namespace ConsumerContract

/-- The rule is one that version 2 knows: by type, without a greatest length, or by regular expression. -/
def Rule.IsEarly (r : Rule) : Prop :=
  (∃ min, r = .type min none) ∨ ∃ pattern, r = .regex pattern

/-- Version 2 can express the resolution as a whole. -/
structure Resolution.IsEarly (r : Resolution) : Prop where
  rules : ∀ e ∈ r.rules, e.2.IsEarly
  generators : r.generators = []

/-! ### Matchers that version 2 knows -/

/-- What version 2 does not refuse is as old as version 2. -/
theorem MatcherKind.since_of_refusal?_v2 {kind : MatcherKind} (h : kind.refusal? .v2 = none) :
    kind.since = .v2 := by
  rcases kind.since_eq_v2_or_v3 with early | late
  · exact early
  · rw [kind.refusal?_v2, if_pos late] at h
    cases h

/-- A matcher of version 2 has a rule of version 2. -/
theorem Matcher.isEarly_of_rule {m : Matcher} (h : m.kind.since = .v2) {r : Rule}
    (rule : m.rule.value = some r) : r.IsEarly := by
  cases m with
  | like => exact .inl ⟨none, (Option.some.inj rule).symm⟩
  | repeated _ min => exact .inl ⟨some min, (Option.some.inj rule).symm⟩
  | regex _ pattern => exact .inr ⟨pattern, (Option.some.inj rule).symm⟩
  | record => cases rule
  | _ => cases h

/-- A matcher of version 2 generates nothing. -/
theorem Matcher.generator_of_since_v2 {m : Matcher} (h : m.kind.since = .v2) : m.generator = none := by
  cases m with
  | like | repeated | regex | record => rfl
  | _ => cases h

/-! ### Templates that version 2 takes -/

namespace Template

theorem mem_itemMatchers {items : List Template} {t : Template} (ht : t ∈ items) {m : Matcher}
    (hm : m ∈ t.matchers) : m ∈ itemMatchers items := by
  induction items with
  | nil => exact absurd ht List.not_mem_nil
  | cons u rest ih =>
    rcases List.mem_cons.1 ht with rfl | ht
    · exact List.mem_append_left _ hm
    · exact List.mem_append_right _ (ih ht)

theorem mem_fieldMatchers {fields : List (String × Template)} {e : String × Template}
    (he : e ∈ fields) {m : Matcher} (hm : m ∈ e.2.matchers) : m ∈ fieldMatchers fields := by
  induction fields with
  | nil => exact absurd he List.not_mem_nil
  | cons f rest ih =>
    rcases List.mem_cons.1 he with rfl | he
    · exact List.mem_append_left _ hm
    · exact List.mem_append_right _ (ih he)

/-- What a walk meets is among all matchers. -/
theorem mem_matchers_of_holdsAt {t : Template} {s : List Segment} {m : Matcher}
    (found : t.HoldsAt s m) : m ∈ t.matchers := by
  induction found with
  | here m => exact List.mem_cons_self
  | like _ ih | equality _ ih | repeated _ ih | bounded _ ih | eachKeyLike _ ih =>
    exact List.mem_cons_of_mem _ ih
  | record ht _ ih => exact List.mem_cons_of_mem _ (mem_fieldMatchers ht ih)
  | object ht _ ih => exact mem_fieldMatchers ht ih
  | array ht _ ih => exact mem_itemMatchers (List.mem_of_getElem? ht) ih

/-- A template that version 2 accepts is resolved to what version 2 can express, whatever names and
literals it holds. -/
theorem isEarly_of_validate {t : Template} (wf : t.WellFormed) (asks : t.Everywhere AsksForItem)
    (valid : (t.validate .v2).result = .ok ()) (root : String) :
    (t.resolveUnchecked root).value.IsEarly := by
  have known {s : List Segment} {m : Matcher} (found : t.HoldsAt s m) : m.kind.since = .v2 :=
    MatcherKind.since_of_refusal?_v2
      (refusal?_of_validate wf asks valid m (mem_matchers_of_holdsAt found))
  constructor
  · intro e he
    obtain ⟨s, m, found, rule⟩ := exists_of_mem_rules he
    exact m.isEarly_of_rule (known found) rule
  · apply List.eq_nil_iff_forall_not_mem.2
    intro e he
    obtain ⟨s, m, found, generator⟩ := exists_of_mem_generators he
    rw [m.generator_of_since_v2 (known found)] at generator
    cases generator

end Template

/-! ### Interactions of version 2 -/

/-- Every matcher of an array of one shape in the draft of the call asks for at least one item. -/
def Call.AsksForItems : Call → Prop
  | .interaction draft => draft.AsksForItems
  | .message draft => draft.contents.Everywhere Template.AsksForItem
  | .write _ => True

/-- The rules, if there are any, are in one dictionary, and version 2 knows each of them. -/
def PartRules.AreEarly (rules : Option PartRules) : Prop :=
  ∀ r, rules = some r → ∃ flat, r = .flat flat ∧ ∀ e ∈ flat, e.2.IsEarly

/-- Every template of the draft is resolved at its place, and no generator comes of it. -/
def InteractionDraft.YieldsNoGenerators (i : InteractionDraft) : Prop :=
  ∀ place t, i.Holds place t →
    ∃ r, (t.resolve .v2 place.sharedRoot).result = .ok r ∧ r.generators = []

namespace Placed

/-- Every rule in the one dictionary comes from some place. -/
theorem exists_of_mem_sharedRules {parts : List Placed} {e : String × Rule}
    (h : e ∈ sharedRules parts) : ∃ p ∈ parts, e ∈ p.resolution.rules := by
  revert h
  apply List.foldlRecOn (motive := fun rules : Rules =>
    e ∈ rules → ∃ p ∈ parts, e ∈ p.resolution.rules) parts
  · intro h
    exact absurd h List.not_mem_nil
  · intro rules known p hp h
    rcases Dict.mem_of_mem_insertAll h with h | h
    · exact known h
    · exact ⟨p, hp, h⟩

/-- What is recorded of templates that version 2 takes is early. -/
theorem areEarly_rules {holds : Place → Template → Prop} {parts : List Placed}
    (held : AllOf .v2 holds parts)
    (early : ∀ place t, holds place t → ∀ root, (t.resolveUnchecked root).value.IsEarly) :
    PartRules.AreEarly (rules .v2 parts) := by
  intro r h
  refine ⟨sharedRules parts, (rules_early parts h).2, ?_⟩
  intro e he
  obtain ⟨p, hp, inside⟩ := exists_of_mem_sharedRules he
  obtain ⟨t, ht, same⟩ := held p hp
  rw [same] at inside
  exact (early p.place t ht _).rules e inside

end Placed

/-- An interaction that version 2 takes has early rules, and no generator was dropped for it. -/
theorem Assembly.early_of_interaction {style : QueryStyle} {draft : InteractionDraft} {i : Interaction}
    (wf : draft.WellFormed) (asks : draft.AsksForItems)
    (h : (interaction .v2 style draft).result = .ok i) :
    PartRules.AreEarly i.request.rules ∧ PartRules.AreEarly i.response.rules ∧
      draft.YieldsNoGenerators := by
  obtain ⟨r, s, hr, hs, taken, rfl⟩ := interaction_eq_ok_iff.1 h
  have early {place : Place} {t : Template} (held : draft.Holds place t) (root : String) :
      (t.resolveUnchecked root).value.IsEarly :=
    t.isEarly_of_validate (wf.templates held) (asks place t held) (taken place t held).valid root
  refine ⟨?_, ?_, ?_⟩
  · exact Placed.areEarly_rules (r.allOf_places .v2) fun _ _ held => early (.request hr held)
  · exact Placed.areEarly_rules (s.payload.allOf_places .v2) fun _ _ held => early (.response hs held)
  · intro place t held
    exact ⟨_, Template.resolve_eq_ok_iff.2 ⟨(taken place t held).valid, rfl⟩,
      (early held place.sharedRoot).generators⟩

namespace Desk

/-- A template that version 2 takes is resolved to rules that version 2 knows and to no generators. So
after any calls every rule of a contract of version 2 is one of these, and each interaction in it was
assembled from a draft without a generator. -/
theorem run_early_rules :
    (∀ (t : Template) (root : String) (r : Resolution), t.WellFormed →
      t.Everywhere Template.AsksForItem → (t.resolve .v2 root).result = .ok r → r.IsEarly) ∧
    ∀ (s : Settings) (archives : Nat → Archive) (calls : List Call), s.version = .v2 →
      (∀ call ∈ calls, call.WellFormed ∧ call.AsksForItems) →
      ∀ i ∈ ((start s archives).run calls).contract.interactions,
        PartRules.AreEarly i.request.rules ∧ PartRules.AreEarly i.response.rules ∧
        ∃ draft, Call.interaction draft ∈ calls ∧
          (Assembly.interaction .v2 s.queryStyle draft).result = .ok i ∧ draft.YieldsNoGenerators := by
  constructor
  · intro t root r wf asks h
    obtain ⟨valid, rfl⟩ := Template.resolve_eq_ok_iff.1 h
    exact t.isEarly_of_validate wf asks valid root
  · intro s archives calls version built i hi
    obtain ⟨draft, hcall, found⟩ := (stems_run s archives calls).interactions i hi
    rw [version] at found
    obtain ⟨wf, asks⟩ := built _ hcall
    obtain ⟨request, response, none⟩ := Assembly.early_of_interaction wf asks found
    exact ⟨request, response, draft, hcall, found, none⟩

end Desk

/-! ### A draft with names and literals that look like markers -/

namespace MarkerNames

/-- A word of one letter. -/
def word : Template :=
  .matcher (.regex "a" "[a-z]")

/-- A body with a marker in a literal, and two words under the name of the marker. -/
def body : Template :=
  .object [("1", .matcher (.like (.literal (.obj [(Marker.versionKey, .str "2.0.0")])))),
    (Marker.versionKey, .matcher (.repeated word 2))]

/-- The word in a header as well. -/
def payload : PayloadDraft :=
  (({} : PayloadDraft).header "X-Word" word).setBody (.json body)

/-- A request answered with the payload. -/
def draft : InteractionDraft where
  description := "p"
  request := some { method := "GET", path := .ofString "/" }
  response := some { status := 200, payload := payload }

/-- The desk of version 2 after the draft has been recorded. -/
def desk : Desk :=
  (Desk.start ⟨"web-app", "user-service", .v2, .never, "info"⟩ fun _ => {}).run [.interaction draft]

/-- The rules that are recorded. -/
def flat : Rules :=
  [("$.body", .sameType), ("$.body['pact:specification']", .minType 2),
    ("$.body['pact:specification'][*]", .regex "[a-z]"), ("$.headers.X-Word", .regex "[a-z]")]

theorem wellFormed_body : body.WellFormed := by
  have ordered : Dict.Ordered [("1", Template.matcher (.like (.literal (.obj
      [(Marker.versionKey, .str "2.0.0")])))), (Marker.versionKey, .matcher (.repeated word 2))] :=
    Dict.ordered_cons.2 ⟨List.forall_mem_singleton.2 (by decide), Dict.ordered_singleton _⟩
  exact ⟨ordered, ⟨trivial, ⟨Dict.ordered_singleton _, trivial, trivial⟩⟩,
    ⟨trivial, trivial, trivial⟩, trivial⟩

theorem asksForItem_body : body.Everywhere Template.AsksForItem := by
  have two : (1 : UInt64) ≤ 2 := by decide
  exact ⟨trivial, ⟨trivial, trivial⟩, ⟨two, trivial, trivial⟩, trivial⟩

theorem wellFormed_draft : draft.WellFormed := by
  have header : word.WellFormed := ⟨trivial, trivial⟩
  have filled : payload.WellFormed := by
    apply (PayloadDraft.wellFormed_empty.header "X-Word" header).setBody
    intro t given
    rw [← BodyDraft.json.inj given]
    exact wellFormed_body
  have path : (Template.ofString "/").WellFormed := trivial
  exact ((InteractionDraft.wellFormed_new "p").withRequest
    (RequestDraft.wellFormed_new "GET" path)).withResponse (ResponseDraft.wellFormed_iff.2 filled)

theorem asksForItems_draft : draft.AsksForItems := by
  have templates : Template.EveryItem Template.AsksForItem
      [.ofString "/", .ofString BodyDraft.jsonContentType, word, body] :=
    ⟨trivial, trivial, ⟨trivial, trivial⟩, asksForItem_body, trivial⟩
  exact InteractionDraft.everywhere_of_places rfl rfl templates

theorem run_early_rules_marker_names :
    (∃ r, (body.resolve .v2 Path.root).result = .ok r ∧ r.IsEarly) ∧
      ∃ i ∈ desk.contract.interactions,
        i.response.rules = some (.flat flat) ∧ PartRules.AreEarly i.response.rules := by
  obtain ⟨resolved, recorded⟩ := Desk.run_early_rules
  constructor
  · have taken : (body.resolve .v2 Path.root).result = .ok (body.resolveUnchecked Path.root).value := by
      rfl
    exact ⟨_, taken, resolved body Path.root _ wellFormed_body asksForItem_body taken⟩
  · have built : ∀ call ∈ [Call.interaction draft], call.WellFormed ∧ call.AsksForItems :=
      List.forall_mem_singleton.2 ⟨wellFormed_draft, asksForItems_draft⟩
    obtain ⟨i, only, rules⟩ : ∃ i, desk.contract.interactions = [i] ∧
        i.response.rules = some (.flat flat) := ⟨_, rfl, by rfl⟩
    have found : i ∈ desk.contract.interactions := by
      rw [only]
      exact List.mem_singleton.2 rfl
    exact ⟨i, found, rules, (recorded _ _ _ rfl built i found).2.1⟩

end MarkerNames

end ConsumerContract
