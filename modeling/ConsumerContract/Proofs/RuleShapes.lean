import ConsumerContract.Proofs.RoundTrip

/-!
# The two shapes of rules are told apart

Rules stand in a document by path or by part, and nothing in the document says which. A reader tries the
first shape before the second, and it takes an object for a rule only if the object has a tag. Under each
name of a document by part stands an object without one, whatever headers, query parameters and paths are
called: a tag is a text, and what bears the name of the tag there is an object. So all rules are read back
in their own shape, but for nothing at all by part, which is read as nothing by path. No contract holds
that: rules are recorded only if there are any.

The documents of rules hold no numbers but bounds and indices, so they are read back from their texts too,
as deep as a text may go: `PartRules.ReadsBack`.
-/

namespace ConsumerContract

open Json (HasPlainNumber)
open Json.Source (ofJson maxDepth)

/-! ### The numbers in the documents of rules -/

theorem Json.hasPlainNumber_ofUInt64 (n : UInt64) : HasPlainNumber (.ofUInt64 n) := by
  have small := n.toNat_lt
  refine ⟨?_, ?_⟩
  · exact Int.le_trans (by decide) (Int.natCast_nonneg _)
  · exact Int.ofNat_le.2 (Nat.le_of_lt_succ small)

theorem Json.EveryMember.append {p : Json → Prop} {as bs : List (String × Json)}
    (ha : EveryMember p as) (hb : EveryMember p bs) : EveryMember p (as ++ bs) :=
  everyMember_iff.2 (List.forall_mem_append.2 ⟨everyMember_iff.1 ha, everyMember_iff.1 hb⟩)

/-- What holds throughout all that is written holds throughout a dictionary of it. -/
theorem Json.everyMember_mapValues {α : Type} {p : Json → Prop} {write : α → Json}
    (h : ∀ a, (write a).Everywhere p) (d : List (String × α)) :
    Json.EveryMember p (Dict.mapValues write d) := by
  apply Json.everyMember_iff.2
  intro e he
  obtain ⟨e, _, rfl⟩ := List.mem_map.1 he
  exact h e.2

theorem Json.everyMember_optionalMember {α : Type} {p : Json → Prop} {write : α → Json}
    (h : ∀ a, (write a).Everywhere p) (key : String) (o : Option α) :
    Json.EveryMember p (optionalMember key write o) := by
  cases o with
  | none => trivial
  | some a => exact ⟨h a, trivial⟩

theorem Generator.toJson_plain (g : Generator) : g.toJson.Everywhere HasPlainNumber := by
  cases g <;> exact ⟨trivial, trivial, trivial, trivial⟩

theorem Generators.toJson_plain (generators : Generators) :
    (Generators.toJson generators).Everywhere HasPlainNumber :=
  ⟨trivial, Json.everyMember_mapValues Generator.toJson_plain generators⟩

theorem Combine.toJson_plain (c : Combine) : c.toJson.Everywhere HasPlainNumber :=
  trivial

mutual

/-- The numbers of a rule are plain, those of its variants included. -/
theorem Rule.toJson_plain : (r : Rule) → r.toJson.Everywhere HasPlainNumber
  | .type min max => by
    refine ⟨trivial, trivial, .append ?_ ?_⟩
    · exact Json.everyMember_optionalMember Json.hasPlainNumber_ofUInt64 "min" min
    · exact Json.everyMember_optionalMember Json.hasPlainNumber_ofUInt64 "max" max
  | .regex _ | .includes _ | .moment .. => ⟨trivial, trivial, trivial, trivial⟩
  | .integer | .decimal | .null | .equality | .values => ⟨trivial, trivial, trivial⟩
  | .arrayContains variants =>
    ⟨trivial, trivial, ⟨trivial, Rule.variantsJson_plain variants⟩, trivial⟩

theorem Rule.variantsJson_plain : (variants : List Variant) →
    Json.EveryItem HasPlainNumber (Rule.variantsJson variants)
  | [] => trivial
  | v :: rest => ⟨v.toJson_plain, Rule.variantsJson_plain rest⟩

theorem Variant.toJson_plain : (v : Variant) → v.toJson.Everywhere HasPlainNumber
  | ⟨index, rules, generators⟩ =>
    ⟨trivial, Json.hasPlainNumber_ofUInt64 index, ⟨trivial, Rule.setsJson_plain rules⟩,
      Generators.toJson_plain generators, trivial⟩

theorem Rule.setsJson_plain : (sets : List (String × RuleSet)) →
    Json.EveryMember HasPlainNumber (Rule.setsJson sets)
  | [] => trivial
  | (_, s) :: rest => ⟨s.toJson_plain, Rule.setsJson_plain rest⟩

theorem RuleSet.toJson_plain : (s : RuleSet) → s.toJson.Everywhere HasPlainNumber
  | ⟨combine, matchers⟩ =>
    ⟨trivial, combine.toJson_plain, ⟨trivial, Rule.rulesJson_plain matchers⟩, trivial⟩

theorem Rule.rulesJson_plain : (rules : List Rule) →
    Json.EveryItem HasPlainNumber (Rule.rulesJson rules)
  | [] => trivial
  | r :: rest => ⟨r.toJson_plain, Rule.rulesJson_plain rest⟩

end

theorem ByPart.toJson_plain {α : Type} {write : α → Json}
    (h : ∀ a, (write a).Everywhere HasPlainNumber) (b : ByPart α) :
    (b.toJson write).Everywhere HasPlainNumber := by
  have dict (d : List (String × α)) : (Json.obj (Dict.mapValues write d)).Everywhere HasPlainNumber :=
    ⟨trivial, Json.everyMember_mapValues h d⟩
  refine ⟨trivial, ?_⟩
  simp only [listMember_eq]
  have body := Json.everyMember_optionalMember dict "body" (listed b.body)
  have header := Json.everyMember_optionalMember dict "header" (listed b.header)
  have query := Json.everyMember_optionalMember dict "query" (listed b.query)
  have path := Json.everyMember_optionalMember h "path" b.path
  exact ((body.append header).append query).append path

namespace PartRules

/-- The numbers of rules are plain, in either shape. -/
theorem toJson_plain (p : PartRules) : p.toJson.Everywhere HasPlainNumber := by
  cases p with
  | flat rules => exact ⟨trivial, Json.everyMember_mapValues Rule.toJson_plain rules⟩
  | byPart sets => exact sets.toJson_plain RuleSet.toJson_plain

/-! ### Reading back -/

/-- The dictionaries in the rules are in order. -/
def Sorted : PartRules → Prop
  | .flat rules => Dict.Ordered rules ∧ ∀ e ∈ rules, e.2.InOrder
  | .byPart sets => sets.InOrder ∧ sets.All RuleSet.InOrder

/-- Rules in order have in particular their dictionaries in order. -/
theorem InOrder.sorted {p : PartRules} (ordered : p.InOrder) : p.Sorted := by
  cases p with
  | flat rules => exact ordered
  | byPart sets => exact ordered.2

/-- The rules are read back as they are, in their own shape: from their document, and from either layout of
its text unless it is deeper than texts may be. -/
structure ReadsBack (p : PartRules) : Prop where
  document : decode (ofJson p.toJson) = .ok p
  text : p.toJson.depth ≤ maxDepth → Json.decodeText decode p.toJson.compact = .ok p
  prettyText : p.toJson.depth ≤ maxDepth → Json.decodeText decode p.toJson.pretty = .ok p

/-- Rules in order are read back in the same shape, as a value and from either text. -/
theorem InOrder.readsBack {p : PartRules} (ordered : p.InOrder) : p.ReadsBack where
  document := decode_toJson ordered
  text shallow := by
    rw [Json.decodeText_compact decode p.toJson_plain shallow, decode_toJson ordered]
  prettyText shallow := by
    rw [Json.decodeText_pretty decode p.toJson_plain shallow, decode_toJson ordered]

end PartRules

/-- Where nothing is said of any part, there is nothing. -/
theorem ByPart.eq_empty {α : Type} {b : ByPart α} (h : b.isEmpty = true) : b = {} := by
  obtain ⟨body, header, query, path⟩ := b
  simp only [isEmpty, Bool.and_eq_true, List.isEmpty_iff, Option.isNone_iff_eq_none] at h
  obtain ⟨⟨⟨rfl, rfl⟩, rfl⟩, rfl⟩ := h
  rfl

/-- Nothing at all by part is the one value that does not come back. -/
theorem PartRules.Sorted.readsBack_iff {p : PartRules} (sorted : p.Sorted) :
    p.ReadsBack ↔ p ≠ .byPart {} := by
  constructor
  · -- Both shapes write nothing at all as the empty object, and the first one tried takes it.
    rintro back rfl
    have other : decode (ofJson (byPart {}).toJson) = .ok (.flat []) := rfl
    rw [back.document] at other
    cases other
  · intro some
    apply InOrder.readsBack
    cases p with
    | flat rules => exact sorted
    | byPart sets =>
      refine ⟨?_, sorted⟩
      rw [Bool.eq_false_iff]
      intro empty
      rw [ByPart.eq_empty empty] at some
      exact some rfl

/-! ### What contracts hold -/

/-- The rules that stand in the contract, those of all requests, responses and messages. -/
def Contract.allRules (c : Contract) : List PartRules :=
  c.interactions.flatMap (fun i => i.request.rules.toList ++ i.response.rules.toList) ++
    c.messages.flatMap fun m => m.rules.toList

/-- Rules are recorded only if there are any, and in order. -/
theorem Placed.rules_recorded {version : Version} {holds : Place → Template → Prop}
    {parts : List Placed} (h : AllOf version holds parts) {p : PartRules}
    (recorded : rules version parts = some p) : p.isEmpty = false ∧ p.InOrder := by
  refine ⟨?_, rules_inOrder h p recorded⟩
  by_cases early : version = .v2
  · subst early
    obtain ⟨filled, rfl⟩ := rules_early parts recorded
    exact List.isEmpty_eq_false_iff.2 filled
  · obtain ⟨filled, rfl⟩ := rules_late early parts recorded
    exact filled

/-- Every rule of the contract was recorded for the templates of some draft. -/
theorem Desk.Stems.allRules {s : Settings} {calls : List Call} {d : Desk} (stems : d.Stems s calls)
    {p : PartRules} (hp : p ∈ d.contract.allRules) :
    ∃ holds parts, Placed.AllOf s.version holds parts ∧ Placed.rules s.version parts = some p := by
  rcases List.mem_append.1 hp with hp | hp
  · obtain ⟨i, hi, hp⟩ := List.mem_flatMap.1 hp
    obtain ⟨draft, _, found⟩ := stems.interactions i hi
    obtain ⟨request, response, _, _, _, rfl⟩ := Assembly.interaction_eq_ok_iff.1 found
    rcases List.mem_append.1 hp with hp | hp
    · exact ⟨_, _, request.allOf_places s.version, Option.mem_toList.1 hp⟩
    · exact ⟨_, _, response.payload.allOf_places s.version, Option.mem_toList.1 hp⟩
  · obtain ⟨m, hm, hp⟩ := List.mem_flatMap.1 hp
    obtain ⟨draft, _, found⟩ := stems.messages m hm
    obtain ⟨_, rfl⟩ := (Assembly.message_gives s.version draft m).1 found
    exact ⟨_, _, draft.allOf_places s.version, Option.mem_toList.1 hp⟩

/-- Unless there are none, rules are read back in their own shape, whatever the names in them and however
deep they stand in each other; so are all rules of a contract after any calls. -/
theorem PartRules.read_own_shape :
    (∀ p : PartRules, p.Sorted →
      (p.isEmpty = false → p.ReadsBack) ∧ (p.ReadsBack ↔ p ≠ .byPart {})) ∧
      ∀ (s : Settings) (archives : Nat → Archive) (calls : List Call),
        ∀ p ∈ ((Desk.start s archives).run calls).contract.allRules,
          p.isEmpty = false ∧ p.Sorted ∧ p.ReadsBack := by
  constructor
  · intro p sorted
    refine ⟨fun filled => sorted.readsBack_iff.2 ?_, sorted.readsBack_iff⟩
    rintro rfl
    cases filled
  · intro s archives calls p hp
    obtain ⟨holds, parts, all, recorded⟩ := (Desk.stems_run s archives calls).allRules hp
    obtain ⟨filled, ordered⟩ := Placed.rules_recorded all recorded
    exact ⟨filled, ordered.sorted, ordered.readsBack⟩

/-! ### Names like tags and parts -/

namespace TagNames

/-- A rule whose variant has a rule and a generator under the names of tags. -/
def rule : Rule :=
  .arrayContains [⟨0, [("match", (Rule.regex "a").alone)], [("type", .providerState "match")]⟩]

/-- Rules by path, the paths called like a tag and like parts. -/
def byPath : PartRules :=
  .flat (Dict.ofList [("path", rule), ("match", rule), ("body", rule)])

/-- Rules by part, with a header, a parameter and places of the body called like tags. -/
def byPart : PartRules :=
  .byPart {
    body := Dict.ofList [("match", rule.alone), ("combine", rule.alone)]
    header := [("match", rule.alone)]
    query := [("body", rule.alone)]
    path := some rule.alone }

/-- A header called like a tag. -/
def draft : InteractionDraft where
  description := "p"
  request := some {
    method := "GET", path := .ofString "/"
    payload := { headers := [("match", .matcher (.regex "a" "a"))] } }
  response := some { status := 200 }

/-- The desk of version 3 after the draft has been recorded. -/
def desk : Desk :=
  (Desk.start ⟨"web-app", "user-service", .v3, .never, "info"⟩ fun _ => {}).run [.interaction draft]

theorem inOrder_rule : rule.InOrder := by
  have inner : (Rule.regex "a").InOrder := .plain fun _ same => nomatch same
  exact .arrayContains (List.forall_mem_singleton.2 (Dict.ordered_singleton _))
    (List.forall_mem_singleton.2 (Dict.ordered_singleton _))
    (List.forall_mem_singleton.2 (List.forall_mem_singleton.2 (List.forall_mem_singleton.2 inner)))

theorem sorted_byPath : byPath.Sorted := by
  refine ⟨Dict.ordered_ofList _, fun e he => ?_⟩
  rcases List.mem_cons.1 (Dict.mem_of_mem_ofList he) with rfl | he
  · exact inOrder_rule
  rcases List.mem_cons.1 he with rfl | he
  · exact inOrder_rule
  · rw [List.mem_singleton.1 he]
    exact inOrder_rule

theorem sorted_byPart : byPart.Sorted := by
  have set : rule.alone.InOrder := List.forall_mem_singleton.2 inOrder_rule
  refine ⟨⟨Dict.ordered_ofList _, Dict.ordered_singleton _, Dict.ordered_singleton _⟩, fun e he => ?_,
    List.forall_mem_singleton.2 set, List.forall_mem_singleton.2 set, fun s hs => ?_⟩
  · rcases List.mem_cons.1 (Dict.mem_of_mem_ofList he) with rfl | he
    · exact set
    · rw [List.mem_singleton.1 he]
      exact set
  · rw [← Option.some.inj hs]
    exact set

theorem read_own_shape_tags :
    byPath.ReadsBack ∧ byPart.ReadsBack ∧
      ∃ p ∈ desk.contract.allRules,
        p = .byPart { header := [("match", (Rule.regex "a").alone)] } ∧ p.ReadsBack := by
  obtain ⟨all, recorded⟩ := PartRules.read_own_shape
  refine ⟨(all byPath sorted_byPath).1 rfl, (all byPart sorted_byPart).1 rfl, ?_⟩
  obtain ⟨p, only, shape⟩ : ∃ p, desk.contract.allRules = [p] ∧
      p = .byPart { header := [("match", (Rule.regex "a").alone)] } := ⟨_, by rfl, rfl⟩
  have found : p ∈ desk.contract.allRules := by
    rw [only]
    exact List.mem_singleton.2 rfl
  exact ⟨p, found, shape, (recorded _ _ _ p found).2.2⟩

end TagNames

end ConsumerContract
