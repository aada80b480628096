import ConsumerContract.Proofs.RuleShapes

/-!
# The vocabulary of rules, read back

Rules, rule sets, variants and generators are read back as they were written: `vocabulary_readsBack`. The
document may be at hand, with its members as they were written or in any other order, such as that of their
keys; or it may be a text in one of the two layouts. A text must not be deeper than a reader of texts goes;
a document at hand may be of any depth.

The documents of rules and generators are tagged, and the word of the tag tells the kind: different kinds
have different words, and the words of one kind are the same.
-/

namespace ConsumerContract

open Json (DistinctKeys ReadsAs)
open Json.Source (ofJson maxDepth)

/-! ### No key twice -/

theorem Generator.toJson_distinct (g : Generator) : g.toJson.Everywhere DistinctKeys := by
  cases g <;> exact ⟨by simp [DistinctKeys], trivial, trivial, trivial⟩

/-- No two members of a dictionary have one name, nor do those of its values if each is written so. -/
theorem Json.distinct_mapValues {α : Type} {write : α → Json} {d : List (String × α)}
    (ordered : Dict.Ordered d) (h : ∀ e ∈ d, (write e.2).Everywhere DistinctKeys) :
    (Json.obj (Dict.mapValues write d)).Everywhere DistinctKeys := by
  refine ⟨(ordered.mapValues write).nodup_keys, Json.everyMember_iff.2 ?_⟩
  intro e he
  obtain ⟨e, hd, rfl⟩ := List.mem_map.1 he
  exact h e hd

theorem RuleSet.toJson_distinct {s : RuleSet}
    (h : ∀ r ∈ s.matchers, r.toJson.Everywhere DistinctKeys) : s.toJson.Everywhere DistinctKeys := by
  have matchers : (Json.arr (s.matchers.map Rule.toJson)).Everywhere DistinctKeys := by
    refine ⟨trivial, Json.everyItem_iff.2 ?_⟩
    intro v hv
    obtain ⟨r, hr, rfl⟩ := List.mem_map.1 hv
    exact h r hr
  rw [toJson_eq]
  exact ⟨by simp [DistinctKeys], trivial, matchers, trivial⟩

theorem Variant.toJson_distinct {v : Variant} (rules : Dict.Ordered v.rules)
    (generators : Dict.Ordered v.generators)
    (h : ∀ e ∈ v.rules, ∀ r ∈ e.2.matchers, r.toJson.Everywhere DistinctKeys) :
    v.toJson.Everywhere DistinctKeys := by
  have sets := Json.distinct_mapValues rules fun e he => RuleSet.toJson_distinct (h e he)
  have made := Json.distinct_mapValues generators fun e _ => e.2.toJson_distinct
  rw [toJson_eq]
  exact ⟨by simp [DistinctKeys], trivial, sets, made, trivial⟩

/-- No two details of a rule have one name. -/
theorem Rule.nodup_details (r : Rule) : (r.details.map (·.1)).Nodup := by
  cases r with
  | type min max => cases min <;> cases max <;> simp [details, optionalMember]
  | _ => simp [details]

/-- No two members of a rule in order have one name, nor do those inside it. -/
theorem Rule.InOrder.toJson_distinct {r : Rule} (ordered : r.InOrder) :
    r.toJson.Everywhere DistinctKeys := by
  have tagged (r : Rule) (inside : Json.EveryMember DistinctKeys r.details) :
      r.toJson.Everywhere DistinctKeys := by
    have free : "match" ∉ r.details.map (·.1) := by
      intro named
      obtain ⟨e, he, same⟩ := List.mem_map.1 named
      exact ne_match_of_mem_details e he same
    rw [toJson_eq]
    exact ⟨List.nodup_cons.2 ⟨free, r.nodup_details⟩, trivial, inside⟩
  induction ordered with
  | @plain r other =>
    apply tagged
    cases r with
    | type min max =>
      have scalar (n : UInt64) : (Json.ofUInt64 n).Everywhere DistinctKeys := trivial
      exact .append (Json.everyMember_optionalMember scalar "min" min)
        (Json.everyMember_optionalMember scalar "max" max)
    | regex | includes | moment => exact ⟨trivial, trivial⟩
    | integer | decimal | null | equality | values => trivial
    | arrayContains variants => exact absurd rfl (other variants)
  | @arrayContains variants rules generators _ ih =>
    apply tagged
    refine ⟨⟨trivial, Json.everyItem_iff.2 ?_⟩, trivial⟩
    intro doc hdoc
    obtain ⟨v, hv, rfl⟩ := List.mem_map.1 hdoc
    exact Variant.toJson_distinct (rules v hv) (generators v hv) (ih v hv)

/-! ### Kinds and words -/

/-- The kind of the generator. -/
def Generator.kind : Generator → GeneratorKind
  | .moment kind _ => .moment kind
  | .providerState _ => .providerState

/-- The word of a generator tells its kind. -/
theorem GeneratorKind.get?_word (g : Generator) : Dict.get? g.word words = some g.kind := by
  cases g with
  | moment kind format => cases kind <;> rfl
  | providerState expression => rfl

/-- The document is an object that begins with the tag, and has no other member of that name. -/
def Json.IsTagged (v : Json) (key word : String) : Prop :=
  ∃ details, v = .obj ((key, .str word) :: details) ∧ ∀ e ∈ details, e.1 ≠ key

theorem Generator.isTagged_toJson (g : Generator) : g.toJson.IsTagged "type" g.word := by
  cases g with
  | moment kind format => exact ⟨[("format", .str format)], rfl, by simp⟩
  | providerState expression => exact ⟨[("expression", .str expression)], rfl, by simp⟩

/-- Where each kind has one word, the word tells the kind and the kind the word. -/
theorem word_eq_iff {α κ : Type} {words : List (String × κ)} {word : α → String} {kind : α → κ}
    (known : ∀ a, Dict.get? (word a) words = some (kind a))
    (one : ∀ e ∈ words, ∀ f ∈ words, e.2 = f.2 → e.1 = f.1) (a b : α) :
    word b = word a ↔ kind b = kind a := by
  constructor
  · intro same
    have other := known b
    rw [same, known a] at other
    exact (Option.some.inj other).symm
  · exact one _ (Dict.mem_of_get? (known b)) _ (Dict.mem_of_get? (known a))

/-- Rules have one word exactly if they are of one kind. -/
theorem Rule.word_eq_iff (r s : Rule) : s.word = r.word ↔ s.kind = r.kind :=
  ConsumerContract.word_eq_iff RuleKind.get?_word (by decide) r s

/-- Generators have one word exactly if they are of one kind. -/
theorem Generator.word_eq_iff (g h : Generator) : h.word = g.word ↔ h.kind = g.kind :=
  ConsumerContract.word_eq_iff GeneratorKind.get?_word (by decide) g h

/-! ### Reading back -/

/-- The document `v` of `a` is read as `a`: at hand, with its members in any order and so in that of their
keys; and from its text in either layout, unless it is deeper than texts may be. -/
structure Json.ReadsBack {α : Type} (decode : Bool → Source → Except Failure α) (v : Json) (a : α) :
    Prop where
  document : ∀ held, ReadsAs (decode held) v a
  canonical : ∀ held, decode held (ofJson v.canonical) = .ok a
  text : v.depth ≤ maxDepth → decodeText (decode false) v.compact = .ok a
  prettyText : v.depth ≤ maxDepth → decodeText (decode false) v.pretty = .ok a

/-- What is read in any order, from distinct names and plain numbers, is read back from every form of
its text. -/
theorem Json.ReadsBack.of_readsAs {α : Type} {decode : Bool → Source → Except Failure α} {v : Json} {a : α}
    (reads : ∀ held, ReadsAs (decode held) v a) (distinct : v.Everywhere DistinctKeys)
    (plain : v.Everywhere HasPlainNumber) : ReadsBack decode v a where
  document := reads
  canonical held := reads held _ (reorders_canonical v distinct)
  text shallow := by rw [decodeText_compact (decode false) plain shallow, (reads false).document]
  prettyText shallow := by rw [decodeText_pretty (decode false) plain shallow, (reads false).document]

/-- The dictionaries of the variant, and those inside its rules, are in order. -/
structure Variant.InOrder (v : Variant) : Prop where
  rules : Dict.Ordered v.rules
  generators : Dict.Ordered v.generators
  inner : ∀ e ∈ v.rules, e.2.InOrder

/-- Every rule, rule set, variant and generator is read back as it was written, however deep rules stand in
each other, whatever their texts and bounds are, and whether bounds are there or not. The documents of rules
and generators are tagged with a word that tells the kind. -/
theorem vocabulary_readsBack :
    (∀ r : Rule, r.InOrder → Json.ReadsBack Rule.decode r.toJson r) ∧
    (∀ s : RuleSet, s.InOrder → Json.ReadsBack RuleSet.decode s.toJson s) ∧
    (∀ v : Variant, v.InOrder → Json.ReadsBack Variant.decode v.toJson v) ∧
    (∀ g : Generator, Json.ReadsBack Generator.decode g.toJson g) ∧
    (∀ r : Rule, r.toJson.IsTagged "match" r.word ∧ ∀ s : Rule, s.word = r.word ↔ s.kind = r.kind) ∧
    ∀ g : Generator, g.toJson.IsTagged "type" g.word ∧
      ∀ h : Generator, h.word = g.word ↔ h.kind = g.kind := by
  refine ⟨?rule, ?ruleSet, ?variant, ?generator, ?ruleTag, ?generatorTag⟩
  case rule =>
    intro r ordered
    exact .of_readsAs (fun held => r.readsAs_toJson held ordered) ordered.toJson_distinct r.toJson_plain
  case ruleSet =>
    intro s ordered
    exact .of_readsAs (fun held => s.readsAs_toJson held ordered)
      (RuleSet.toJson_distinct fun r hr => (ordered r hr).toJson_distinct) s.toJson_plain
  case variant =>
    intro v ordered
    have distinct := Variant.toJson_distinct ordered.rules ordered.generators fun e he r hr =>
      (ordered.inner e he r hr).toJson_distinct
    have reads (held : Bool) : ReadsAs (Variant.decode held) v.toJson v :=
      Variant.decodeWith_toJson held ordered.rules ordered.generators fun e he r hr =>
        r.readsAs_toJson held (ordered.inner e he r hr)
    exact .of_readsAs reads distinct v.toJson_plain
  case generator =>
    intro g
    exact .of_readsAs (fun held => g.readsAs_toJson held) g.toJson_distinct g.toJson_plain
  case ruleTag => exact fun r => ⟨⟨r.details, r.toJson_eq, Rule.ne_match_of_mem_details⟩, r.word_eq_iff⟩
  case generatorTag => exact fun g => ⟨g.isTagged_toJson, g.word_eq_iff⟩

/-! ### Rules within rules -/

namespace NestedRules

/-- A rule with a variant of its own beside one with an upper bound only. -/
def set : RuleSet :=
  ⟨.any, [TagNames.rule, .type none (some 0)]⟩

/-- The last variant that can be numbered, with the two rules in it. -/
def variant : Variant :=
  ⟨18446744073709551615, [("match", set)], [("$['type']", .moment .dateTime "'T'")]⟩

/-- A rule that holds the others. -/
def rule : Rule :=
  .arrayContains [variant]

theorem inOrder_set : set.InOrder := by
  have bounds : (Rule.type none (some 0)).InOrder := .plain fun _ same => nomatch same
  exact List.forall_mem_cons.2 ⟨TagNames.inOrder_rule, List.forall_mem_singleton.2 bounds⟩

theorem inOrder_variant : variant.InOrder where
  rules := Dict.ordered_singleton _
  generators := Dict.ordered_singleton _
  inner := List.forall_mem_singleton.2 inOrder_set

theorem inOrder_rule : rule.InOrder :=
  .arrayContains (List.forall_mem_singleton.2 inOrder_variant.rules)
    (List.forall_mem_singleton.2 inOrder_variant.generators)
    (List.forall_mem_singleton.2 inOrder_variant.inner)

theorem vocabulary_readsBack_nested :
    Json.decodeText (Rule.decode false) rule.toJson.compact = .ok rule ∧
      RuleSet.decode false (ofJson set.toJson.canonical) = .ok set ∧
      Json.decodeText (Variant.decode false) variant.toJson.pretty = .ok variant := by
  obtain ⟨rules, sets, variants, _⟩ := vocabulary_readsBack
  exact ⟨(rules rule inOrder_rule).text (by decide), (sets set inOrder_set).canonical false,
    (variants variant inOrder_variant).prettyText (by decide)⟩

end NestedRules

end ConsumerContract
