import ConsumerContract.Proofs.MemberOrder

/-!
# Rules and generators read back

A rule, a rule set or a generator that was written is read back the same, in whatever order the members of
its document stand, provided that the dictionaries in it are in order: `Rule.InOrder`. The document of a rule
is tagged with the word for its kind (`Rule.toJson_eq`), so the tag decides how the other members are read. A
rule may hold rules in the variants of an array; the reader counts how deep it may go, and the depth of the
document is always enough.
-/

namespace ConsumerContract

open Json Json.Source

/-! ### Order -/

/-- The dictionaries inside the rule are in order. -/
inductive Rule.InOrder : Rule → Prop where
  | plain {r} : (∀ variants, r ≠ .arrayContains variants) → InOrder r
  | arrayContains {variants} :
      (∀ v ∈ variants, Dict.Ordered v.rules) → (∀ v ∈ variants, Dict.Ordered v.generators) →
      (∀ v ∈ variants, ∀ e ∈ v.rules, ∀ r ∈ e.2.matchers, InOrder r) →
      InOrder (.arrayContains variants)

/-- The dictionaries inside the rules of the set are in order. -/
def RuleSet.InOrder (s : RuleSet) : Prop :=
  ∀ r ∈ s.matchers, r.InOrder

/-! ### Writing -/

theorem Rule.variantsJson_eq (variants : List Variant) :
    variantsJson variants = variants.map Variant.toJson := by
  induction variants with
  | nil => rfl
  | cons v rest ih => rw [variantsJson, ih, List.map_cons]

theorem Rule.rulesJson_eq (rules : List Rule) : rulesJson rules = rules.map Rule.toJson := by
  induction rules with
  | nil => rfl
  | cons r rest ih => rw [rulesJson, ih, List.map_cons]

theorem Rule.setsJson_eq (sets : List (String × RuleSet)) :
    setsJson sets = Dict.mapValues RuleSet.toJson sets := by
  induction sets with
  | nil => rfl
  | cons e rest ih =>
    obtain ⟨k, s⟩ := e
    rw [setsJson, ih]
    rfl

theorem RuleSet.toJson_eq (s : RuleSet) :
    s.toJson = .obj [("combine", s.combine.toJson),
      ("matchers", .arr (s.matchers.map Rule.toJson))] := by
  obtain ⟨combine, matchers⟩ := s
  rw [toJson, Rule.rulesJson_eq]

theorem Variant.toJson_eq (v : Variant) :
    v.toJson = .obj [("index", .ofUInt64 v.index),
      ("rules", .obj (Dict.mapValues RuleSet.toJson v.rules)),
      ("generators", Generators.toJson v.generators)] := by
  obtain ⟨index, rules, generators⟩ := v
  rw [toJson, Rule.setsJson_eq]

/-! ### Generators and combinations -/

/-- A generator is read back, in whatever order its members stand. -/
theorem Generator.readsAs_toJson (held : Bool) (g : Generator) : ReadsAs (decode held) g.toJson g := by
  intro w h
  cases g with
  | moment kind format =>
    have known : Dict.get? (moment kind format).word GeneratorKind.words = some (.moment kind) := by
      cases kind <;> rfl
    obtain ⟨rest, tagged, left⟩ := asTagged_of_reorders held known (by simp) h
    rw [decode, tagged]
    simp only [readsAs_single true "format" (readsAs_text format) rest left]
    rfl
  | providerState expression =>
    have known : Dict.get? (providerState expression).word GeneratorKind.words = some .providerState := rfl
    obtain ⟨rest, tagged, left⟩ := asTagged_of_reorders held known (by simp) h
    rw [decode, tagged]
    simp only [readsAs_single true "expression" (readsAs_text expression) rest left]
    rfl

theorem Generator.decode_toJson (held : Bool) (g : Generator) :
    decode held (ofJson g.toJson) = .ok g :=
  (g.readsAs_toJson held).document

theorem Combine.readsAs_toJson (held inRule : Bool) (c : Combine) :
    ReadsAs (decode held inRule) c.toJson c := by
  rintro w rfl
  cases c <;> rfl

/-! ### Rule sets and variants -/

/-- A rule set is read back if its rules are. -/
theorem RuleSet.decodeWith_toJson {rule : Source → Except Failure Rule} (held inRule : Bool)
    {s : RuleSet} (reads : ∀ r ∈ s.matchers, ReadsAs rule r.toJson r) :
    ReadsAs (decodeWith rule held inRule) s.toJson s := by
  obtain ⟨combine, matchers⟩ := s
  intro w h
  rw [toJson_eq] at h
  unfold decodeWith
  rw [asRecord_of_reorders (r := ⟨some combine, some matchers⟩) held ?independent (by simp) ?fills h]
  · rfl
  case independent =>
    refine .cons (List.forall_mem_singleton.2 ?_) (.cons (by simp) independentSlots_nil)
    exact independent_slots (fun _ _ => rfl) (fun _ _ => rfl) fun _ _ _ => rfl
  case fills =>
    rintro _ ⟨c, _, rfl, hc, m, _, rfl, hm, rfl⟩
    have readsCombine := Combine.readsAs_toJson held inRule combine c hc
    have readsMatchers := readsAs_list reads m hm
    rw [fill_member (fun a p => { p with combine := some a }) (by rfl) rfl readsCombine,
      fill_member (fun a p => { p with matchers := some a }) (by rfl) rfl readsMatchers]
    rfl

/-- A variant in order is read back if its rules are. -/
theorem Variant.decodeWith_toJson {rule : Source → Except Failure Rule} (held : Bool) {v : Variant}
    (rules : Dict.Ordered v.rules) (generators : Dict.Ordered v.generators)
    (reads : ∀ e ∈ v.rules, ∀ r ∈ e.2.matchers, ReadsAs rule r.toJson r) :
    ReadsAs (decodeWith rule held) v.toJson v := by
  obtain ⟨index, sets, made⟩ := v
  intro w h
  rw [toJson_eq] at h
  unfold decodeWith
  rw [asRecord_of_reorders (r := ⟨some index, some sets, some made⟩) held ?independent (by simp)
    ?fills h]
  · rfl
  case independent =>
    refine .cons (List.forall_mem_cons.2 ⟨?_, List.forall_mem_singleton.2 ?_⟩)
      (.cons (List.forall_mem_singleton.2 ?_) (.cons (by simp) independentSlots_nil))
    all_goals exact independent_slots (fun _ _ => rfl) (fun _ _ => rfl) fun _ _ _ => rfl
  case fills =>
    rintro _ ⟨i, _, rfl, hi, s, _, rfl, hs, g, _, rfl, hg, rfl⟩
    have readsIndex := readsAs_UInt64 index i hi
    have readsRules : asDict (RuleSet.decodeWith rule held held) (ofJson s) = .ok sets :=
      readsAs_dict rules (fun e he => RuleSet.decodeWith_toJson held held (reads e he)) s hs
    have readsGenerators : asDict (Generator.decode held) (ofJson g) = .ok made :=
      readsAs_dict generators (fun e _ => e.2.readsAs_toJson held) g hg
    rw [fill_member (fun a p => { p with index := some a }) (by rfl) rfl readsIndex,
      fill_member (fun a p => { p with rules := some a }) (by rfl) rfl readsRules,
      fill_member (fun a p => { p with generators := some a }) (by rfl) rfl readsGenerators]
    rfl

/-! ### Rules -/

/-- The bounds of a length are read back. -/
theorem RuleBounds.decode_toJson (min max : Option UInt64) :
    ReadsAs decode (.obj (optionalMember "min" Json.ofUInt64 min ++
      optionalMember "max" Json.ofUInt64 max)) ⟨min.map some, max.map some⟩ := by
  intro w h
  unfold decode
  apply asRecord_of_reorders true ?independent ?distinct ?fills h
  case independent =>
    refine .cons (List.forall_mem_singleton.2 ?_) (.cons (by simp) independentSlots_nil)
    exact independent_slots (fun _ _ => rfl) (fun _ _ => rfl) fun _ _ _ => rfl
  case distinct => cases min <;> cases max <;> simp [optionalMember]
  case fills =>
    intro others inside
    have reads (bound : Option UInt64) : ∀ n, bound = some n →
        asOptional asUInt64 (ofJson (Json.ofUInt64 n)) = .ok (some n) :=
      fun n _ => asOptional_ofJson (by simp [Json.ofUInt64, Json.int]) (asUInt64_ofJson n)
    have fixed : ∀ e ∈ optionalMember "min" Json.ofUInt64 min ++ optionalMember "max" Json.ofUInt64 max,
        ∀ w, e.2.Reorders w → w = e.2 := by
      intro e he w moved
      cases min <;> cases max <;> simp [optionalMember] at he <;> rcases he with rfl | rfl <;> exact moved
    rw [inside.eq_of_fixed fixed, ← List.append_nil (optionalMember "max" Json.ofUInt64 max),
      fill_optional min some (fun a b => { b with min := a }) (by rfl) rfl rfl (reads min),
      fill_optional max some (fun a b => { b with max := a }) (by rfl) rfl rfl (reads max)]
    rfl

/-- The rules in a variant of a written rule stand at least one level deeper than the rule. -/
theorem Rule.depth_lt_of_variant {variants : List Variant} {v : Variant} (hv : v ∈ variants)
    {e : String × RuleSet} (he : e ∈ v.rules) {r : Rule} (hr : r ∈ e.2.matchers) :
    r.toJson.depth < (Rule.arrayContains variants).toJson.depth := by
  have inMatchers : r.toJson.depth < (Json.arr (e.2.matchers.map Rule.toJson)).depth :=
    Json.depth_lt_of_mem_arr (List.mem_map_of_mem hr)
  have inSet : (Json.arr (e.2.matchers.map Rule.toJson)).depth < e.2.toJson.depth := by
    rw [RuleSet.toJson_eq]
    exact Json.depth_lt_of_mem_obj (e := ("matchers", _)) (by simp)
  have inSets : e.2.toJson.depth < (Json.obj (Dict.mapValues RuleSet.toJson v.rules)).depth :=
    Json.depth_lt_of_mem_obj (e := (e.1, e.2.toJson)) (List.mem_map_of_mem he)
  have inVariant : (Json.obj (Dict.mapValues RuleSet.toJson v.rules)).depth < v.toJson.depth := by
    rw [Variant.toJson_eq]
    exact Json.depth_lt_of_mem_obj (e := ("rules", _)) (by simp)
  have inVariants : v.toJson.depth < (Json.arr (variants.map Variant.toJson)).depth :=
    Json.depth_lt_of_mem_arr (List.mem_map_of_mem hv)
  have inRule : (Json.arr (variants.map Variant.toJson)).depth <
      (Rule.arrayContains variants).toJson.depth := by
    rw [toJson, variantsJson_eq]
    exact Json.depth_lt_of_mem_obj (e := ("variants", _)) (by simp)
  omega

/-- The kind of the rule. -/
def Rule.kind : Rule → RuleKind
  | .type .. => .type
  | .regex _ => .regex
  | .integer => .integer
  | .decimal => .decimal
  | .null => .null
  | .equality => .equality
  | .includes _ => .includes
  | .values => .values
  | .arrayContains _ => .arrayContains
  | .moment kind _ => .moment kind

/-- What the document of the rule says besides its kind. -/
def Rule.details : Rule → List (String × Json)
  | .type min max => optionalMember "min" Json.ofUInt64 min ++ optionalMember "max" Json.ofUInt64 max
  | .regex pattern => [("regex", .str pattern)]
  | .includes part => [("value", .str part)]
  | .arrayContains variants => [("variants", .arr (variants.map Variant.toJson))]
  | .moment _ format => [("format", .str format)]
  | .integer | .decimal | .null | .equality | .values => []

/-- A rule is written as its word, followed by its details. -/
theorem Rule.toJson_eq (r : Rule) : r.toJson = .obj (("match", .str r.word) :: r.details) := by
  cases r with
  | arrayContains variants => rw [toJson, variantsJson_eq]; rfl
  | _ => rfl

/-- The word of a rule tells its kind. -/
theorem RuleKind.get?_word (r : Rule) : Dict.get? r.word words = some r.kind := by
  cases r with
  | moment kind format => cases kind <;> rfl
  | _ => rfl

/-- No detail of a rule has the name of its word. -/
theorem Rule.ne_match_of_mem_details {r : Rule} : ∀ e ∈ r.details, e.1 ≠ "match" := by
  cases r with
  | type min max => cases min <;> cases max <;> simp [details, optionalMember]
  | _ => simp [details]

/-- A rule is read back with any number of levels that its document does not exceed. The induction is on
the levels, one of which is left behind with each array of variants. -/
theorem Rule.decodeFrom_toJson (levels : Nat) : ∀ r : Rule, r.InOrder → r.toJson.depth < levels →
    ∀ held, ReadsAs (decodeFrom levels held) r.toJson r := by
  induction levels with
  | zero =>
    intro r _ deep
    exact absurd deep (Nat.not_lt_zero _)
  | succ levels ih =>
    intro r ordered deep held w h
    rw [toJson_eq] at h
    obtain ⟨body, tagged, left⟩ :=
      asTagged_of_reorders held (RuleKind.get?_word r) ne_match_of_mem_details h
    rw [decodeFrom, tagged]
    cases r with
    | type min max =>
      simp only [kind, RuleBounds.decode_toJson min max body left]
      cases min <;> cases max <;> rfl
    | regex pattern =>
      simp only [kind, readsAs_single true "regex" (readsAs_text pattern) body left]
      rfl
    | includes part =>
      simp only [kind, readsAs_single true "value" (readsAs_text part) body left]
      rfl
    | moment kind format =>
      simp only [Rule.kind, readsAs_single true "format" (readsAs_text format) body left]
      rfl
    | integer | decimal | null | equality | values =>
      obtain ⟨_, _, rfl, _⟩ := left
      rfl
    | arrayContains variants =>
      obtain ⟨rules, generators, inner⟩ : (∀ v ∈ variants, Dict.Ordered v.rules) ∧
          (∀ v ∈ variants, Dict.Ordered v.generators) ∧
          ∀ v ∈ variants, ∀ e ∈ v.rules, ∀ r ∈ e.2.matchers, r.InOrder := by
        cases ordered with
        | plain other => exact absurd rfl (other variants)
        | arrayContains rules generators inner => exact ⟨rules, generators, inner⟩
      have reads : ReadsAs (asList (Variant.decodeWith (decodeFrom levels true) true))
          (.arr (variants.map Variant.toJson)) variants := by
        apply readsAs_list
        intro v hv
        apply Variant.decodeWith_toJson true (rules v hv) (generators v hv)
        intro e he r hr
        have shallower := depth_lt_of_variant hv he hr
        exact ih r (inner v hv e he r hr) (by omega) true
      simp only [kind, readsAs_single true "variants" reads body left]
      rfl

/-- A rule in order is read back, in whatever order its members stand. -/
theorem Rule.readsAs_toJson (held : Bool) {r : Rule} (ordered : r.InOrder) :
    ReadsAs (decode held) r.toJson r := by
  intro w h
  have deep : r.toJson.depth < w.depth + 1 := by
    rw [h.depth_eq]
    exact Nat.lt_succ_self _
  exact decodeFrom_toJson _ r ordered deep held w h

theorem Rule.decode_toJson (held : Bool) {r : Rule} (ordered : r.InOrder) :
    decode held (ofJson r.toJson) = .ok r :=
  (readsAs_toJson held ordered).document

theorem RuleSet.readsAs_toJson (held : Bool) {s : RuleSet} (ordered : s.InOrder) :
    ReadsAs (decode held) s.toJson s :=
  decodeWith_toJson held false fun r hr => Rule.readsAs_toJson held (ordered r hr)

theorem RuleSet.decode_toJson (held : Bool) {s : RuleSet} (ordered : s.InOrder) :
    decode held (ofJson s.toJson) = .ok s :=
  (readsAs_toJson held ordered).document

end ConsumerContract
