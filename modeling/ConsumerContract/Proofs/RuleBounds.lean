import ConsumerContract.Proofs.ReaderBounds
import ConsumerContract.Proofs.RuleShapes

/-!
# Rules and generators as they are read

A rule, rule set or generator that is read has its dictionaries in order, whatever order the text had them
in, and its document is no deeper than what it was read from: members that are passed over only make it
shallower, and shapes of other forms, such as arrays in place of objects, have as many levels.
-/

namespace ConsumerContract

open Json (Source Failure bind_eq_ok_iff map_eq_ok_iff)
open Json.Source

namespace Json

/-- An unsigned integer is a plain number at any level. -/
theorem fits_ofUInt64 (n : Nat) (x : UInt64) : (ofUInt64 x).Fits n :=
  .num (hasPlainNumber_ofUInt64 x)

theorem fits_map {α : Type} {write : α → Json} {n : Nat} {as : List α} (h : ∀ a ∈ as, (write a).Fits n) :
    (Json.arr (as.map write)).Fits (n + 1) := by
  refine .arr fun v hv => ?_
  obtain ⟨a, ha, rfl⟩ := List.mem_map.1 hv
  exact h a ha

/-- A dictionary fits one level more than its values. -/
theorem fits_mapValues {α : Type} {write : α → Json} {n : Nat} {d : List (String × α)}
    (h : ∀ e ∈ d, (write e.2).Fits n) : (Json.obj (Dict.mapValues write d)).Fits (n + 1) := by
  refine .obj fun e he => ?_
  obtain ⟨f, hf, rfl⟩ := List.mem_map.1 he
  exact h f hf

end Json

/-! ### What is read -/

/-- The document of the rule fits, and the dictionaries in the rule are in order. -/
structure Rule.Sound (n : Nat) (r : Rule) : Prop where
  fits : r.toJson.Fits n
  ordered : r.InOrder

/-- The document of the set fits, and the dictionaries in the rules are in order. -/
structure RuleSet.Sound (n : Nat) (s : RuleSet) : Prop where
  fits : s.toJson.Fits n
  ordered : s.InOrder

/-- The document of the variant fits, and the dictionaries in the variant are in order. -/
structure Variant.Sound (n : Nat) (v : Variant) : Prop where
  fits : v.toJson.Fits n
  rules : Dict.Ordered v.rules
  generators : Dict.Ordered v.generators
  inside : ∀ e ∈ v.rules, e.2.InOrder

/-- The document of the generator fits. -/
def Generator.Sound (n : Nat) (g : Generator) : Prop :=
  g.toJson.Fits n

/-- A generator is written within one level. -/
theorem Generator.sound {n : Nat} (levels : 0 < n) (g : Generator) : g.Sound n := by
  obtain ⟨m, rfl⟩ := Nat.exists_eq_add_one.2 levels
  refine .obj fun e he => ?_
  cases g <;> simp at he <;> rcases he with rfl | rfl <;> exact .str _

/-- A generator that is read is sound. -/
theorem Generator.ensures_decode (held : Bool) : Ensures (decode held) Sound := by
  intro n s g fits reads
  rw [decode] at reads
  split at reads
  next => cases reads
  next kind body tagged => exact g.sound (ensures_tagged held _ _ fits tagged).1
  next body tagged => exact g.sound (ensures_tagged held _ _ fits tagged).1

section

variable {rule : Source → Except Failure Rule}

/-- What is read of the fields of a rule set. -/
structure RuleSet.Partial.Sound (n : Nat) (p : RuleSet.Partial) : Prop where
  matchers : IfAny (Inside (AllItems Rule.Sound)) n p.matchers

theorem RuleSet.ensures_decodeWith (h : Ensures rule Rule.Sound) (held inRule : Bool) :
    Ensures (decodeWith rule held inRule) Sound := by
  intro n s a fits reads
  obtain ⟨p, filled, reads⟩ := bind_eq_ok_iff.1 reads
  obtain ⟨combine, -, reads⟩ := bind_eq_ok_iff.1 reads
  obtain ⟨matchers, given, same⟩ := bind_eq_ok_iff.1 reads
  cases same
  have kept : Inside RuleSet.Partial.Sound n p := by
    refine ensures_record RuleSet.Partial.Sound (fun m => ⟨ifAny_none _ m⟩) (fun m => ?_) fits filled
    refine List.forall_mem_cons.2 ⟨keeps_slot ensures_true fun _ _ _ before => ⟨before.matchers⟩, ?_⟩
    exact List.forall_mem_singleton.2 (keeps_slot h.list fun _ _ sound _ => ⟨ifAny_some sound⟩)
  obtain ⟨m, rfl, some⟩ := kept
  obtain ⟨k, rfl, sound⟩ := some.matchers matchers (required_eq_ok_iff.1 given)
  refine ⟨?_, fun r hr => (sound r hr).ordered⟩
  have rules := Json.fits_map fun r hr => (sound r hr).fits
  rw [toJson_eq]
  exact .obj (List.forall_mem_cons.2 ⟨.str _, List.forall_mem_singleton.2 rules⟩)

/-- What is read of the fields of a variant. -/
structure Variant.Partial.Sound (n : Nat) (p : Variant.Partial) : Prop where
  rules : IfAny (Inside (AllEntries RuleSet.Sound)) n p.rules
  generators : IfAny (Inside (AllEntries Generator.Sound)) n p.generators

theorem Variant.ensures_decodeWith (h : Ensures rule Rule.Sound) (held : Bool) :
    Ensures (decodeWith rule held) Sound := by
  intro n s a fits reads
  obtain ⟨p, filled, reads⟩ := bind_eq_ok_iff.1 reads
  obtain ⟨index, -, reads⟩ := bind_eq_ok_iff.1 reads
  obtain ⟨rules, given, same⟩ := bind_eq_ok_iff.1 reads
  cases same
  have kept : Inside Variant.Partial.Sound n p := by
    refine ensures_record Variant.Partial.Sound (fun m => ⟨ifAny_none _ m, ifAny_none _ m⟩) (fun m => ?_) fits filled
    have sets := (RuleSet.ensures_decodeWith h held held).dict
    have generators := (Generator.ensures_decode held).dict
    refine List.forall_mem_cons.2 ⟨?index, List.forall_mem_cons.2 ⟨?rules,
      List.forall_mem_singleton.2 ?generators⟩⟩
    case index => exact keeps_slot ensures_true fun _ _ _ before => ⟨before.rules, before.generators⟩
    case rules => exact keeps_slot sets fun _ _ sound before => ⟨ifAny_some sound, before.generators⟩
    case generators =>
      exact keeps_slot generators fun _ _ sound before => ⟨before.rules, ifAny_some sound⟩
  obtain ⟨m, rfl, sound⟩ := kept
  obtain ⟨k, rfl, sets⟩ := sound.rules rules (required_eq_ok_iff.1 given)
  have made : AllEntries Generator.Sound k (p.generators.getD []) := by
    cases some : p.generators with
    | none => exact ⟨Dict.ordered_nil, fun e he => absurd he List.not_mem_nil⟩
    | some d =>
      obtain ⟨l, same, generators⟩ := sound.generators d some
      cases same
      exact generators
  refine ⟨?_, sets.ordered, made.ordered, fun e he => (sets.values e he).ordered⟩
  have setsFit := Json.fits_mapValues fun e he => (sets.values e he).fits
  have madeFit : (Generators.toJson (p.generators.getD [])).Fits (k + 1) := Json.fits_mapValues made.values
  rw [toJson_eq]
  exact .obj (List.forall_mem_cons.2 ⟨Json.fits_ofUInt64 _ index,
    List.forall_mem_cons.2 ⟨setsFit, List.forall_mem_singleton.2 madeFit⟩⟩)

end

/-- The particulars of a rule without variants are scalars. -/
theorem Rule.sound {n : Nat} (levels : 0 < n) {r : Rule} (other : ∀ variants, r ≠ .arrayContains variants) :
    r.Sound n := by
  refine ⟨?_, .plain other⟩
  obtain ⟨m, rfl⟩ := Nat.exists_eq_add_one.2 levels
  rw [toJson_eq]
  refine .obj (List.forall_mem_cons.2 ⟨.str _, fun e he => ?_⟩)
  cases r with
  | arrayContains variants => exact absurd rfl (other variants)
  | type min max =>
    cases min <;> cases max <;> simp [details, optionalMember] at he <;> rcases he with rfl | rfl <;>
      exact Json.fits_ofUInt64 m _
  | regex | includes | moment =>
    rw [List.mem_singleton.1 he]
    exact .str _
  | integer | decimal | null | equality | values => cases he

/-- The induction is on the levels that the reader may go down, one for each array of variants. -/
theorem Rule.ensures_decodeFrom (levels : Nat) (held : Bool) : Ensures (decodeFrom levels held) Sound := by
  induction levels generalizing held with
  | zero =>
    intro n s r fits reads
    cases reads
  | succ levels ih =>
    intro n s r fits reads
    rw [decodeFrom] at reads
    split at reads
    next => cases reads
    next kind body tagged =>
      obtain ⟨some, inside⟩ := ensures_tagged held _ _ fits tagged
      cases kind with
      | arrayContains =>
        obtain ⟨variants, read, rfl⟩ := map_eq_ok_iff.1 reads
        obtain ⟨m, rfl, k, rfl, sound⟩ :=
          (Variant.ensures_decodeWith (ih true) true).list.single true "variants" inside read
        constructor
        · rw [toJson, variantsJson_eq]
          have variantsFit := Json.fits_map fun v hv => (sound v hv).fits
          exact .obj (List.forall_mem_cons.2 ⟨.str _, List.forall_mem_singleton.2 variantsFit⟩)
        · exact .arrayContains (fun v hv => (sound v hv).rules) (fun v hv => (sound v hv).generators)
            fun v hv e he r hr => (sound v hv).inside e he r hr
      | _ =>
        obtain ⟨x, -, rfl⟩ := map_eq_ok_iff.1 reads
        refine sound some ?_
        intro variants same
        cases same

/-- A rule that is read is sound. -/
theorem Rule.ensures_decode (held : Bool) : Ensures (decode held) Sound := by
  intro n s r fits reads
  exact ensures_decodeFrom (s.height + 1) held fits reads

theorem RuleSet.ensures_decode (held : Bool) : Ensures (decode held) Sound :=
  ensures_decodeWith (Rule.ensures_decode held) held false

end ConsumerContract
