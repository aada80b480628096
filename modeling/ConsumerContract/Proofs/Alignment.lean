import ConsumerContract.Path.Reader
import ConsumerContract.Proofs.Exactness

/-!
# The paths of a resolution lead into its body

The body is built on the way back up from the places that the paths name on the way down, so each path
leads to the sample of the matcher that it belongs to. `Json.At` says what a list of segments may lead
to; a path that goes through "any item" or "any value" may lead to several values.

The variants of an array are resolved by themselves, so their paths lead into their own examples, the
items of the array: `Template.Aligned` says so at every depth.
-/

namespace ConsumerContract

/-! ### Where segments lead -/

/-- `segments` may lead from one value to the other. -/
inductive Json.At : Json → List Segment → Json → Prop where
  | here (v : Json) : At v [] v
  | field {members name v s w} : Dict.get? name members = some v → At v s w →
      At (.obj members) (.field name :: s) w
  | anyValue {members : List (String × Json)} {e s w} : e ∈ members → At e.2 s w →
      At (.obj members) (.anyValue :: s) w
  | index {items : List Json} {i v s w} : items[i]? = some v → At v s w →
      At (.arr items) (.index i :: s) w
  | anyItem {items : List Json} {v s w} : v ∈ items → At v s w → At (.arr items) (.anyItem :: s) w

/-- Segments that may lead to some value do lead somewhere. -/
theorem Json.At.leads {v w : Json} {s : List Segment} (h : v.At s w) : Path.leads s v = true := by
  induction h with
  | here v => rfl
  | field found _ ih => rw [Path.leads, found]; exact ih
  | anyValue found _ ih =>
    rw [Path.leads]
    exact List.any_eq_true.2 ⟨_, found, ih⟩
  | index found _ ih => rw [Path.leads, found]; exact ih
  | anyItem found _ ih =>
    rw [Path.leads]
    exact List.any_eq_true.2 ⟨_, found, ih⟩

namespace Template

theorem sampleItems_eq (items : List Template) : sampleItems items = items.map sample := by
  induction items with
  | nil => rfl
  | cons t rest ih => rw [sampleItems, ih, List.map_cons]

theorem sampleFields_eq (fields : List (String × Template)) :
    sampleFields fields = Dict.mapValues sample fields := by
  induction fields with
  | nil => rfl
  | cons e rest ih =>
    obtain ⟨name, t⟩ := e
    rw [sampleFields, ih]
    rfl

/-- The sample of an item stands at the item's index. -/
theorem getElem?_sampleItems {items : List Template} {i : Nat} {t : Template}
    (h : items[i]? = some t) : (sampleItems items)[i]? = some t.sample := by
  rw [sampleItems_eq, List.getElem?_map, h]
  rfl

/-- The sample of a field stands under the field's name. -/
theorem get?_sampleFields {fields : List (String × Template)} {name : String} {t : Template}
    (h : Dict.get? name fields = some t) : Dict.get? name (sampleFields fields) = some t.sample := by
  rw [sampleFields_eq, Dict.get?_mapValues, h]
  rfl

theorem mem_replicate_of_one_le {n : UInt64} (h : 1 ≤ n) (v : Json) :
    v ∈ List.replicate n.toNat v := by
  have some : 1 ≤ n.toNat := UInt64.le_iff_toNat_le.1 h
  exact List.mem_replicate.2 ⟨by omega, rfl⟩

/-- The segments of a position lead from the example to the sample of the matcher there. -/
theorem HoldsAt.sample_at {t : Template} {s : List Segment} {m : Matcher} (found : t.HoldsAt s m)
    (wf : t.WellFormed) (asks : t.Everywhere AsksForItem) : t.sample.At s m.sample := by
  induction found with
  | here m => exact .here _
  | like _ ih | equality _ ih => exact ih wf.2 asks.2
  | repeated _ ih => exact .anyItem (mem_replicate_of_one_le asks.1 _) (ih wf.2 asks.2)
  | @bounded content s m min max _ ih =>
    have some : 1 ≤ Matcher.repetitions min max := UInt64.le_trans asks.1 (le_repetitions min max)
    exact .anyItem (mem_replicate_of_one_le some _) (ih wf.2 asks.2)
  | eachKeyLike _ ih => exact .anyValue List.mem_cons_self (ih wf.2 asks.2)
  | record ht _ ih | object ht _ ih =>
    have inside := ih (everyField_iff.1 wf.2 _ ht) (everyField_iff.1 asks.2 _ ht)
    exact .field (get?_sampleFields (Dict.get?_of_mem wf.1 ht)) inside
  | array ht _ ih =>
    have hmem := List.mem_of_getElem? ht
    have inside := ih (everyItem_iff.1 wf.2 _ hmem) (everyItem_iff.1 asks.2 _ hmem)
    exact .index (getElem?_sampleItems ht) inside

/-- The path of a position leads to the sample of the matcher there. -/
theorem HoldsAt.resolves {t : Template} {s : List Segment} {m : Matcher} (found : t.HoldsAt s m)
    (wf : t.WellFormed) (asks : t.Everywhere AsksForItem) (places : t.Everywhere IsAddressable) :
    Path.resolves t.sample (Path.render Path.root s) = true := by
  have readable : Path.AreReadable s := fun i hi => Nat.le_pred_of_lt (found.isReal places _ hi)
  exact Path.resolves_render_iff.2 ⟨readable, (found.sample_at wf asks).leads⟩

/-! ### Alignment -/

open ConsumerContract.Path (resolves render root)

mutual

/-- Every path leads into the example of the template, and so on in the variants. -/
inductive Aligned : Template → List (String × RuleSet) → Generators → Prop where
  | intro {t sets generators} :
      (∀ path, Dict.has path sets = true → resolves t.sample path = true) →
      (∀ path, Dict.has path generators = true → resolves t.sample path = true) →
      (∀ path (set : RuleSet) variants, (path, set) ∈ sets →
        Rule.arrayContains variants ∈ set.matchers → AlignedVariants t path variants) →
      Aligned t sets generators

/-- The variants at `path` belong to the items of an array that the path leads to: the paths of each
lead into the item at its index. -/
inductive AlignedVariants : Template → String → List Variant → Prop where
  | intro {t : Template} {variants : List Variant} (s : List Segment) (items : List Template) :
      t.HoldsAt s (.arrayContaining items) →
      t.sample.At s (.arr (sampleItems items)) →
      variants.length = items.length →
      (∀ (i : Nat) v, variants[i]? = some v → v.index = UInt64.ofNat i) →
      (∀ (i : Nat) u, items[i]? = some u → (sampleItems items)[i]? = some u.sample) →
      (∀ (i : Nat) v u, variants[i]? = some v → items[i]? = some u → Aligned u v.rules v.generators) →
      AlignedVariants t (render root s) variants

end

/-- The variant at an index is the resolution of the item there, by itself. -/
theorem getElem?_resolvedVariants {items : List Template} {i : Nat} {v : Variant} {u : Template}
    (hv : (resolvedVariants items)[i]? = some v) (hu : items[i]? = some u) :
    v = ⟨UInt64.ofNat i, (u.resolveUnchecked root).value.rules.ruleSets,
      (u.resolveUnchecked root).value.generators⟩ := by
  rw [resolvedVariants, List.getElem?_mapIdx, hu] at hv
  exact (Option.some.inj hv).symm

theorem index_resolvedVariants {items : List Template} {i : Nat} {v : Variant}
    (hv : (resolvedVariants items)[i]? = some v) : v.index = UInt64.ofNat i := by
  rw [resolvedVariants, List.getElem?_mapIdx] at hv
  obtain ⟨u, _, rfl⟩ := Option.map_eq_some_iff.1 hv
  rfl

/-- The rules of a resolution stand alone in their sets. -/
theorem get?_of_mem_ruleSets {t : Template} {path : String} {set : RuleSet} {rule : Rule}
    (h : (path, set) ∈ (t.resolveUnchecked root).value.rules.ruleSets) (hr : rule ∈ set.matchers) :
    Dict.get? path (t.resolveUnchecked root).value.rules = some rule := by
  obtain ⟨⟨place, alone⟩, stored, same⟩ := List.mem_map.1 h
  obtain ⟨rfl, rfl⟩ := Prod.mk.inj same
  obtain rfl := List.mem_singleton.1 hr
  exact Dict.get?_of_mem (Dict.ordered_ofList _) stored

/-- Rule sets stand at the paths of the rules. -/
theorem has_ruleSets (rules : Rules) (path : String) :
    Dict.has path rules.ruleSets = Dict.has path rules := by
  rw [Dict.has, Rules.ruleSets, Dict.get?_mapValues, Option.isSome_map, Dict.has]

/-- A resolution is aligned with its template. The induction is on the size of the template: a variant
is smaller than the array that holds it. -/
theorem aligned (t : Template) (wf : t.WellFormed) (asks : t.Everywhere AsksForItem)
    (places : t.Everywhere IsAddressable) :
    t.Aligned (t.resolveUnchecked root).value.rules.ruleSets
      (t.resolveUnchecked root).value.generators := by
  have shown : t.ShowsNames := .of_everywhere places
  refine .intro ?rules ?generators ?variants
  case rules =>
    intro path stored
    rw [has_ruleSets] at stored
    obtain ⟨s, m, found, _, rfl⟩ := (has_rules_iff shown).1 stored
    exact found.resolves wf asks places
  case generators =>
    intro path stored
    obtain ⟨s, m, found, _, rfl⟩ := (has_generators_iff shown).1 stored
    exact found.resolves wf asks places
  case variants =>
    intro path set variants stored listed
    have rule := get?_of_mem_ruleSets stored listed
    obtain ⟨s, items, ⟨found, _⟩, rfl, rfl⟩ := exists_of_get?_arrayContains wf shown rule
    have smaller := sizeOf_le_of_holdsAt found
    have wfItems := everyItem_iff.1 (wf.of_holdsAt found).2
    have asksItems := everyItem_iff.1 (asks.of_holdsAt found).2
    have placesItems := everyItem_iff.1 (places.of_holdsAt found).2
    refine .intro s items found (found.sample_at wf asks) ?_
      (fun _ _ => index_resolvedVariants) (fun _ _ => getElem?_sampleItems) ?_
    · rw [resolvedVariants, List.length_mapIdx]
    · intro i v u hv hu
      have hmem := List.mem_of_getElem? hu
      have : sizeOf u < sizeOf t := by
        have := List.sizeOf_lt_of_mem hmem
        simp at smaller
        omega
      rw [getElem?_resolvedVariants hv hu]
      exact aligned u (wfItems u hmem) (asksItems u hmem) (placesItems u hmem)
termination_by sizeOf t

/-- Where every array of one shape has an item and every field and item has a segment of its own, all
paths of a resolution lead into its body, and those of variants into their examples. -/
theorem resolveUnchecked_aligned {t : Template} (wf : t.WellFormed)
    (asks : t.Everywhere AsksForItem) (places : t.Everywhere IsAddressable) :
    let r := (t.resolveUnchecked root).value
    r.body = t.sample ∧
      (∀ path, Dict.has path r.rules = true → resolves r.body path = true) ∧
      (∀ path, Dict.has path r.generators = true → resolves r.body path = true) ∧
      t.Aligned r.rules.ruleSets r.generators := by
  intro r
  have body : r.body = t.sample := t.walk_fst root
  have whole : t.Aligned r.rules.ruleSets r.generators := aligned t wf asks places
  have ⟨rules, generators, _⟩ := whole
  refine ⟨body, ?_, ?_, whole⟩
  · intro path stored
    rw [body]
    exact rules path ((has_ruleSets r.rules path).trans stored)
  · intro path stored
    rw [body]
    exact generators path stored

/-- An array of variants below a name that looks like "any value". -/
theorem resolveUnchecked_aligned_star :
    ∃ t, t = Template.object [("*", .matcher (.arrayContaining
        [.literal .null, .matcher (.repeated (.matcher (.integer 1)) 2)]))] ∧
      (t.resolveUnchecked root).value.rules = [("$['*']", .arrayContains
        [⟨0, [], []⟩, ⟨1, [("$", (Rule.minType 2).alone), ("$[*]", Rule.integer.alone)], []⟩])] ∧
      t.Aligned (t.resolveUnchecked root).value.rules.ruleSets [] := by
  refine ⟨_, rfl, by rfl, ?_⟩
  refine (resolveUnchecked_aligned ?wf ?asks ?places).2.2.2
  case wf =>
    exact ⟨Dict.ordered_singleton _,
      ⟨trivial, trivial, ⟨trivial, trivial, trivial⟩, trivial⟩, trivial⟩
  case asks =>
    have two : (1 : UInt64) ≤ 2 := by decide
    exact ⟨trivial, ⟨trivial, trivial, ⟨two, trivial, trivial⟩, trivial⟩, trivial⟩
  case places =>
    refine ⟨fun e he => ?_, ⟨trivial, trivial, ⟨trivial, trivial, trivial⟩, trivial⟩, trivial⟩
    obtain rfl := List.mem_singleton.1 he
    decide

end Template

end ConsumerContract
