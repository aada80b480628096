import ConsumerContract.Proofs.Refusals
import ConsumerContract.Proofs.Templates
import ConsumerContract.Resolution

/-!
# Validation of templates

Validation looks at marker JSON, not at the template. Every matcher shows in it, whatever names and
literals stand around it (`Template.refusedWords_subset`): its own object holds a marker that nothing
overwrites, and its content stands in that object at least once, for an array of one shape asks for at least
one item. Where nothing but a matcher looks like one, nothing else shows, and the words that are found are
those of the matchers in their order (`Template.noteAll_refusals`).
-/

namespace ConsumerContract

/-! ### All matchers of a template -/

mutual

/-- All matchers of the template, those of variants included: each before what it holds, fields and
items in their order. -/
def Template.matchers : Template → List Matcher
  | .literal _ => []
  | .object fields => Template.fieldMatchers fields
  | .array items => Template.itemMatchers items
  | .matcher m => m :: m.held

/-- All matchers inside a matcher. -/
def Matcher.held : Matcher → List Matcher
  | .like content | .equality content => content.matchers
  | .repeated content _ | .bounded content _ _ => content.matchers
  | .eachKeyLike _ content => content.matchers
  | .arrayContaining variants => Template.itemMatchers variants
  | .record fields => Template.fieldMatchers fields
  | .regex .. | .integer _ | .decimal _ | .null | .includes _ => []
  | .fromProviderState .. | .moment .. => []

/-- All matchers in items. -/
def Template.itemMatchers : List Template → List Matcher
  | [] => []
  | t :: rest => t.matchers ++ Template.itemMatchers rest

/-- All matchers in fields. -/
def Template.fieldMatchers : List (String × Template) → List Matcher
  | [] => []
  | (_, t) :: rest => t.matchers ++ Template.fieldMatchers rest

end

namespace Validation

/-- The comparisons of matchers that `version` cannot express, one for each such matcher. -/
def refusedWords (version : Version) (matchers : List Matcher) : List String :=
  matchers.filterMap (·.kind.refusal? version)

theorem refusedWords_cons (version : Version) (m : Matcher) (rest : List Matcher) :
    refusedWords version (m :: rest) =
      (m.kind.refusal? version).toList ++ refusedWords version rest := by
  rw [refusedWords, List.filterMap_cons]
  cases m.kind.refusal? version <;> rfl

theorem refusedWords_append (version : Version) (as bs : List Matcher) :
    refusedWords version (as ++ bs) = refusedWords version as ++ refusedWords version bs :=
  List.filterMap_append
end Validation

/-! ### Matchers show in marker JSON -/

/-- The value of the member of the matcher's object that may hold more matchers. -/
def Matcher.core : Matcher → Json
  | .like content | .equality content => content.marker.canonical
  | .repeated content min => .arr (List.replicate min.toNat content.marker.canonical)
  | .bounded content min max =>
    .arr (List.replicate (Matcher.repetitions min max).toNat content.marker.canonical)
  | .eachKeyLike key content => .obj [(key, content.marker.canonical)]
  | .arrayContaining variants => (Json.arr (Template.markItems variants)).canonical
  | .record fields => (Json.obj (Template.markFields fields)).canonical
  | .fromProviderState _ sample => sample.canonical
  | .regex .. | .integer _ | .decimal _ | .null | .includes _ | .moment .. => .null

theorem Json.canonicalItems_replicate (n : Nat) (v : Json) :
    canonicalItems (List.replicate n v) = List.replicate n v.canonical := by
  induction n with
  | zero => rfl
  | succ n ih => rw [List.replicate_succ, canonicalItems, ih, List.replicate_succ]
open Validation in
/-- Each matcher shows in its own object, and so does what it holds. -/
theorem Matcher.refusals_marker (version : Version) (m : Matcher) :
    refusals version m.marker.canonical =
      (m.kind.refusal? version).toList ++ refusals version m.core := by
  have alone (kind : MatcherKind) (v : Json) :
      refusals version (.obj (Dict.ofList (Marker.opening kind ++ [] ++ [("value", v)]))) =
        (kind.refusal? version).toList ++ refusals version v :=
    refusals_opening version kind .nil "value" v (by decide)
  cases m with
  | like content | equality content => exact alone _ content.marker.canonical
  | integer sample => exact alone _ (.int sample.toInt)
  | includes part => exact alone _ (.str part)
  | eachKeyLike key content => exact alone _ (.obj [(key, content.marker.canonical)])
  | arrayContaining variants =>
    exact refusals_opening version .arrayContaining .nil "variants"
      (Json.arr (Template.markItems variants)).canonical (by decide)
  | decimal sample =>
    have scalar : IsScalar (Json.float sample).canonical := by
      rw [Json.float]
      split <;> trivial
    exact (alone .decimal _).trans (congrArg _ (refusals_scalar scalar version))
  | null =>
    have named := refusal?_opening version .null fun e he => (Particulars.nil.of_mem e he).1
    have scalars := memberRefusals_scalars (isScalar_of_mem_opening .null .nil) version
    rw [List.append_nil] at named scalars
    exact (congrArg (_ ++ ·) scalars).trans (congrArg (Option.toList · ++ []) named)
  | regex sample pattern =>
    have plain : Particulars [("value", .str sample)] := .cons (by decide) trivial .nil
    exact refusals_opening version .regex plain "regex" (.str pattern) (by decide)
  | repeated content min =>
    have plain : Particulars [("min", .ofUInt64 min)] := .cons (by decide) trivial .nil
    have shape := refusals_opening version .repeated plain "value"
      (Matcher.repeated content min).core (by decide)
    rw [Matcher.core, ← Json.canonicalItems_replicate] at shape ⊢
    exact shape
  | bounded content min max =>
    have plain : Particulars [("min", .ofUInt64 min), ("max", .ofUInt64 max)] :=
      .cons (by decide) trivial (.cons (by decide) trivial .nil)
    have shape := refusals_opening version .bounded plain "value"
      (Matcher.bounded content min max).core (by decide)
    rw [Matcher.core, ← Json.canonicalItems_replicate] at shape ⊢
    exact shape
  | fromProviderState expression sample =>
    have plain : Particulars
        [(Marker.generatorKey, .str "ProviderState"), ("expression", .str expression)] :=
      .cons (by decide) trivial (.cons (by decide) trivial .nil)
    exact refusals_opening version .fromProviderState plain "value" sample.canonical (by decide)
  | moment kind sample format =>
    have plain : Particulars
        [(Marker.generatorKey, .str (Generator.moment kind format).word), ("format", .str format)] :=
      .cons (by decide) trivial (.cons (by decide) trivial .nil)
    exact refusals_opening version (.moment kind) plain "value" (.str sample) (by decide)
  | record fields =>
    rw [MatcherKind.refusal?_of_since rfl]
    rfl

open Validation

namespace Template

theorem markItems_eq (items : List Template) : markItems items = items.map marker := by
  induction items with
  | nil => rfl
  | cons t rest ih => rw [markItems, ih, List.map_cons]

theorem markFields_eq (fields : List (String × Template)) :
    markFields fields = Dict.mapValues marker fields := by
  induction fields with
  | nil => rfl
  | cons e rest ih =>
    obtain ⟨name, t⟩ := e
    rw [markFields, ih]
    rfl

/-- The members of the object of fields, in canonical form. -/
theorem canonicalMembers_markFields (fields : List (String × Template)) :
    Json.canonicalMembers (markFields fields) = Dict.mapValues (·.marker.canonical) fields := by
  rw [Json.canonicalMembers_eq, markFields_eq, Dict.mapValues, Dict.mapValues, List.map_map]
  rfl

theorem map_fst_markFields (fields : List (String × Template)) :
    (Json.canonicalMembers (markFields fields)).map (·.1) = fields.map (·.1) := by
  rw [canonicalMembers_markFields, Dict.mapValues, List.map_map]
  rfl

/-- Fields in order stay in order as members. -/
theorem canonical_markFields {fields : List (String × Template)} (ordered : Dict.Ordered fields) :
    (Json.obj (markFields fields)).canonical = .obj (Json.canonicalMembers (markFields fields)) := by
  rw [Json.canonical, Dict.ofList_of_ordered (ordered.of_keys (map_fst_markFields fields))]

/-- Marking adds no name to fields. -/
theorem get?_markFields {fields : List (String × Template)} {key : String}
    (h : ∀ e ∈ fields, e.1 ≠ key) :
    Dict.get? key (Json.canonicalMembers (markFields fields)) = none := by
  rw [canonicalMembers_markFields, Dict.get?_mapValues, Dict.get?_eq_none_iff.2 h]
  rfl

end Template

/-- What is refused of an item is refused of an array with one such item or more. -/
theorem Validation.refusals_subset_replicate {version : Version} {n : UInt64} (some : 1 ≤ n) (v : Json) :
    refusals version v ⊆ itemRefusals version (List.replicate n.toNat v) := by
  obtain ⟨k, shape⟩ : ∃ k, n.toNat = k + 1 := Nat.exists_eq_add_of_le' (UInt64.le_iff_toNat_le.1 some)
  rw [shape, List.replicate_succ, itemRefusals]
  exact List.subset_append_left _ _

mutual

/-- Every matcher that `version` cannot express is found, whatever names and literals the template
holds. -/
theorem Template.refusedWords_subset (version : Version) : (t : Template) → t.WellFormed →
    t.Everywhere Template.AsksForItem →
    refusedWords version t.matchers ⊆ refusals version t.marker.canonical
  | .literal _, _, _ => List.nil_subset _
  | .object fields, wf, asks => by
    rw [Template.matchers, Template.marker, Template.canonical_markFields wf.1, refusals]
    exact List.subset_append_of_subset_right _ (Template.refusedFields_subset version fields wf.2 asks.2)
  | .array items, wf, asks => Template.refusedItems_subset version items wf.2 asks.2
  | .matcher m, wf, asks => by
    rw [Template.matchers, refusedWords_cons, Template.marker, m.refusals_marker]
    exact List.append_subset.2 ⟨List.subset_append_left _ _,
      List.subset_append_of_subset_right _ (m.refusedWords_subset version wf asks)⟩

/-- The refusals of all matchers inside a matcher are among those of its marker. -/
theorem Matcher.refusedWords_subset (version : Version) : (m : Matcher) →
    (Template.matcher m).WellFormed → (Template.matcher m).Everywhere Template.AsksForItem →
    refusedWords version m.held ⊆ refusals version m.core
  | .like content, wf, asks | .equality content, wf, asks =>
    content.refusedWords_subset version wf.2 asks.2
  | .repeated content _, wf, asks =>
    List.Subset.trans (content.refusedWords_subset version wf.2 asks.2)
      (refusals_subset_replicate asks.1 _)
  | .bounded content min max, wf, asks =>
    List.Subset.trans (content.refusedWords_subset version wf.2 asks.2)
      (refusals_subset_replicate (UInt64.le_trans asks.1 (Template.le_repetitions min max)) _)
  | .eachKeyLike key content, wf, asks => by
    have inside := content.refusedWords_subset version wf.2 asks.2
    rw [Matcher.held, Matcher.core, refusals, memberRefusals, memberRefusals, List.append_nil]
    exact List.subset_append_of_subset_right _ inside
  | .arrayContaining variants, wf, asks => Template.refusedItems_subset version variants wf.2 asks.2
  | .record fields, wf, asks => by
    rw [Matcher.held, Matcher.core, Template.canonical_markFields wf.1, refusals]
    exact List.subset_append_of_subset_right _ (Template.refusedFields_subset version fields wf.2 asks.2)
  | .regex .., _, _ | .integer _, _, _ | .decimal _, _, _ | .null, _, _ | .includes _, _, _ =>
    List.nil_subset _
  | .fromProviderState .., _, _ | .moment .., _, _ => List.nil_subset _

theorem Template.refusedItems_subset (version : Version) : (items : List Template) →
    Template.EveryItem Template.InOrder items → Template.EveryItem Template.AsksForItem items →
    refusedWords version (Template.itemMatchers items) ⊆
      itemRefusals version (Json.canonicalItems (Template.markItems items))
  | [], _, _ => List.nil_subset _
  | t :: rest, wf, asks => by
    rw [Template.itemMatchers, refusedWords_append, Template.markItems, Json.canonicalItems,
      itemRefusals]
    exact List.append_subset.2
      ⟨List.subset_append_of_subset_left _ (t.refusedWords_subset version wf.1 asks.1),
        List.subset_append_of_subset_right _ (Template.refusedItems_subset version rest wf.2 asks.2)⟩

theorem Template.refusedFields_subset (version : Version) : (fields : List (String × Template)) →
    Template.EveryField Template.InOrder fields → Template.EveryField Template.AsksForItem fields →
    refusedWords version (Template.fieldMatchers fields) ⊆
      memberRefusals version (Json.canonicalMembers (Template.markFields fields))
  | [], _, _ => List.nil_subset _
  | (_, t) :: rest, wf, asks => by
    rw [Template.fieldMatchers, refusedWords_append, Template.markFields, Json.canonicalMembers,
      memberRefusals]
    exact List.append_subset.2
      ⟨List.subset_append_of_subset_left _ (t.refusedWords_subset version wf.1 asks.1),
        List.subset_append_of_subset_right _ (Template.refusedFields_subset version rest wf.2 asks.2)⟩

end

/-- The value is no object with a member of the name of the version marker. -/
def Json.LacksMarker : Json → Prop
  | .obj members => Dict.get? Marker.versionKey members = none
  | _ => True

/-- Nothing but a matcher looks like one: no field has the name of the version marker, and no object in
a literal has a member of that name. -/
def Template.AvoidsMarker : Template → Prop
  | .object fields | .matcher (.record fields) => ∀ e ∈ fields, e.1 ≠ Marker.versionKey
  | .matcher (.eachKeyLike key _) => key ≠ Marker.versionKey
  | .literal value | .matcher (.fromProviderState _ value) => value.Everywhere Json.LacksMarker
  | _ => True

namespace Validation

/-- An object that names no version is not refused. -/
theorem refusal?_of_get?_eq_none {members : List (String × Json)}
    (h : Dict.get? Marker.versionKey members = none) (version : Version) :
    refusal? version members = none := by
  rw [refusal?, h]
  rfl

/-- A value without markers is not refused. -/
theorem refusals_of_lacksMarker {v : Json} (ordered : v.Everywhere Json.InOrder)
    (h : v.Everywhere Json.LacksMarker) (version : Version) : refusals version v.canonical = [] := by
  rw [Json.canonical_of_inOrder v ordered, refusals_eq_nil_iff]
  apply Json.Everywhere.imp _ v h
  intro w lacks
  cases w with
  | obj members => exact refusal?_of_get?_eq_none lacks version
  | _ => trivial

/-- Of many equal items the first has noted all. -/
theorem noteAll_replicate {version : Version} {n : UInt64} (some : 1 ≤ n) (v : Json)
    (found : List String) :
    noteAll found (itemRefusals version (List.replicate n.toNat v)) =
      noteAll found (refusals version v) := by
  obtain ⟨k, shape⟩ : ∃ k, n.toNat = k + 1 := Nat.exists_eq_add_of_le' (UInt64.le_iff_toNat_le.1 some)
  rw [shape]
  clear shape some
  induction k generalizing found with
  | zero => rw [List.replicate_succ, itemRefusals, List.replicate_zero, itemRefusals, List.append_nil]
  | succ k ih => rw [List.replicate_succ, itemRefusals, noteAll_append, ih, noteAll_noteAll]

end Validation

mutual

/-- Where nothing but a matcher looks like one, the words that a scan notes are those of the matchers,
in the same order of first occurrence. -/
theorem Template.noteAll_refusals (version : Version) : (t : Template) → t.WellFormed →
    t.Everywhere Template.AsksForItem → t.Everywhere Template.AvoidsMarker → (found : List String) →
    noteAll found (refusals version t.marker.canonical) =
      noteAll found (refusedWords version t.matchers)
  | .literal _, wf, _, avoids, found =>
    congrArg (noteAll found) (refusals_of_lacksMarker wf avoids version)
  | .object fields, wf, asks, avoids, found => by
    have unmarked := refusal?_of_get?_eq_none (Template.get?_markFields avoids.1) version
    rw [Template.matchers, Template.marker, Template.canonical_markFields wf.1, refusals, unmarked]
    exact Template.noteAll_fieldRefusals version fields wf.2 asks.2 avoids.2 found
  | .array items, wf, asks, avoids, found =>
    Template.noteAll_itemRefusals version items wf.2 asks.2 avoids.2 found
  | .matcher m, wf, asks, avoids, found => by
    rw [Template.matchers, refusedWords_cons, Template.marker, m.refusals_marker, noteAll_append,
      noteAll_append, m.noteAll_refusals version wf asks avoids]

/-- Noting the refusals of a marker notes those of the matchers inside. -/
theorem Matcher.noteAll_refusals (version : Version) : (m : Matcher) →
    (Template.matcher m).WellFormed → (Template.matcher m).Everywhere Template.AsksForItem →
    (Template.matcher m).Everywhere Template.AvoidsMarker → (found : List String) →
    noteAll found (refusals version m.core) = noteAll found (refusedWords version m.held)
  | .like content, wf, asks, avoids, found | .equality content, wf, asks, avoids, found =>
    content.noteAll_refusals version wf.2 asks.2 avoids.2 found
  | .repeated content _, wf, asks, avoids, found =>
    (noteAll_replicate asks.1 _ found).trans
      (content.noteAll_refusals version wf.2 asks.2 avoids.2 found)
  | .bounded content min max, wf, asks, avoids, found =>
    (noteAll_replicate (UInt64.le_trans asks.1 (Template.le_repetitions min max)) _ found).trans
      (content.noteAll_refusals version wf.2 asks.2 avoids.2 found)
  | .eachKeyLike key content, wf, asks, avoids, found => by
    have absent : Dict.get? Marker.versionKey [(key, content.marker.canonical)] = none :=
      if_neg (Ne.symm avoids.1)
    have unmarked := refusal?_of_get?_eq_none absent version
    rw [Matcher.held, Matcher.core, refusals, memberRefusals, memberRefusals, List.append_nil, unmarked]
    exact content.noteAll_refusals version wf.2 asks.2 avoids.2 found
  | .arrayContaining variants, wf, asks, avoids, found =>
    Template.noteAll_itemRefusals version variants wf.2 asks.2 avoids.2 found
  | .record fields, wf, asks, avoids, found => by
    have unmarked := refusal?_of_get?_eq_none (Template.get?_markFields avoids.1) version
    rw [Matcher.held, Matcher.core, Template.canonical_markFields wf.1, refusals, unmarked]
    exact Template.noteAll_fieldRefusals version fields wf.2 asks.2 avoids.2 found
  | .fromProviderState _ _, wf, _, avoids, found =>
    congrArg (noteAll found) (refusals_of_lacksMarker wf.1 avoids.1 version)
  | .regex .., _, _, _, _ | .integer _, _, _, _, _ | .decimal _, _, _, _, _ | .null, _, _, _, _
  | .includes _, _, _, _, _ | .moment .., _, _, _, _ => rfl

theorem Template.noteAll_itemRefusals (version : Version) : (items : List Template) →
    Template.EveryItem Template.InOrder items → Template.EveryItem Template.AsksForItem items →
    Template.EveryItem Template.AvoidsMarker items → (found : List String) →
    noteAll found (itemRefusals version (Json.canonicalItems (Template.markItems items))) =
      noteAll found (refusedWords version (Template.itemMatchers items))
  | [], _, _, _, _ => rfl
  | t :: rest, wf, asks, avoids, found => by
    rw [Template.itemMatchers, refusedWords_append, Template.markItems, Json.canonicalItems,
      itemRefusals, noteAll_append, noteAll_append,
      t.noteAll_refusals version wf.1 asks.1 avoids.1,
      Template.noteAll_itemRefusals version rest wf.2 asks.2 avoids.2]

theorem Template.noteAll_fieldRefusals (version : Version) : (fields : List (String × Template)) →
    Template.EveryField Template.InOrder fields → Template.EveryField Template.AsksForItem fields →
    Template.EveryField Template.AvoidsMarker fields → (found : List String) →
    noteAll found (memberRefusals version (Json.canonicalMembers (Template.markFields fields))) =
      noteAll found (refusedWords version (Template.fieldMatchers fields))
  | [], _, _, _, _ => rfl
  | (_, t) :: rest, wf, asks, avoids, found => by
    rw [Template.fieldMatchers, refusedWords_append, Template.markFields, Json.canonicalMembers,
      memberRefusals, noteAll_append, noteAll_append,
      t.noteAll_refusals version wf.1 asks.1 avoids.1,
      Template.noteAll_fieldRefusals version rest wf.2 asks.2 avoids.2]

end

/-! ### Which templates pass -/

/-- Every kind of matcher came with version 2 or 3. -/
theorem MatcherKind.since_eq_v2_or_v3 (kind : MatcherKind) : kind.since = .v2 ∨ kind.since = .v3 := by
  cases kind <;> simp [since]

/-- Version 2 refuses the kinds that came with version 3. -/
theorem MatcherKind.refusal?_v2 (kind : MatcherKind) :
    kind.refusal? .v2 = if kind.since = .v3 then some kind.comparison else none := by
  rcases kind.since_eq_v2_or_v3 with h | h <;> rw [refusal?, h] <;> rfl

/-- Version 3 expresses every matcher, and so does version 4. -/
theorem MatcherKind.refusal?_of_ne_v2 (kind : MatcherKind) {version : Version} (late : version ≠ .v2) :
    kind.refusal? version = none := by
  have newest : ¬ version < .v3 := by
    cases version with
    | v2 => exact absurd rfl late
    | v3 | v4 => decide
  rcases kind.since_eq_v2_or_v3 with h | h
  · exact refusal?_of_since h version
  · rw [refusal?, h, if_neg newest]

namespace Template

/-- Validation fails with all that is refused, if anything is. -/
theorem result_validate (version : Version) (t : Template) :
    (t.validate version).result =
      if refusals version t.marker.canonical = [] then .ok ()
      else .error (.specificationMismatch version (refusals version t.marker.canonical).eraseDups) :=
  result_check version _

/-- A template passes exactly if every object in its marker does. -/
theorem validate_eq_ok_iff {version : Version} {t : Template} :
    (t.validate version).result = .ok () ↔ t.marker.canonical.Everywhere (Passes version) := by
  rw [result_validate, ← refusals_eq_nil_iff]
  split <;> simp [*]

/-- What a version accepts every later one accepts. -/
theorem validate_mono {version later : Version} (order : ¬ later < version) {t : Template}
    (h : (t.validate version).result = .ok ()) : (t.validate later).result = .ok () :=
  validate_eq_ok_iff.2 (Json.Everywhere.imp (fun _ => Passes.mono order) _ (validate_eq_ok_iff.1 h))

/-- Resolution fails exactly as validation does. -/
theorem result_resolve (version : Version) (root : String) (t : Template) :
    (t.resolve version root).result =
      (t.validate version).result.map fun _ => (t.resolveUnchecked root).value := by
  rw [resolve, Attempt.result_bind]
  cases (t.validate version).result <;> rfl

/-- Resolution succeeds with what it gives unchecked, if the template is valid. -/
theorem resolve_eq_ok_iff {t : Template} {version : Version} {root : String} {r : Resolution} :
    (t.resolve version root).result = .ok r ↔
      (t.validate version).result = .ok () ∧ r = (t.resolveUnchecked root).value := by
  rw [result_resolve]
  cases (t.validate version).result <;> simp [Except.map, eq_comm]

/-- No matcher of a template that passes is too new, whatever names and literals the template holds. -/
theorem refusal?_of_validate {version : Version} {t : Template} (wf : t.WellFormed)
    (asks : t.Everywhere AsksForItem) (h : (t.validate version).result = .ok ()) :
    ∀ m ∈ t.matchers, m.kind.refusal? version = none := by
  have nothing : refusals version t.marker.canonical = [] :=
    (refusals_eq_nil_iff version _).2 (validate_eq_ok_iff.1 h)
  have found := t.refusedWords_subset version wf asks
  rw [nothing, List.subset_nil, refusedWords, List.filterMap_eq_nil_iff] at found
  exact found

/-- The comparisons of the matchers that version 2 cannot express, each once, in the order in which they
first occur. -/
def newComparisons (t : Template) : List String :=
  ((t.matchers.filter fun m => m.kind.since = .v3).map (·.kind.comparison)).eraseDups

/-- Version 2 refuses the comparisons that came with version 3, in turn. -/
theorem refusedWords_v2 (matchers : List Matcher) :
    refusedWords .v2 matchers =
      (matchers.filter fun m => m.kind.since = .v3).map (·.kind.comparison) := by
  induction matchers with
  | nil => rfl
  | cons m rest ih =>
    rw [refusedWords_cons, ih, m.kind.refusal?_v2]
    by_cases new : m.kind.since = .v3 <;> simp [new]

/-- Later versions refuse nothing. -/
theorem refusedWords_of_ne_v2 {version : Version} (late : version ≠ .v2) (matchers : List Matcher) :
    refusedWords version matchers = [] :=
  List.filterMap_eq_nil_iff.2 fun m _ => m.kind.refusal?_of_ne_v2 late

/-- There is no new comparison exactly if no matcher came with version 3. -/
theorem newComparisons_eq_nil_iff {t : Template} :
    t.newComparisons = [] ↔ ∀ m ∈ t.matchers, m.kind.since ≠ .v3 := by
  rw [newComparisons, eraseDups_eq_nil_iff, List.map_eq_nil_iff, List.filter_eq_nil_iff]
  simp

/-- Where nothing but a matcher looks like one, the report of version 2 names the matchers that are too
new. -/
theorem eraseDups_refusals {t : Template} (wf : t.WellFormed) (asks : t.Everywhere AsksForItem)
    (avoids : t.Everywhere AvoidsMarker) (version : Version) :
    (refusals version t.marker.canonical).eraseDups = (refusedWords version t.matchers).eraseDups := by
  rw [← noteAll_start, ← noteAll_start]
  exact t.noteAll_refusals version wf asks avoids []

/-- Where nothing but a matcher looks like one, validation refuses exactly the matchers that are too new
for the version: none from version 3 on, and for version 2 all that need version 3, each comparison named
once. Resolution fails exactly when validation does. -/
theorem validate_exact {t : Template} (wf : t.WellFormed) (asks : t.Everywhere AsksForItem)
    (avoids : t.Everywhere AvoidsMarker) :
    (∀ version, version ≠ .v2 → (t.validate version).result = .ok ()) ∧
      ((t.validate .v2).result = .ok () ↔ ∀ m ∈ t.matchers, m.kind.since ≠ .v3) ∧
      (∀ e, (t.validate .v2).result = .error e ↔
        (∃ m ∈ t.matchers, m.kind.since = .v3) ∧
          e = .specificationMismatch .v2 t.newComparisons) ∧
      ∀ version root e, (t.resolve version root).result = .error e ↔
        (t.validate version).result = .error e := by
  have late : ∀ version, version ≠ .v2 → (t.validate version).result = .ok () := by
    intro version late
    have same := eraseDups_refusals wf asks avoids version
    rw [refusedWords_of_ne_v2 late, List.eraseDups_nil, eraseDups_eq_nil_iff] at same
    rw [result_validate, if_pos same]
  have early : (t.validate .v2).result =
      if t.newComparisons = [] then .ok ()
      else .error (.specificationMismatch .v2 t.newComparisons) := by
    have same : (refusals .v2 t.marker.canonical).eraseDups = t.newComparisons := by
      rw [eraseDups_refusals wf asks avoids, refusedWords_v2]
      rfl
    rw [result_validate, same]
    by_cases none : refusals .v2 t.marker.canonical = []
    · rw [if_pos none, if_pos (same.symm.trans (eraseDups_eq_nil_iff.2 none))]
    · rw [if_neg none, if_neg fun empty => none (eraseDups_eq_nil_iff.1 (same.trans empty))]
  refine ⟨late, ?accepted, ?refused, ?resolved⟩
  case accepted =>
    rw [early, ← newComparisons_eq_nil_iff]
    split <;> simp [*]
  case refused =>
    intro e
    have some : (∃ m ∈ t.matchers, m.kind.since = .v3) ↔ t.newComparisons ≠ [] := by
      rw [ne_eq, newComparisons_eq_nil_iff]
      simp
    rw [early, some]
    split
    next none => simp [none]
    next filled => simp [filled, eq_comm]
  case resolved =>
    intro version root e
    rw [result_resolve]
    cases (t.validate version).result <;> simp [Except.map]

/-- A bounded array of integers, and an array of variants of which one is a map of integers: four
comparisons, `integer` named once. -/
theorem validate_exact_variants :
    let t : Template := .object
      [("a", .matcher (.bounded (.matcher (.integer 7)) 2 3)),
       ("b", .matcher (.arrayContaining
         [.literal (.obj [(Marker.comparisonKey, .str "date")]),
          .matcher (.eachKeyLike "key" (.matcher (.integer 1)))]))]
    t.WellFormed ∧ t.Everywhere AsksForItem ∧ t.Everywhere AvoidsMarker ∧
      (t.validate .v3).result = .ok () ∧
      (t.validate .v2).result =
        .error (.specificationMismatch .v2 ["type", "integer", "arrayContains", "values"]) := by
  intro t
  have wf : t.WellFormed := by
    have fields : Dict.Ordered [("a", Template.matcher (.bounded (.matcher (.integer 7)) 2 3)),
        ("b", .matcher (.arrayContaining [.literal (.obj [(Marker.comparisonKey, .str "date")]),
          .matcher (.eachKeyLike "key" (.matcher (.integer 1)))]))] :=
      Dict.ordered_cons.2 ⟨List.forall_mem_singleton.2 (by decide), Dict.ordered_singleton _⟩
    exact ⟨fields, ⟨trivial, trivial, trivial⟩,
      ⟨trivial, ⟨Dict.ordered_singleton _, trivial, trivial⟩, ⟨trivial, trivial, trivial⟩, trivial⟩,
      trivial⟩
  have asks : t.Everywhere AsksForItem := by
    have two : (1 : UInt64) ≤ 2 := by decide
    exact ⟨trivial, ⟨two, trivial, trivial⟩, ⟨trivial, trivial, ⟨trivial, trivial, trivial⟩, trivial⟩,
      trivial⟩
  have avoids : t.Everywhere AvoidsMarker := by
    refine ⟨?names, ⟨trivial, trivial, trivial⟩,
      ⟨trivial, ⟨?members, trivial, trivial⟩, ⟨?key, trivial, trivial⟩, trivial⟩, trivial⟩
    case names =>
      exact List.forall_mem_cons.2 ⟨by decide, List.forall_mem_singleton.2 (by decide)⟩
    case members => rfl
    case key => exact (by decide : "key" ≠ Marker.versionKey)
  obtain ⟨late, _, refused, _⟩ := validate_exact wf asks avoids
  have new : ∃ m ∈ t.matchers, m.kind.since = .v3 := ⟨_, List.mem_cons_self, rfl⟩
  exact ⟨wf, asks, avoids, late .v3 (by decide), (refused _).2 ⟨new, by rfl⟩⟩

end Template

end ConsumerContract
