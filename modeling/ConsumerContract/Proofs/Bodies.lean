import ConsumerContract.Proofs.Alignment

/-!
# The body of a resolution is the example

A walk puts together the values of the places it comes through, and hands over to the sample where it
does not go: at matchers without content and at variants. `Template.walk_fst` says that both recursions
give one value. Here is where to find the parts of it: `Template.ShowsAt` leads from a template to the
templates whose samples stand in its own, one step for every name and index of the value itself, and says
nothing of paths, so it goes through names that add no segment, and into variants.

An array of one shape is as long as its matcher asks. The builders of such matchers take any least length
and any greatest one: what they show is counted on integers, since a least length may be negative.
-/

namespace ConsumerContract

/-! ### Where a sample shows another -/

/-- The sample of the template inside stands at the place in the sample of the one outside. The place is
one of the value: it names the items of an array by index, also those that a rule does not tell apart. -/
inductive Template.ShowsAt : Template → List Segment → Template → Prop where
  | here (t : Template) : ShowsAt t [] t
  | like {content s t} : ShowsAt content s t → ShowsAt (.matcher (.like content)) s t
  | equality {content s t} : ShowsAt content s t → ShowsAt (.matcher (.equality content)) s t
  | repeated {content s t} {min : UInt64} {i : Nat} : i < min.toNat →
      ShowsAt content s t → ShowsAt (.matcher (.repeated content min)) (.index i :: s) t
  | bounded {content s t min max} {i : Nat} : i < (Matcher.repetitions min max).toNat →
      ShowsAt content s t → ShowsAt (.matcher (.bounded content min max)) (.index i :: s) t
  | eachKeyLike {content s t key} :
      ShowsAt content s t → ShowsAt (.matcher (.eachKeyLike key content)) (.field key :: s) t
  | arrayContaining {variants : List Template} {i u s t} : variants[i]? = some u →
      ShowsAt u s t → ShowsAt (.matcher (.arrayContaining variants)) (.index i :: s) t
  | record {fields name u s t} : Dict.get? name fields = some u →
      ShowsAt u s t → ShowsAt (.matcher (.record fields)) (.field name :: s) t
  | object {fields name u s t} : Dict.get? name fields = some u →
      ShowsAt u s t → ShowsAt (.object fields) (.field name :: s) t
  | array {items : List Template} {i u s t} : items[i]? = some u →
      ShowsAt u s t → ShowsAt (.array items) (.index i :: s) t

namespace Template

/-- The segments at which a template is shown lead to its sample. -/
theorem ShowsAt.sample_at {t u : Template} {s : List Segment} (shown : t.ShowsAt s u) :
    t.sample.At s u.sample := by
  induction shown with
  | here t => exact .here _
  | like _ ih | equality _ ih => exact ih
  | repeated below _ ih | bounded below _ ih =>
    exact .index (List.getElem?_replicate_of_lt below) ih
  | eachKeyLike _ ih => exact .field (if_pos rfl) ih
  | arrayContaining found _ ih | array found _ ih => exact .index (getElem?_sampleItems found) ih
  | record found _ ih | object found _ ih => exact .field (get?_sampleFields found) ih

theorem ShowsAt.trans {t u v : Template} {s r : List Segment} (outer : t.ShowsAt s u)
    (shown : u.ShowsAt r v) : t.ShowsAt (s ++ r) v := by
  induction outer with
  | here t => exact shown
  | like _ ih => exact .like (ih shown)
  | equality _ ih => exact .equality (ih shown)
  | repeated below _ ih => exact .repeated below (ih shown)
  | bounded below _ ih => exact .bounded below (ih shown)
  | eachKeyLike _ ih => exact .eachKeyLike (ih shown)
  | arrayContaining found _ ih => exact .arrayContaining found (ih shown)
  | record found _ ih => exact .record found (ih shown)
  | object found _ ih => exact .object found (ih shown)
  | array found _ ih => exact .array found (ih shown)

/-- The template is shown somewhere in the sample of `t`. -/
def IsShown (t u : Template) : Prop :=
  ∃ s, t.ShowsAt s u

theorem IsShown.trans {t u v : Template} : t.IsShown u → u.IsShown v → t.IsShown v
  | ⟨_, outer⟩, ⟨_, shown⟩ => ⟨_, outer.trans shown⟩

end Template

mutual

/-- What a shown template shows is shown, down to its innermost templates. -/
theorem Template.IsShown.everywhere {outer : Template} : (t : Template) → outer.IsShown t →
    t.WellFormed → t.Everywhere Template.AsksForItem → t.Everywhere outer.IsShown
  | .literal _, shown, _, _ => shown
  | .object fields, shown, wf, asks => by
    refine ⟨shown, Template.IsShown.everyField fields (fun e he => ?_) wf.2 asks.2⟩
    exact shown.trans ⟨_, .object (Dict.get?_of_mem wf.1 he) (.here _)⟩
  | .array items, shown, wf, asks => by
    refine ⟨shown, Template.IsShown.everyItem items (fun u hu => ?_) wf.2 asks.2⟩
    obtain ⟨i, found⟩ := List.getElem?_of_mem hu
    exact shown.trans ⟨_, .array found (.here _)⟩
  | .matcher m, shown, wf, asks => ⟨shown, m.isShown_inside shown wf asks⟩

/-- Whatever shows a matcher shows all templates inside it, since its sample holds theirs. -/
theorem Matcher.isShown_inside {outer : Template} : (m : Matcher) → outer.IsShown (.matcher m) →
    (Template.matcher m).WellFormed → (Template.matcher m).Everywhere Template.AsksForItem →
    m.Inside outer.IsShown
  | .like content, shown, wf, asks =>
    (shown.trans ⟨_, .like (.here content)⟩).everywhere content wf.2 asks.2
  | .equality content, shown, wf, asks =>
    (shown.trans ⟨_, .equality (.here content)⟩).everywhere content wf.2 asks.2
  | .repeated content min, shown, wf, asks => by
    have first : 0 < min.toNat := UInt64.le_iff_toNat_le.1 asks.1
    exact (shown.trans ⟨_, .repeated first (.here content)⟩).everywhere content wf.2 asks.2
  | .bounded content min max, shown, wf, asks => by
    have first : 0 < (Matcher.repetitions min max).toNat :=
      UInt64.le_iff_toNat_le.1 (UInt64.le_trans asks.1 (Template.le_repetitions min max))
    exact (shown.trans ⟨_, .bounded first (.here content)⟩).everywhere content wf.2 asks.2
  | .eachKeyLike key content, shown, wf, asks =>
    (shown.trans ⟨_, .eachKeyLike (.here content)⟩).everywhere content wf.2 asks.2
  | .record fields, shown, wf, asks => by
    refine Template.IsShown.everyField fields (fun e he => ?_) wf.2 asks.2
    exact shown.trans ⟨_, .record (Dict.get?_of_mem wf.1 he) (.here _)⟩
  | .arrayContaining variants, shown, wf, asks => by
    refine Template.IsShown.everyItem variants (fun u hu => ?_) wf.2 asks.2
    obtain ⟨i, found⟩ := List.getElem?_of_mem hu
    exact shown.trans ⟨_, .arrayContaining found (.here _)⟩
  | .regex .., _, _, _ | .integer _, _, _, _ | .decimal _, _, _, _ | .null, _, _, _ => trivial
  | .includes _, _, _, _ | .fromProviderState .., _, _, _ | .moment .., _, _, _ => trivial

theorem Template.IsShown.everyItem {outer : Template} : (items : List Template) →
    (∀ t ∈ items, outer.IsShown t) → Template.EveryItem Template.InOrder items →
    Template.EveryItem Template.AsksForItem items → Template.EveryItem outer.IsShown items
  | [], _, _, _ => trivial
  | t :: rest, shown, wf, asks =>
    ⟨(shown t List.mem_cons_self).everywhere t wf.1 asks.1,
      Template.IsShown.everyItem rest (fun u hu => shown u (List.mem_cons_of_mem t hu)) wf.2 asks.2⟩

theorem Template.IsShown.everyField {outer : Template} : (fields : List (String × Template)) →
    (∀ e ∈ fields, outer.IsShown e.2) → Template.EveryField Template.InOrder fields →
    Template.EveryField Template.AsksForItem fields → Template.EveryField outer.IsShown fields
  | [], _, _, _ => trivial
  | (name, t) :: rest, shown, wf, asks =>
    ⟨(shown (name, t) List.mem_cons_self).everywhere t wf.1 asks.1,
      Template.IsShown.everyField rest (fun e he => shown e (List.mem_cons_of_mem _ he)) wf.2 asks.2⟩

end

/-! ### Arrays of one shape -/

/-- An array of `n` values, all of them `v`, and at least one. -/
def Json.Repeats (array : Json) (n : Int) (v : Json) : Prop :=
  ∃ items, array = .arr items ∧ items ≠ [] ∧ items.length = n ∧ ∀ e ∈ items, e = v

theorem Json.repeats_replicate {n : Nat} (h : 1 ≤ n) (v : Json) :
    Repeats (.arr (List.replicate n v)) n v := by
  refine ⟨_, rfl, ?_, ?_, fun e he => List.eq_of_mem_replicate he⟩
  · rw [Ne, List.replicate_eq_nil_iff]
    omega
  · rw [List.length_replicate]

namespace Matcher

/-- The least length is the one asked for, raised to one if it is smaller. -/
theorem toNat_leastLength (min : Int64) : ((leastLength min).value.toNat : Int) = max 1 min.toInt := by
  have one : (1 : Int64).toInt = 1 := rfl
  rw [leastLength]
  split
  next below =>
    have less := Int64.lt_iff_toInt_lt.1 below
    change (1 : Int) = max 1 min.toInt
    omega
  next atLeastOne =>
    have least := Int64.le_iff_toInt_le.1 (Int64.not_lt.1 atLeastOne)
    have same : (min.toUInt64.toNat : Int) = min.toInt := by
      rw [← Int64.toNat_toBitVec, ← Int64.toInt_toBitVec]
      rw [one, ← Int64.toInt_toBitVec] at least
      -- a word is read alike with and without a sign unless it is negative
      have fits := min.toBitVec.isLt
      have sign := BitVec.toInt_eq_toNat_cond min.toBitVec
      split at sign <;> omega
    change (min.toUInt64.toNat : Int) = max 1 min.toInt
    omega

theorem toNat_repetitions (least most : UInt64) :
    (repetitions least most).toNat = max least.toNat most.toNat := by
  rw [repetitions]
  split
  next below =>
    have less := UInt64.lt_iff_toNat_lt.1 below
    omega
  next above =>
    have less := UInt64.le_iff_toNat_le.1 (UInt64.not_lt.1 above)
    omega

/-- An array of a least length has that many samples of its content, and at least one. -/
theorem repeats_atLeast (content : Template) (min : Int64) :
    (atLeast content min).value.sample.Repeats (max 1 min.toInt) content.sample := by
  rw [← toNat_leastLength]
  exact Json.repeats_replicate (UInt64.le_iff_toNat_le.1 (one_le_leastLength min)) content.sample

/-- An array of a range of lengths has as many samples of its content as the greater length says. -/
theorem repeats_between (content : Template) (min : Int64) (most : UInt64) :
    (between content min most).value.sample.Repeats (max (max 1 min.toInt) most.toNat)
      content.sample := by
  have length := toNat_repetitions (leastLength min).value most
  have least := toNat_leastLength min
  have count : ((repetitions (leastLength min).value most).toNat : Int) =
      max (max 1 min.toInt) most.toNat := by
    omega
  rw [← count]
  exact Json.repeats_replicate (by omega) content.sample

/-- An array of a greatest length has that many samples of its content, and at least one. -/
theorem repeats_atMost (content : Template) (most : UInt64) :
    (atMost content most).value.sample.Repeats (max 1 most.toNat) content.sample :=
  repeats_between content 1 most

end Matcher

/-- The body of a resolution is the example, at any root. In it stands every template that an array of one
shape does not leave out, and each array of one shape that a builder has made is as long as asked for and
never empty. -/
theorem Template.resolveUnchecked_body (root : String) (t : Template) :
    let body := (t.resolveUnchecked root).value.body
    body = t.sample ∧
      (t.WellFormed → t.Everywhere AsksForItem → t.Everywhere t.IsShown) ∧
      ∀ s,
        (∀ u, t.ShowsAt s u → body.At s u.sample) ∧
        (∀ content min, t.ShowsAt s (.matcher (Matcher.atLeast content min).value) →
          ∃ array, body.At s array ∧ array.Repeats (max 1 min.toInt) content.sample) ∧
        (∀ content min most, t.ShowsAt s (.matcher (Matcher.between content min most).value) →
          ∃ array, body.At s array ∧
            array.Repeats (max (max 1 min.toInt) most.toNat) content.sample) ∧
        (∀ content most, t.ShowsAt s (.matcher (Matcher.atMost content most).value) →
          ∃ array, body.At s array ∧ array.Repeats (max 1 most.toNat) content.sample) := by
  intro body
  have same : body = t.sample := t.walk_fst root
  rw [same]
  refine ⟨rfl, fun wf asks => IsShown.everywhere t ⟨[], .here t⟩ wf asks, fun s => ?_⟩
  refine ⟨fun u shown => shown.sample_at, ?atLeast, ?between, ?atMost⟩
  case atLeast =>
    intro content min shown
    exact ⟨_, shown.sample_at, Matcher.repeats_atLeast content min⟩
  case between =>
    intro content min most shown
    exact ⟨_, shown.sample_at, Matcher.repeats_between content min most⟩
  case atMost =>
    intro content most shown
    exact ⟨_, shown.sample_at, Matcher.repeats_atMost content most⟩

/-- Raised least lengths inside a variant, below a name that adds no segment to a path. -/
theorem Template.resolveUnchecked_body_raised :
    ∃ inner outer t, inner = Matcher.atLeast (.literal .null) (-3) ∧
      outer = Matcher.between (.matcher inner.value) (-1) 0 ∧
      t = Template.object [("0", .matcher (.arrayContaining [.literal .null, .matcher outer.value]))] ∧
      let body := (t.resolveUnchecked "").value.body
      body = .obj [("0", .arr [.null, .arr [.arr [.null]]])] ∧ t.Everywhere t.IsShown ∧
        (∃ array, body.At [.field "0", .index 1] array ∧ array.Repeats 1 (.arr [.null])) ∧
        ∃ array, body.At [.field "0", .index 1, .index 0] array ∧ array.Repeats 1 .null := by
  refine ⟨_, _, _, rfl, rfl, rfl, by rfl, ?_⟩
  have ⟨_, shown, places⟩ := resolveUnchecked_body "" (.object [("0", .matcher (.arrayContaining
    [.literal .null, .matcher
      (Matcher.between (.matcher (Matcher.atLeast (.literal .null) (-3)).value) (-1) 0).value]))])
  have ⟨_, _, outer, _⟩ := places [.field "0", .index 1]
  have ⟨_, inner, _⟩ := places [.field "0", .index 1, .index 0]
  refine ⟨shown ?wf ?asks, outer (.matcher (Matcher.atLeast (.literal .null) (-3)).value) (-1) 0 ?_,
    inner (.literal .null) (-3) ?_⟩
  case wf =>
    exact ⟨Dict.ordered_singleton _,
      ⟨trivial, trivial, ⟨trivial, trivial, trivial⟩, trivial⟩, trivial⟩
  case asks =>
    have one : (1 : UInt64) ≤ 1 := by decide
    exact ⟨trivial, ⟨trivial, trivial, ⟨one, one, trivial⟩, trivial⟩, trivial⟩
  · exact .object rfl (.arrayContaining rfl (.here _))
  · exact .object rfl (.arrayContaining rfl (.bounded (by decide) (.here _)))

end ConsumerContract
