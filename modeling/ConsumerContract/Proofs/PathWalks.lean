import ConsumerContract.Proofs.Alignment
import ConsumerContract.Proofs.Paths

/-!
# Paths as walks

A path is built one segment after the other, from the root, and denotes a place in a body if some walk
along its segments gets to a value. `Json.Below` is one step of such a walk: a field and an index lead
to one value at most, "any value" and "any item" to each of several. A built path gives its segments
back, so it resolves exactly if a walk exists: `read_built_and_resolves_iff`. An index that has more
than 64 bits, which no list needs, cannot be read.
-/

namespace ConsumerContract

/-! ### One step -/

/-- The segment leads from the first value to the second. -/
inductive Json.Below : Json → Segment → Json → Prop where
  | field {members name v} : Dict.get? name members = some v → Below (.obj members) (.field name) v
  | index {items : List Json} {i v} : items[i]? = some v → Below (.arr items) (.index i) v
  | anyItem {items : List Json} {v} : v ∈ items → Below (.arr items) .anyItem v
  | anyValue {members : List (String × Json)} {name v} : (name, v) ∈ members →
      Below (.obj members) .anyValue v

namespace Json

/-- A walk is a step and a walk from where the step leads. -/
theorem at_cons_iff {v w : Json} {s : Segment} {segments : List Segment} :
    v.At (s :: segments) w ↔ ∃ u, v.Below s u ∧ u.At segments w := by
  constructor
  · intro h
    cases h with
    | field found rest => exact ⟨_, .field found, rest⟩
    | anyValue found rest => exact ⟨_, .anyValue found, rest⟩
    | index found rest => exact ⟨_, .index found, rest⟩
    | anyItem found rest => exact ⟨_, .anyItem found, rest⟩
  · rintro ⟨u, step, rest⟩
    cases step with
    | field found => exact .field found rest
    | index found => exact .index found rest
    | anyItem found => exact .anyItem found rest
    | anyValue found => exact .anyValue found rest

end Json

namespace Path

/-! ### The search -/

/-- One step of the search: some value below goes on. -/
theorem leads_cons_iff {s : Segment} {rest : List Segment} {v : Json} :
    leads (s :: rest) v = true ↔ ∃ u, v.Below s u ∧ leads rest u = true := by
  constructor
  · intro h
    cases s with
    | field name =>
      cases v with
      | obj members =>
        rw [leads] at h
        split at h
        case h_1 u found => exact ⟨u, .field found, h⟩
        case h_2 => contradiction
      | _ => contradiction
    | index i =>
      cases v with
      | arr items =>
        rw [leads] at h
        split at h
        case h_1 u found => exact ⟨u, .index found, h⟩
        case h_2 => contradiction
      | _ => contradiction
    | anyItem =>
      cases v with
      | arr items =>
        obtain ⟨u, found, goesOn⟩ := List.any_eq_true.1 h
        exact ⟨u, .anyItem found, goesOn⟩
      | _ => contradiction
    | anyValue =>
      cases v with
      | obj members =>
        obtain ⟨⟨name, u⟩, found, goesOn⟩ := List.any_eq_true.1 h
        exact ⟨u, .anyValue found, goesOn⟩
      | _ => contradiction
  · rintro ⟨u, step, goesOn⟩
    cases step with
    | field found => rw [leads, found]; exact goesOn
    | index found => rw [leads, found]; exact goesOn
    | anyItem found => exact List.any_eq_true.2 ⟨u, found, goesOn⟩
    | anyValue found => exact List.any_eq_true.2 ⟨_, found, goesOn⟩

/-- The search succeeds exactly if there is a walk. -/
theorem leads_iff {segments : List Segment} {v : Json} :
    leads segments v = true ↔ ∃ w, v.At segments w := by
  induction segments generalizing v with
  | nil => exact ⟨fun _ => ⟨v, .here v⟩, fun _ => rfl⟩
  | cons s rest ih =>
    rw [leads_cons_iff]
    constructor
    · rintro ⟨u, step, goesOn⟩
      obtain ⟨w, walk⟩ := ih.1 goesOn
      exact ⟨w, Json.at_cons_iff.2 ⟨u, step, walk⟩⟩
    · rintro ⟨w, walk⟩
      obtain ⟨u, step, rest⟩ := Json.at_cons_iff.1 walk
      exact ⟨u, step, ih.2 ⟨w, rest⟩⟩

/-! ### Building -/

/-- The path below `parent`, from the builder of the segment's kind. -/
def below (parent : String) : Segment → String
  | .field name => field parent name
  | .index i => index parent i
  | .anyItem => anyItem parent
  | .anyValue => anyValue parent

theorem below_eq_append (parent : String) (s : Segment) : below parent s = append parent s := by
  cases s <;> rfl

/-- Building segment by segment writes the path of the segments. -/
theorem foldl_below (parent : String) (segments : List Segment) :
    segments.foldl below parent = render parent segments := by
  have same : below = append := funext fun parent => funext (below_eq_append parent)
  rw [same, render]

/-- A path that was built from the root is read as the segments it was built from, exactly if each index
can be read at all. It is the path of no other segments, and it denotes a place in a body exactly if the
segments lead from the body to some value. -/
theorem read_built_and_resolves_iff (segments : List Segment) :
    (read (segments.foldl below root) = some segments ↔ AreReadable segments) ∧
      (∀ others : List Segment,
        others.foldl below root = segments.foldl below root ↔ others = segments) ∧
      ∀ body : Json, resolves body (segments.foldl below root) = true ↔
        AreReadable segments ∧ ∃ v, body.At segments v := by
  simp only [foldl_below]
  refine ⟨read_render_iff, fun others => ?distinct, fun body => ?walks⟩
  case distinct => exact ⟨fun same => render_injective root same, fun same => by rw [same]⟩
  case walks => rw [resolves_render_iff, leads_iff]

/-- Names that look like other segments stay names. -/
example :
    read (below (below (below (below root (.field "*")) .anyValue) (.field "a'].b\\")) (.field "0")) =
      some [.field "*", .anyValue, .field "a'].b\\", .field "0"] := by
  decide

end Path

end ConsumerContract
