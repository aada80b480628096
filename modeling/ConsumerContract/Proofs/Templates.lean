import ConsumerContract.Proofs.JsonValues
import ConsumerContract.Matcher.Basic
import ConsumerContract.Path.Basic

/-!
# What holds throughout a template, and where its matchers stand

`Template.Everywhere` asks something of a template and of every template inside it, variants included.
`Template.positions` lists the matchers that a walk meets, outer before inner, each with the segments
that lead to it: a field adds its name, an item its index, the content of a repeated matcher "any item",
the content of a map "any value", and the content of the other matchers nothing. Variants of an array
are not walked. `Template.HoldsAt` is the same as a relation, for inductions.
-/

namespace ConsumerContract

/-! ### Throughout a template -/

mutual

/-- `p` holds of the template and of every template inside it. -/
def Template.Everywhere (p : Template → Prop) : Template → Prop
  | .matcher m => p (.matcher m) ∧ m.Inside p
  | .object fields => p (.object fields) ∧ Template.EveryField p fields
  | .array items => p (.array items) ∧ Template.EveryItem p items
  | .literal value => p (.literal value)

/-- `p` holds of every template inside the matcher. -/
def Matcher.Inside (p : Template → Prop) : Matcher → Prop
  | .like content | .equality content => content.Everywhere p
  | .repeated content _ | .bounded content _ _ => content.Everywhere p
  | .eachKeyLike _ content => content.Everywhere p
  | .arrayContaining variants => Template.EveryItem p variants
  | .record fields => Template.EveryField p fields
  | .regex .. | .integer _ | .decimal _ | .null | .includes _ => True
  | .fromProviderState .. | .moment .. => True

/-- `p` holds throughout every item. -/
def Template.EveryItem (p : Template → Prop) : List Template → Prop
  | [] => True
  | t :: rest => t.Everywhere p ∧ Template.EveryItem p rest

/-- `p` holds throughout every field. -/
def Template.EveryField (p : Template → Prop) : List (String × Template) → Prop
  | [] => True
  | (_, t) :: rest => t.Everywhere p ∧ Template.EveryField p rest

end

namespace Template

theorem everyItem_iff {p : Template → Prop} {items : List Template} :
    EveryItem p items ↔ ∀ t ∈ items, t.Everywhere p := by
  induction items with
  | nil => simp [EveryItem]
  | cons t rest ih => simp [EveryItem, ih]

theorem everyField_iff {p : Template → Prop} {fields : List (String × Template)} :
    EveryField p fields ↔ ∀ e ∈ fields, e.2.Everywhere p := by
  induction fields with
  | nil => simp [EveryField]
  | cons e rest ih =>
    obtain ⟨name, t⟩ := e
    simp [EveryField, ih]

/-- The template keeps the form that its builders give it: fields in the order of their names, no name
twice, and literals in canonical form. -/
def InOrder : Template → Prop
  | .object fields | .matcher (.record fields) => Dict.Ordered fields
  | .literal value | .matcher (.fromProviderState _ value) => value.Everywhere Json.InOrder
  | _ => True

/-- Every object inside has its fields in order, and every literal is canonical. -/
def WellFormed (t : Template) : Prop :=
  t.Everywhere InOrder

/-- A matcher of an array of one shape asks for at least one item. -/
def AsksForItem : Template → Prop
  | .matcher (.repeated _ min) | .matcher (.bounded _ min _) => 1 ≤ min
  | _ => True

/-- Each field and each item has a segment of its own: names of fields add segments to the path, and no
list is longer than indices count, as none is in memory. -/
def IsAddressable : Template → Prop
  | .object fields | .matcher (.record fields) => ∀ e ∈ fields, Path.isSynthetic e.1 = false
  | .array items => items.length ≤ UInt64.size
  | _ => True

theorem le_repetitions (min max : UInt64) : min ≤ Matcher.repetitions min max := by
  rw [Matcher.repetitions]
  split
  next below => exact UInt64.le_of_lt below
  next => exact UInt64.le_refl min

/-- An object built of well-formed fields is well-formed. -/
theorem wellFormed_ofFields {fields : List (String × Template)}
    (h : ∀ e ∈ fields, e.2.WellFormed) : (ofFields fields).WellFormed :=
  ⟨Dict.ordered_ofList fields, everyField_iff.2 fun e he => h e (Dict.mem_of_mem_ofList he)⟩

end Template

namespace Matcher

/-- A record built of well-formed fields is well-formed. -/
theorem wellFormed_ofFields {fields : List (String × Template)}
    (h : ∀ e ∈ fields, e.2.WellFormed) : (Template.matcher (ofFields fields)).WellFormed :=
  ⟨Dict.ordered_ofList fields,
    Template.everyField_iff.2 fun e he => h e (Dict.mem_of_mem_ofList he)⟩

/-- A least length is never below one. -/
theorem one_le_leastLength (min : Int64) : 1 ≤ (leastLength min).value := by
  rw [leastLength]
  split
  next => exact UInt64.le_refl 1
  next atLeastOne => exact Int64.toUInt64_le (by decide) (Int64.not_lt.1 atLeastOne)

/-- The builders of arrays of one shape raise a smaller least length to one. -/
theorem asksForItem_atLeast (content : Template) (min : Int64) :
    (Template.matcher (atLeast content min).value).AsksForItem :=
  one_le_leastLength min

theorem asksForItem_between (content : Template) (min : Int64) (max : UInt64) :
    (Template.matcher (between content min max).value).AsksForItem :=
  one_le_leastLength min

end Matcher

/-! ### Positions -/

/-- The segment stands in a path and is read back from there. -/
def Segment.IsReal : Segment → Prop
  | .field name => Path.isSynthetic name = false
  | .index i => i < UInt64.size
  | .anyItem | .anyValue => True

/-- A matcher inside a template, and the segments that lead to it. -/
structure Position where
  segments : List Segment
  matcher : Matcher

namespace Position

/-- The position as seen from one step above. -/
def under (s : Segment) (p : Position) : Position :=
  ⟨s :: p.segments, p.matcher⟩

@[simp]
theorem segments_under (s : Segment) (p : Position) : (p.under s).segments = s :: p.segments :=
  rfl

@[simp]
theorem matcher_under (s : Segment) (p : Position) : (p.under s).matcher = p.matcher :=
  rfl

end Position

mutual

/-- The matchers that a walk meets, outer before inner, fields and items in their order. -/
def Template.positions : Template → List Position
  | .literal _ => []
  | .object fields => Template.fieldPositions fields
  | .array items => Template.itemPositions 0 items
  | .matcher m => ⟨[], m⟩ :: m.inner

/-- The positions strictly inside a matcher. -/
def Matcher.inner : Matcher → List Position
  | .like content | .equality content => content.positions
  | .repeated content _ | .bounded content _ _ => content.positions.map (·.under .anyItem)
  | .eachKeyLike _ content => content.positions.map (·.under .anyValue)
  | .record fields => Template.fieldPositions fields
  | .regex .. | .integer _ | .decimal _ | .null | .includes _ => []
  | .arrayContaining _ | .fromProviderState .. | .moment .. => []

/-- The positions in items, the first of them at index `i`. -/
def Template.itemPositions (i : Nat) : List Template → List Position
  | [] => []
  | t :: rest => t.positions.map (·.under (.index i)) ++ Template.itemPositions (i + 1) rest

/-- The positions in fields. -/
def Template.fieldPositions : List (String × Template) → List Position
  | [] => []
  | (name, t) :: rest => t.positions.map (·.under (.field name)) ++ Template.fieldPositions rest

end

/-- `segments` lead from the template to the matcher. -/
inductive Template.HoldsAt : Template → List Segment → Matcher → Prop where
  | here (m : Matcher) : HoldsAt (.matcher m) [] m
  | like {content s m} : HoldsAt content s m → HoldsAt (.matcher (.like content)) s m
  | equality {content s m} : HoldsAt content s m → HoldsAt (.matcher (.equality content)) s m
  | repeated {content s m min} :
      HoldsAt content s m → HoldsAt (.matcher (.repeated content min)) (.anyItem :: s) m
  | bounded {content s m min max} :
      HoldsAt content s m → HoldsAt (.matcher (.bounded content min max)) (.anyItem :: s) m
  | eachKeyLike {content s m key} :
      HoldsAt content s m → HoldsAt (.matcher (.eachKeyLike key content)) (.anyValue :: s) m
  | record {fields name t s m} : (name, t) ∈ fields →
      HoldsAt t s m → HoldsAt (.matcher (.record fields)) (.field name :: s) m
  | object {fields name t s m} : (name, t) ∈ fields →
      HoldsAt t s m → HoldsAt (.object fields) (.field name :: s) m
  | array {items : List Template} {i t s m} : items[i]? = some t →
      HoldsAt t s m → HoldsAt (.array items) (.index i :: s) m

mutual

/-- Every position that is listed is one. -/
theorem Template.holdsAt_of_mem : (t : Template) → {p : Position} → p ∈ t.positions →
    t.HoldsAt p.segments p.matcher
  | .literal _, _, h => absurd h List.not_mem_nil
  | .object fields, p, h => by
    obtain ⟨name, t, ht, s, hs, found⟩ := Template.holdsAt_of_mem_fields fields h
    exact hs ▸ .object ht found
  | .array items, p, h => by
    obtain ⟨j, t, ht, s, hs, found⟩ := Template.holdsAt_of_mem_items 0 items h
    rw [hs, Nat.zero_add]
    exact .array ht found
  | .matcher m, p, h => by
    rcases List.mem_cons.1 h with rfl | h
    · exact .here m
    · exact m.holdsAt_of_mem_inner h

theorem Matcher.holdsAt_of_mem_inner : (m : Matcher) → {p : Position} → p ∈ m.inner →
    (Template.matcher m).HoldsAt p.segments p.matcher
  | .like content, _, h => .like (content.holdsAt_of_mem h)
  | .equality content, _, h => .equality (content.holdsAt_of_mem h)
  | .repeated content _, _, h => by
    obtain ⟨q, hq, rfl⟩ := List.mem_map.1 h
    exact .repeated (content.holdsAt_of_mem hq)
  | .bounded content _ _, _, h => by
    obtain ⟨q, hq, rfl⟩ := List.mem_map.1 h
    exact .bounded (content.holdsAt_of_mem hq)
  | .eachKeyLike _ content, _, h => by
    obtain ⟨q, hq, rfl⟩ := List.mem_map.1 h
    exact .eachKeyLike (content.holdsAt_of_mem hq)
  | .record fields, p, h => by
    obtain ⟨name, t, ht, s, hs, found⟩ := Template.holdsAt_of_mem_fields fields h
    exact hs ▸ .record ht found
  | .regex .., _, h | .integer _, _, h | .decimal _, _, h | .null, _, h | .includes _, _, h =>
    absurd h List.not_mem_nil
  | .arrayContaining _, _, h | .fromProviderState .., _, h | .moment .., _, h =>
    absurd h List.not_mem_nil

theorem Template.holdsAt_of_mem_items : (i : Nat) → (items : List Template) → {p : Position} →
    p ∈ Template.itemPositions i items →
    ∃ j t, items[j]? = some t ∧ ∃ s, p.segments = .index (i + j) :: s ∧ t.HoldsAt s p.matcher
  | _, [], _, h => absurd h List.not_mem_nil
  | i, t :: rest, p, h => by
    rcases List.mem_append.1 h with h | h
    · obtain ⟨q, hq, rfl⟩ := List.mem_map.1 h
      exact ⟨0, t, rfl, q.segments, rfl, t.holdsAt_of_mem hq⟩
    · obtain ⟨j, u, hu, s, hs, found⟩ := Template.holdsAt_of_mem_items (i + 1) rest h
      exact ⟨j + 1, u, hu, s, by rw [hs, Nat.add_right_comm]; rfl, found⟩

theorem Template.holdsAt_of_mem_fields : (fields : List (String × Template)) → {p : Position} →
    p ∈ Template.fieldPositions fields →
    ∃ name t, (name, t) ∈ fields ∧ ∃ s, p.segments = .field name :: s ∧ t.HoldsAt s p.matcher
  | [], _, h => absurd h List.not_mem_nil
  | (name, t) :: rest, p, h => by
    rcases List.mem_append.1 h with h | h
    · obtain ⟨q, hq, rfl⟩ := List.mem_map.1 h
      exact ⟨name, t, by simp, q.segments, rfl, t.holdsAt_of_mem hq⟩
    · obtain ⟨other, u, hu, s, hs, found⟩ := Template.holdsAt_of_mem_fields rest h
      exact ⟨other, u, List.mem_cons_of_mem _ hu, s, hs, found⟩

end

namespace Template

/-- The positions of a field are listed below its name. -/
theorem mem_fieldPositions {fields : List (String × Template)} {name : String} {t : Template}
    {p : Position} (ht : (name, t) ∈ fields) (hp : p ∈ t.positions) :
    p.under (.field name) ∈ fieldPositions fields := by
  induction fields with
  | nil => simp at ht
  | cons e rest ih =>
    rcases List.mem_cons.1 ht with rfl | ht
    · exact List.mem_append_left _ (List.mem_map_of_mem hp)
    · exact List.mem_append_right _ (ih ht)

theorem mem_itemPositions {items : List Template} (i : Nat) {j : Nat} {t : Template}
    {p : Position} (ht : items[j]? = some t) (hp : p ∈ t.positions) :
    p.under (.index (i + j)) ∈ itemPositions i items := by
  induction items generalizing i j with
  | nil => simp at ht
  | cons u rest ih =>
    cases j with
    | zero =>
      obtain rfl := Option.some.inj ht
      exact List.mem_append_left _ (List.mem_map_of_mem hp)
    | succ j =>
      have later := ih (i + 1) (j := j) ht
      rw [Nat.add_right_comm] at later
      exact List.mem_append_right _ later

/-- Every position is listed. -/
theorem mem_of_holdsAt {t : Template} {s : List Segment} {m : Matcher} (found : t.HoldsAt s m) :
    ⟨s, m⟩ ∈ t.positions := by
  induction found with
  | here m => exact List.mem_cons_self
  | like _ ih | equality _ ih => exact List.mem_cons_of_mem _ ih
  | repeated _ ih | bounded _ ih | eachKeyLike _ ih =>
    exact List.mem_cons_of_mem _ (List.mem_map_of_mem ih)
  | record ht _ ih => exact List.mem_cons_of_mem _ (mem_fieldPositions ht ih)
  | object ht _ ih => exact mem_fieldPositions ht ih
  | @array items i t s m ht _ ih =>
    have := mem_itemPositions 0 ht ih
    rwa [Nat.zero_add] at this

/-- The positions are the places that segments lead to. -/
theorem mem_positions_iff {t : Template} {s : List Segment} {m : Matcher} :
    ⟨s, m⟩ ∈ t.positions ↔ t.HoldsAt s m :=
  ⟨t.holdsAt_of_mem, mem_of_holdsAt⟩

/-- A position inside a matcher is one of the template, at the joined segments. -/
theorem HoldsAt.trans {t : Template} {s u : List Segment} {m inner : Matcher}
    (outer : t.HoldsAt s m) (h : (Template.matcher m).HoldsAt u inner) :
    t.HoldsAt (s ++ u) inner := by
  induction outer with
  | here m => exact h
  | like _ ih => exact .like (ih h)
  | equality _ ih => exact .equality (ih h)
  | repeated _ ih => exact .repeated (ih h)
  | bounded _ ih => exact .bounded (ih h)
  | eachKeyLike _ ih => exact .eachKeyLike (ih h)
  | record ht _ ih => exact .record ht (ih h)
  | object ht _ ih => exact .object ht (ih h)
  | array ht _ ih => exact .array ht (ih h)

/-- What holds throughout a template holds throughout each matcher that it holds. -/
theorem Everywhere.of_holdsAt {p : Template → Prop} {t : Template} {s : List Segment} {m : Matcher}
    (found : t.HoldsAt s m) (h : t.Everywhere p) : (Template.matcher m).Everywhere p := by
  induction found with
  | here m => exact h
  | like _ ih | equality _ ih | repeated _ ih | bounded _ ih | eachKeyLike _ ih => exact ih h.2
  | record ht _ ih | object ht _ ih => exact ih (everyField_iff.1 h.2 _ ht)
  | array ht _ ih => exact ih (everyItem_iff.1 h.2 _ (List.mem_of_getElem? ht))

/-- A matcher inside a template is smaller. -/
theorem sizeOf_le_of_holdsAt {t : Template} {s : List Segment} {m : Matcher}
    (found : t.HoldsAt s m) : sizeOf m < sizeOf t := by
  induction found with
  | here m => simp
  | like _ ih | equality _ ih | repeated _ ih | bounded _ ih | eachKeyLike _ ih =>
    simp
    omega
  | record ht _ ih | object ht _ ih =>
    have := List.sizeOf_lt_of_mem ht
    simp at this ⊢
    omega
  | array ht _ ih =>
    have := List.sizeOf_lt_of_mem (List.mem_of_getElem? ht)
    simp
    omega

/-- On the way to a matcher every name shows and every index counts an item. -/
theorem HoldsAt.isReal {t : Template} {s : List Segment} {m : Matcher} (found : t.HoldsAt s m)
    (places : t.Everywhere IsAddressable) : ∀ segment ∈ s, segment.IsReal := by
  induction found with
  | here m => exact List.forall_mem_nil _
  | like _ ih | equality _ ih => exact ih places.2
  | repeated _ ih | bounded _ ih | eachKeyLike _ ih =>
    exact List.forall_mem_cons.2 ⟨trivial, ih places.2⟩
  | record ht _ ih | object ht _ ih =>
    exact List.forall_mem_cons.2 ⟨places.1 _ ht, ih (everyField_iff.1 places.2 _ ht)⟩
  | array ht _ ih =>
    obtain ⟨inside, _⟩ := List.getElem?_eq_some_iff.1 ht
    have later := ih (everyItem_iff.1 places.2 _ (List.mem_of_getElem? ht))
    exact List.forall_mem_cons.2 ⟨Nat.lt_of_lt_of_le inside places.1, later⟩

end Template

end ConsumerContract
