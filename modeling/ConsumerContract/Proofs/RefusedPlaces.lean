import ConsumerContract.Proofs.Refusals
import ConsumerContract.Path.Basic

/-!
# Where a scan refuses

The objects of a value stand at places: the keys and indices that lead to them. In the order of the scan
the places ascend, since an object stands at a beginning of the places of what it holds, and its members
follow one another by their keys (`ascending_objects`). So the words that a scan reports can be told from the
places at which objects are refused, without going through the value (`offending_of_inOrder`): they are
the words of those objects, each once, in the order of the first places that they stand at.

The words for a later version are among those for an earlier one, though not always in the same order: the
first place of a word may be one that the later version accepts.
-/

namespace ConsumerContract

/-! ### Places of objects -/

/-- The object of `members` stands at a place of a value. Each segment of the place names one item by its
index or one member by its key. -/
inductive Json.ObjectAt : Json → List Segment → List (String × Json) → Prop where
  | here (members : List (String × Json)) : ObjectAt (.obj members) [] members
  | item {items : List Json} {i v place members} : items[i]? = some v → ObjectAt v place members →
      ObjectAt (.arr items) (.index i :: place) members
  | member {outer : List (String × Json)} {name v place members} : (name, v) ∈ outer →
      ObjectAt v place members → ObjectAt (.obj outer) (.field name :: place) members

/-- The one item or member comes before the other. -/
inductive Segment.Before : Segment → Segment → Prop where
  | index {i j : Nat} : i < j → Before (.index i) (.index j)
  | field {name other : String} : name < other → Before (.field name) (.field other)

theorem Segment.Before.irrefl (s : Segment) : ¬ s.Before s := by
  rintro (below | below)
  · exact Nat.lt_irrefl _ below
  · exact Std.lt_irrefl below

/-- The one place comes before the other: it is a beginning of it, or parts from it at an earlier item or
member. -/
def Json.ComesBefore : List Segment → List Segment → Prop :=
  List.Lex Segment.Before

namespace Json

/-- No place comes before itself. -/
theorem ComesBefore.irrefl (place : List Segment) : ¬ ComesBefore place place :=
  List.lex_irrefl Segment.Before.irrefl place

/-- A place with what is found there, seen from one step further up. -/
def under (s : Segment) {α : Type} (found : List Segment × α) : List Segment × α :=
  (s :: found.1, found.2)

mutual

/-- All objects with their places, an object before its members. -/
def objects : Json → List (List Segment × List (String × Json))
  | .arr items => itemObjects 0 items
  | .obj members => ([], members) :: memberObjects members
  | _ => []

/-- The objects of items, the first of which has index `i`. -/
def itemObjects (i : Nat) : List Json → List (List Segment × List (String × Json))
  | [] => []
  | v :: rest => (objects v).map (under (.index i)) ++ itemObjects (i + 1) rest

/-- The objects of members. -/
def memberObjects : List (String × Json) → List (List Segment × List (String × Json))
  | [] => []
  | (name, v) :: rest => (objects v).map (under (.field name)) ++ memberObjects rest

end

/-- The objects in items are those in each, below its index. -/
theorem mem_itemObjects_iff {found : List Segment × List (String × Json)} {i : Nat}
    {items : List Json} :
    found ∈ itemObjects i items ↔
      ∃ (j : Nat) (v : Json), items[j]? = some v ∧ found ∈ v.objects.map (under (.index (i + j))) := by
  induction items generalizing i with
  | nil => simp [itemObjects]
  | cons first rest ih =>
    rw [itemObjects, List.mem_append, ih]
    constructor
    · rintro (inFirst | ⟨j, v, there, inside⟩)
      · exact ⟨0, first, rfl, inFirst⟩
      · rw [Nat.add_right_comm, Nat.add_assoc] at inside
        exact ⟨j + 1, v, there, inside⟩
    · rintro ⟨j | j, v, there, inside⟩
      · obtain rfl := Option.some.inj there
        exact .inl inside
      · refine .inr ⟨j, v, there, ?_⟩
        rwa [Nat.add_right_comm, Nat.add_assoc]

/-- The objects in members are those in the value of each, below its name. -/
theorem mem_memberObjects_iff {found : List Segment × List (String × Json)}
    {members : List (String × Json)} :
    found ∈ memberObjects members ↔
      ∃ e ∈ members, found ∈ e.2.objects.map (under (.field e.1)) := by
  induction members with
  | nil => simp [memberObjects]
  | cons first rest ih => simp [memberObjects, ih]

/-- Every object that is listed stands at its place. The induction is on the size of the value. -/
theorem objectAt_of_mem_objects {v : Json} {place : List Segment} {members : List (String × Json)}
    (h : (place, members) ∈ v.objects) : v.ObjectAt place members := by
  cases v with
  | null | bool | num | str => cases h
  | arr items =>
    rw [objects, mem_itemObjects_iff] at h
    obtain ⟨j, w, there, inside⟩ := h
    obtain ⟨⟨rest, found⟩, listed, same⟩ := List.mem_map.1 inside
    obtain ⟨rfl, rfl⟩ := Prod.mk.inj same
    have : sizeOf w < sizeOf (Json.arr items) := by
      have := List.sizeOf_lt_of_mem (List.mem_of_getElem? there)
      simp only [arr.sizeOf_spec]
      omega
    rw [Nat.zero_add]
    exact .item there (objectAt_of_mem_objects listed)
  | obj outer =>
    rw [objects, List.mem_cons] at h
    rcases h with same | h
    · obtain ⟨rfl, rfl⟩ := Prod.mk.inj same
      exact .here _
    · obtain ⟨⟨name, w⟩, there, inside⟩ := mem_memberObjects_iff.1 h
      obtain ⟨⟨rest, found⟩, listed, same⟩ := List.mem_map.1 inside
      obtain ⟨rfl, rfl⟩ := Prod.mk.inj same
      have : sizeOf w < sizeOf (Json.obj outer) := by
        have := List.sizeOf_lt_of_mem there
        simp only [Prod.mk.sizeOf_spec, obj.sizeOf_spec] at this ⊢
        omega
      exact .member there (objectAt_of_mem_objects listed)
termination_by sizeOf v

/-- The objects of a value and their places. -/
theorem mem_objects_iff {v : Json} {place : List Segment} {members : List (String × Json)} :
    (place, members) ∈ v.objects ↔ v.ObjectAt place members := by
  constructor
  · exact objectAt_of_mem_objects
  · intro h
    induction h with
    | here => exact List.mem_cons_self
    | @item items i w _ _ there _ ih =>
      refine mem_itemObjects_iff.2 ⟨i, w, there, List.mem_map.2 ⟨_, ih, ?_⟩⟩
      rw [Nat.zero_add]
      rfl
    | member there _ ih =>
      exact List.mem_cons_of_mem _ (mem_memberObjects_iff.2 ⟨_, there, List.mem_map.2 ⟨_, ih, rfl⟩⟩)

/-- The places of what is listed ascend. -/
def Ascending {α : Type} (found : List (List Segment × α)) : Prop :=
  found.Pairwise fun a b => ComesBefore a.1 b.1

theorem Ascending.under {α : Type} {found : List (List Segment × α)} (h : Ascending found)
    (s : Segment) : Ascending (found.map (under s)) :=
  List.pairwise_map.2 (h.imp .cons)

/-- What stands under an earlier segment comes before what stands under a later one. -/
theorem comesBefore_of_mem_under {α : Type} {s later : Segment} (order : s.Before later)
    {as bs : List (List Segment × α)} {a b : List Segment × α} (ha : a ∈ as.map (Json.under s))
    (hb : b ∈ bs.map (Json.under later)) : ComesBefore a.1 b.1 := by
  obtain ⟨_, _, rfl⟩ := List.mem_map.1 ha
  obtain ⟨_, _, rfl⟩ := List.mem_map.1 hb
  exact .rel order

mutual

/-- The objects of a value are listed in the order of their places. -/
theorem ascending_objects : (v : Json) → v.Everywhere InOrder → Ascending v.objects
  | .null, _ | .bool _, _ | .num _, _ | .str _, _ => .nil
  | .arr items, h => ascending_itemObjects 0 items h.2
  | .obj members, h => by
    refine List.pairwise_cons.2 ⟨?_, ascending_memberObjects members h.1 h.2⟩
    intro found inside
    obtain ⟨e, _, there⟩ := mem_memberObjects_iff.1 inside
    obtain ⟨_, _, rfl⟩ := List.mem_map.1 there
    exact .nil

theorem ascending_itemObjects (i : Nat) : (items : List Json) → EveryItem InOrder items →
    Ascending (itemObjects i items)
  | [], _ => .nil
  | v :: rest, h => by
    refine List.pairwise_append.2
      ⟨(ascending_objects v h.1).under _, ascending_itemObjects (i + 1) rest h.2, ?_⟩
    intro a inFirst b inRest
    obtain ⟨j, w, _, there⟩ := mem_itemObjects_iff.1 inRest
    have order : (Segment.index i).Before (.index (i + 1 + j)) := .index (by omega)
    exact comesBefore_of_mem_under order inFirst there

theorem ascending_memberObjects : (members : List (String × Json)) → Dict.Ordered members →
    EveryMember InOrder members → Ascending (memberObjects members)
  | [], _, _ => .nil
  | (name, v) :: rest, ordered, h => by
    obtain ⟨above, tail⟩ := Dict.ordered_cons.1 ordered
    refine List.pairwise_append.2
      ⟨(ascending_objects v h.1).under _, ascending_memberObjects rest tail h.2, ?_⟩
    intro a inFirst b inRest
    obtain ⟨e, he, there⟩ := mem_memberObjects_iff.1 inRest
    exact comesBefore_of_mem_under (.field (above e he)) inFirst there

end

end Json

/-! ### Words at places -/

/-- Of what is listed twice the first place decides, so words come in the order of their first places. The
induction is on the length: what is left of the list after a word has been taken out of it is shorter. -/
theorem pairwise_eraseDups {α β : Type} [BEq β] [LawfulBEq β] {r : α → α → Prop} :
    {l : List (α × β)} → l.Pairwise (fun a b => r a.1 b.1) →
      (l.map (·.2)).eraseDups.Pairwise fun word other =>
        ∃ a, (a, word) ∈ l ∧ ∀ b, (b, other) ∈ l → r a b
  | [], _ => .nil
  | (first, word) :: rest, h => by
    obtain ⟨least, tail⟩ := List.pairwise_cons.1 h
    have later : ((rest.map (·.2)).filter fun other => !other == word) =
        (rest.filter fun e => !e.2 == word).map (·.2) := List.filter_map
    rw [List.map_cons, List.eraseDups_cons, later]
    have differs {other : β} (inRest : other ∈ ((rest.filter fun e => !e.2 == word).map (·.2)).eraseDups) :
        other ≠ word := by
      obtain ⟨e, he, rfl⟩ := List.mem_map.1 (List.mem_eraseDups.1 inRest)
      simpa using (List.mem_filter.1 he).2
    refine List.pairwise_cons.2 ⟨?head, ?tail⟩
    case head =>
      intro other inRest
      refine ⟨first, List.mem_cons_self, fun b hb => ?_⟩
      rcases List.mem_cons.1 hb with same | hb
      · exact absurd (Prod.mk.inj same).2 (differs inRest)
      · exact least _ hb
    case tail =>
      have : (rest.filter fun e => !e.2 == word).length < rest.length + 1 :=
        Nat.lt_succ_of_le (List.length_filter_le ..)
      refine (pairwise_eraseDups (tail.filter _)).imp_of_mem ?_
      rintro one other - inRest ⟨a, ha, before⟩
      refine ⟨a, List.mem_cons_of_mem _ (List.mem_filter.1 ha).1, fun b hb => before b ?_⟩
      rcases List.mem_cons.1 hb with same | hb
      · exact absurd (Prod.mk.inj same).2 (differs inRest)
      · exact List.mem_filter.2 ⟨hb, by simpa using differs inRest⟩
termination_by l => l.length

namespace Validation

open Json (Everywhere InOrder objects itemObjects memberObjects under Ascending ComesBefore)
open Marker (comparisonKey versionKey)

/-- The word that an object compares by: "unknown" where no text says it. -/
def CalledBy (members : List (String × Json)) (word : String) : Prop :=
  Dict.get? comparisonKey members = some (.str word) ∨
    (∀ text, Dict.get? comparisonKey members ≠ some (.str text)) ∧ word = unnamed

/-- The object names a version later than `version`, and compares by `word`. -/
structure RefusedAs (version : Version) (members : List (String × Json)) (word : String) : Prop where
  later : ∃ text needed, Dict.get? versionKey members = some (.str text) ∧
    Version.read text = some needed ∧ version < needed
  called : CalledBy members word

/-- An object that is refused as `word` stands at a place of the value. -/
def RefusedAt (version : Version) (v : Json) (place : List Segment) (word : String) : Prop :=
  ∃ members, v.ObjectAt place members ∧ RefusedAs version members word

theorem bind_asText?_eq_some_iff {found : Option Json} {text : String} :
    found.bind Json.asText? = some text ↔ found = some (.str text) := by
  cases found with
  | none => simp
  | some v => cases v <;> simp [Json.asText?]

/-- An object is called by the text of its comparison, or has no name. -/
theorem getD_unnamed_eq_iff {members : List (String × Json)} {word : String} :
    ((Dict.get? comparisonKey members).bind Json.asText?).getD unnamed = word ↔
      CalledBy members word := by
  rw [CalledBy]
  cases found : (Dict.get? comparisonKey members).bind Json.asText? with
  | none =>
    have silent : ∀ text, Dict.get? comparisonKey members ≠ some (.str text) := fun text said =>
      Option.some_ne_none text ((bind_asText?_eq_some_iff.2 said).symm.trans found)
    rw [or_iff_right (silent word), and_iff_right silent]
    exact eq_comm
  | some text =>
    have said := bind_asText?_eq_some_iff.1 found
    simp [said]

/-- An object needs the version that its text names. -/
theorem needed?_eq_some_iff {members : List (String × Json)} {needed : Version} :
    needed? members = some needed ↔
      ∃ text, Dict.get? versionKey members = some (.str text) ∧ Version.read text = some needed := by
  rw [needed?, Option.bind_eq_some_iff]
  simp only [bind_asText?_eq_some_iff]

/-- The refusal of an object is the word that it is called by, if the version is below the one that it
needs. -/
theorem refusal?_eq_some_iff {version : Version} {members : List (String × Json)} {word : String} :
    refusal? version members = some word ↔ RefusedAs version members word := by
  have unfolded : refusal? version members = some word ↔
      ∃ needed, needed? members = some needed ∧ version < needed ∧ CalledBy members word := by
    rw [refusal?, needed?, ← getD_unnamed_eq_iff]
    split
    next needed found => simp [found]
    next none => simp [none]
  simp only [unfolded, needed?_eq_some_iff]
  constructor
  · rintro ⟨needed, ⟨text, said, reads⟩, newer, called⟩
    exact ⟨⟨text, needed, said, reads, newer⟩, called⟩
  · rintro ⟨⟨text, needed, said, reads, newer⟩, called⟩
    exact ⟨needed, ⟨text, said, reads⟩, newer, called⟩

/-- The words that `version` refuses, each with the place of its object. -/
def placed (version : Version) (objects : List (List Segment × List (String × Json))) :
    List (List Segment × String) :=
  objects.filterMap fun found => (refusal? version found.2).map (found.1, ·)

/-- Without their places, the refusals are those of the objects in turn. -/
theorem words_placed (version : Version) (objects : List (List Segment × List (String × Json))) :
    (placed version objects).map (·.2) = objects.filterMap fun found => refusal? version found.2 := by
  rw [placed, List.map_filterMap]
  congr
  funext found
  cases refusal? version found.2 <;> rfl

/-- The refusals that are placed are those of the objects at these places. -/
theorem mem_placed_iff {version : Version} {v : Json} {place : List Segment} {word : String} :
    (place, word) ∈ placed version v.objects ↔ RefusedAt version v place word := by
  rw [placed, List.mem_filterMap, RefusedAt]
  constructor
  · rintro ⟨⟨found, members⟩, there, kept⟩
    obtain ⟨called, refused, same⟩ := Option.map_eq_some_iff.1 kept
    obtain ⟨rfl, rfl⟩ := Prod.mk.inj same
    exact ⟨members, Json.mem_objects_iff.1 there, refusal?_eq_some_iff.1 refused⟩
  · rintro ⟨members, there, refused⟩
    exact ⟨(place, members), Json.mem_objects_iff.2 there, by rw [refusal?_eq_some_iff.2 refused]; rfl⟩

/-- Refusals keep the order of the objects. -/
theorem Ascending.placed {found : List (List Segment × List (String × Json))} (h : Ascending found)
    (version : Version) : Ascending (placed version found) := by
  refine List.pairwise_filterMap.2 (h.imp ?_)
  intro a b before x hx y hy
  obtain ⟨_, _, rfl⟩ := Option.map_eq_some_iff.1 hx
  obtain ⟨_, _, rfl⟩ := Option.map_eq_some_iff.1 hy
  exact before

mutual

/-- The refusals of a value are those of its objects. -/
theorem refusals_eq_filterMap (version : Version) : (v : Json) →
    refusals version v = v.objects.filterMap fun found => refusal? version found.2
  | .null | .bool _ | .num _ | .str _ => rfl
  | .arr items => itemRefusals_eq_filterMap version 0 items
  | .obj members => by
    rw [refusals, memberRefusals_eq_filterMap version members, objects, List.filterMap_cons]
    cases refusal? version members <;> rfl

theorem itemRefusals_eq_filterMap (version : Version) (i : Nat) : (items : List Json) →
    itemRefusals version items = (itemObjects i items).filterMap fun found => refusal? version found.2
  | [] => rfl
  | v :: rest => by
    rw [itemRefusals, refusals_eq_filterMap version v, itemRefusals_eq_filterMap version (i + 1) rest,
      itemObjects, List.filterMap_append, List.filterMap_map]
    rfl

theorem memberRefusals_eq_filterMap (version : Version) : (members : List (String × Json)) →
    memberRefusals version members =
      (memberObjects members).filterMap fun found => refusal? version found.2
  | [] => rfl
  | (name, v) :: rest => by
    rw [memberRefusals, refusals_eq_filterMap version v, memberRefusals_eq_filterMap version rest,
      memberObjects, List.filterMap_append, List.filterMap_map]
    rfl

end

/-- The refusals of a value are those of the objects in it, in the order of their places. -/
theorem refusals_eq_words (version : Version) (v : Json) :
    refusals version v = (placed version v.objects).map (·.2) :=
  (refusals_eq_filterMap version v).trans (words_placed version v.objects).symm

/-- A word is refused exactly if it is at some place. -/
theorem mem_refusals_iff {version : Version} {v : Json} {word : String} :
    word ∈ refusals version v ↔ ∃ place, RefusedAt version v place word := by
  rw [refusals_eq_words, List.mem_map]
  constructor
  · rintro ⟨⟨place, _⟩, there, rfl⟩
    exact ⟨place, mem_placed_iff.1 there⟩
  · rintro ⟨place, there⟩
    exact ⟨(place, word), mem_placed_iff.2 there, rfl⟩

/-- What a later version refuses, an earlier one refuses as well. -/
theorem RefusedAt.earlier {version later : Version} (order : ¬ later < version) {v : Json}
    {place : List Segment} {word : String} (h : RefusedAt later v place word) :
    RefusedAt version v place word := by
  obtain ⟨members, there, ⟨text, needed, said, reads, newer⟩, called⟩ := h
  have newer : version < needed := by
    change ¬ later.major < version.major at order
    change later.major < needed.major at newer
    change version.major < needed.major
    omega
  exact ⟨members, there, ⟨text, needed, said, reads, newer⟩, called⟩

/-- Of a value a scan reports every word as which an object is refused, each once and in the order of the first
places; the check passes exactly if there is none. What a later version refuses every earlier one refuses too,
so what an earlier version takes every later one takes. -/
theorem offending_of_inOrder (v : Json) (ordered : v.Everywhere InOrder) :
    (∀ version,
      (offending version v).Nodup ∧
      (∀ word, word ∈ offending version v ↔ ∃ place, RefusedAt version v place word) ∧
      (offending version v).Pairwise (fun word other =>
        ∃ first, RefusedAt version v first word ∧
          ∀ place, RefusedAt version v place other → ComesBefore first place) ∧
      (check version v).result =
        if offending version v = [] then .ok ()
        else .error (.specificationMismatch version (offending version v))) ∧
    ∀ version later, ¬ later < version →
      (∀ word ∈ offending later v, word ∈ offending version v) ∧
      ((check version v).result = .ok () → (check later v).result = .ok ()) := by
  have mem version word : word ∈ offending version v ↔ ∃ place, RefusedAt version v place word := by
    rw [offending_eq, List.mem_eraseDups, mem_refusals_iff]
  have passes version : (check version v).result =
      if offending version v = [] then .ok ()
      else .error (.specificationMismatch version (offending version v)) := by
    rw [result_check, offending_eq]
    simp only [eraseDups_eq_nil_iff]
  have accepts version : (check version v).result = .ok () ↔ offending version v = [] := by
    rw [passes]
    split
    next none => simp [none]
    next some => simp [some]
  refine ⟨fun version => ?reported, fun version later order => ?versions⟩
  case reported =>
    have inOrder := pairwise_eraseDups (Ascending.placed (Json.ascending_objects v ordered) version)
    rw [← refusals_eq_words, ← offending_eq] at inOrder
    simp only [mem_placed_iff] at inOrder
    refine ⟨inOrder.imp ?_, mem version, inOrder, passes version⟩
    rintro word _ ⟨first, refused, before⟩ rfl
    exact ComesBefore.irrefl first (before first refused)
  case versions =>
    have subset : ∀ word ∈ offending later v, word ∈ offending version v := fun word h =>
      (mem version word).2 (((mem later word).1 h).imp fun _ => RefusedAt.earlier order)
    refine ⟨subset, fun accepted => (accepts later).2 ?_⟩
    rw [(accepts version).1 accepted] at subset
    exact List.eq_nil_iff_forall_not_mem.2 fun word h => List.not_mem_nil (subset word h)

/-- Markers of three versions, that of the date met again behind one that version 3 refuses too, and one that
does not say in a text what it compares by. -/
def mixedMarkers : Json :=
  .arr
    [.obj [(comparisonKey, .str "date"), (versionKey, .str "3.0.0"),
        ("value", .obj [(comparisonKey, .str "include"), (versionKey, .str "v4")])],
      .obj [(comparisonKey, .int 1), (versionKey, .str "4"),
        ("value", .obj [(comparisonKey, .str "date"), (versionKey, .str "4.0")])]]

/-- Two versions report the same words in different orders. -/
theorem offending_mixedMarkers :
    mixedMarkers.Everywhere InOrder ∧
      offending .v2 mixedMarkers = ["date", "include", "unknown"] ∧
      offending .v3 mixedMarkers = ["include", "unknown", "date"] ∧
      (offending .v2 mixedMarkers).Pairwise (fun word other =>
        ∃ first, RefusedAt .v2 mixedMarkers first word ∧
          ∀ place, RefusedAt .v2 mixedMarkers place other → ComesBefore first place) ∧
      (∃ place, RefusedAt .v3 mixedMarkers place "date") ∧
      (∀ word ∈ offending .v3 mixedMarkers, word ∈ offending .v2 mixedMarkers) ∧
      (check .v4 mixedMarkers).result = .ok () := by
  have keys : Dict.Ordered [(comparisonKey, ()), (versionKey, ()), ("value", ())] := by
    unfold Dict.Ordered
    decide
  have outer (a b c : Json) : Dict.Ordered [(comparisonKey, a), (versionKey, b), ("value", c)] :=
    keys.of_keys rfl
  have inner (a b : Json) : Dict.Ordered [(comparisonKey, a), (versionKey, b)] :=
    List.Pairwise.sublist (.cons_cons _ (.cons_cons _ (List.nil_sublist _))) (outer a b .null)
  have ordered : mixedMarkers.Everywhere InOrder := by
    refine ⟨trivial, ⟨outer .., trivial, trivial, ?first, trivial⟩, ⟨outer .., trivial, trivial, ?second,
      trivial⟩, trivial⟩
    case first => exact ⟨inner .., trivial, trivial, trivial⟩
    case second => exact ⟨inner .., trivial, trivial, trivial⟩
  obtain ⟨reported, later⟩ := offending_of_inOrder mixedMarkers ordered
  obtain ⟨_, _, inOrder, _⟩ := reported .v2
  obtain ⟨_, words, _, _⟩ := reported .v3
  obtain ⟨_, _, _, passes⟩ := reported .v4
  have three : offending .v3 mixedMarkers = ["include", "unknown", "date"] := by rfl
  have newer : ¬ Version.v3 < .v2 := by decide
  refine ⟨ordered, by rfl, three, inOrder, (words "date").1 ?_, (later .v2 .v3 newer).1, passes⟩
  rw [three]
  simp

end Validation

end ConsumerContract
