import ConsumerContract.Proofs.Readers

/-!
# The order of members

An object says the same in whatever order its members stand, and so do the objects inside it:
`Json.Reorders`. A reader of rules must not care about that order, for the one who writes a document may
keep the members as they come or sort them by their keys. `Json.ReadsAs` says of a document that it is read
as a value however its members are ordered, and is put together along lists, dictionaries, records and
tagged alternatives. Records need that different slots do not disturb each other: `Slot.Independent`.
-/

namespace ConsumerContract

namespace Json

mutual

/-- `w` is `v` with the members of its objects in any order. -/
def Reorders : (v w : Json) → Prop
  | .arr items, w => ∃ others, w = .arr others ∧ ReordersItems items others
  | .obj members, w =>
    ∃ others moved, w = .obj moved ∧ ReordersMembers members others ∧ others.Perm moved
  | v, w => w = v

/-- `Reorders` on every item. -/
def ReordersItems : List Json → List Json → Prop
  | [], others => others = []
  | v :: rest, others => ∃ w more, others = w :: more ∧ v.Reorders w ∧ ReordersItems rest more

/-- `Reorders` on the value of every member. -/
def ReordersMembers : List (String × Json) → List (String × Json) → Prop
  | [], others => others = []
  | (k, v) :: rest, others =>
    ∃ w more, others = (k, w) :: more ∧ v.Reorders w ∧ ReordersMembers rest more

end

mutual

theorem Reorders.refl : (v : Json) → v.Reorders v
  | .null | .bool _ | .num _ | .str _ => rfl
  | .arr items => ⟨items, rfl, ReordersItems.refl items⟩
  | .obj members => ⟨members, members, rfl, ReordersMembers.refl members, .refl _⟩

theorem ReordersItems.refl : (items : List Json) → ReordersItems items items
  | [] => rfl
  | v :: rest => ⟨v, rest, rfl, Reorders.refl v, ReordersItems.refl rest⟩

theorem ReordersMembers.refl : (members : List (String × Json)) → ReordersMembers members members
  | [] => rfl
  | (_, v) :: rest => ⟨v, rest, rfl, Reorders.refl v, ReordersMembers.refl rest⟩

end

/-- Members keep their names when their values are reordered. -/
theorem ReordersMembers.keys {members others : List (String × Json)}
    (h : ReordersMembers members others) : others.map (·.1) = members.map (·.1) := by
  induction members generalizing others with
  | nil => rw [h]
  | cons e rest ih =>
    obtain ⟨w, more, rfl, _, later⟩ := h
    exact congrArg (e.1 :: ·) (ih later)

/-- Members whose values hold no objects can only be moved. -/
theorem ReordersMembers.eq_of_fixed {members others : List (String × Json)}
    (fixed : ∀ e ∈ members, ∀ w, e.2.Reorders w → w = e.2) (h : ReordersMembers members others) :
    others = members := by
  induction members generalizing others with
  | nil => exact h
  | cons e rest ih =>
    obtain ⟨w, more, rfl, first, later⟩ := h
    rw [ih (fun f hf => fixed f (List.mem_cons_of_mem _ hf)) later, fixed e List.mem_cons_self w first]

/-! ### Canonical form -/

/-- No two members of an object have one key. -/
def DistinctKeys : Json → Prop
  | .obj members => (members.map (·.1)).Nodup
  | _ => True

theorem map_fst_canonicalMembers (members : List (String × Json)) :
    (canonicalMembers members).map (·.1) = members.map (·.1) := by
  rw [canonicalMembers_eq, Dict.mapValues, List.map_map]
  rfl

mutual

/-- The canonical form is one of the orders, as no member gets lost. -/
theorem reorders_canonical : (v : Json) → v.Everywhere DistinctKeys → v.Reorders v.canonical
  | .null, _ | .bool _, _ | .num _, _ | .str _, _ => rfl
  | .arr items, distinct => ⟨_, rfl, reordersItems_canonicalItems items distinct.2⟩
  | .obj members, distinct => by
    have keys : ((canonicalMembers members).map (·.1)).Nodup := by
      rw [map_fst_canonicalMembers]
      exact distinct.1
    exact ⟨_, _, rfl, reordersMembers_canonicalMembers members distinct.2, (Dict.ofList_perm keys).symm⟩

theorem reordersItems_canonicalItems : (items : List Json) → EveryItem DistinctKeys items →
    ReordersItems items (canonicalItems items)
  | [], _ => rfl
  | v :: rest, distinct =>
    ⟨_, _, rfl, reorders_canonical v distinct.1, reordersItems_canonicalItems rest distinct.2⟩

theorem reordersMembers_canonicalMembers : (members : List (String × Json)) →
    EveryMember DistinctKeys members → ReordersMembers members (canonicalMembers members)
  | [], _ => rfl
  | (_, v) :: rest, distinct =>
    ⟨_, _, rfl, reorders_canonical v distinct.1, reordersMembers_canonicalMembers rest distinct.2⟩

end

/-! ### Depth -/

/-- The order of members does not count for the height. -/
theorem Source.heightMembers_perm {members moved : List (String × Json)} (h : members.Perm moved) :
    heightMembers (ofMembers moved) = heightMembers (ofMembers members) := by
  induction h with
  | nil => rfl
  | cons e _ ih => simp only [ofMembers, heightMembers, ih]
  | swap e f rest => exact Nat.max_left_comm ..
  | trans _ _ ih₁ ih₂ => exact ih₂.trans ih₁

open Source in
mutual

/-- The order of members has no bearing on the depth. -/
theorem Reorders.height_eq : (v : Json) → {w : Json} → v.Reorders w →
    (ofJson w).height = (ofJson v).height
  | .null, _, h | .bool _, _, h | .num _, _, h | .str _, _, h => by rw [h]
  | .arr items, _, ⟨others, shape, inside⟩ => by
    rw [shape, ofJson, height, ReordersItems.heightItems_eq items inside, ofJson, height]
  | .obj members, _, ⟨others, moved, shape, inside, perm⟩ => by
    rw [shape, ofJson, height, heightMembers_perm perm, ReordersMembers.heightMembers_eq members inside,
      ofJson, height]

theorem ReordersItems.heightItems_eq : (items : List Json) → {others : List Json} →
    ReordersItems items others → heightItems (ofItems others) = heightItems (ofItems items)
  | [], _, h => by rw [h]
  | v :: rest, _, ⟨w, more, shape, first, later⟩ => by
    rw [shape, ofItems, heightItems, Reorders.height_eq v first, ReordersItems.heightItems_eq rest later,
      ofItems, heightItems]

theorem ReordersMembers.heightMembers_eq : (members : List (String × Json)) →
    {others : List (String × Json)} → ReordersMembers members others →
    heightMembers (ofMembers others) = heightMembers (ofMembers members)
  | [], _, h => by rw [h]
  | (_, v) :: rest, _, ⟨w, more, shape, first, later⟩ => by
    rw [shape, ofMembers, heightMembers, Reorders.height_eq v first,
      ReordersMembers.heightMembers_eq rest later, ofMembers, heightMembers]

end

/-- The order of members does not count for the depth. -/
theorem Reorders.depth_eq {v w : Json} (h : v.Reorders w) : w.depth = v.depth :=
  Reorders.height_eq v h

/-! ### Reading in any order -/

section

open Source

variable {α β σ τ : Type}

/-- The document `v` is read as `a` in whatever order the members of its objects stand. -/
def ReadsAs (decode : Source → Except Failure α) (v : Json) (a : α) : Prop :=
  ∀ w, v.Reorders w → decode (ofJson w) = .ok a

/-- What is read in any order is read as it was written. -/
theorem ReadsAs.document {decode : Source → Except Failure α} {v : Json} {a : α}
    (h : ReadsAs decode v a) : decode (ofJson v) = .ok a :=
  h v (.refl v)

theorem readsAs_text (s : String) : ReadsAs asText (.str s) s := by
  rintro w rfl
  exact asText_ofJson s

theorem readsAs_UInt64 (n : UInt64) : ReadsAs asUInt64 (.ofUInt64 n) n := by
  rintro w rfl
  exact asUInt64_ofJson n

theorem eachItem_of_reorders {decode : Source → Except Failure α} {write : α → Json} {as : List α}
    (reads : ∀ a ∈ as, ReadsAs decode (write a) a) {others : List Json}
    (h : ReordersItems (as.map write) others) : eachItem decode (ofItems others) = .ok as := by
  induction as generalizing others with
  | nil =>
    rw [List.map_nil, ReordersItems] at h
    rw [h]
    rfl
  | cons a rest ih =>
    obtain ⟨w, more, rfl, first, later⟩ := h
    have others := ih (fun b hb => reads b (List.mem_cons_of_mem _ hb)) later
    rw [ofItems, eachItem, reads a List.mem_cons_self w first, others]
    rfl

/-- A list is read in any order if its items are. -/
theorem readsAs_list {decode : Source → Except Failure α} {write : α → Json} {as : List α}
    (reads : ∀ a ∈ as, ReadsAs decode (write a) a) :
    ReadsAs (asList decode) (.arr (as.map write)) as := by
  rintro w ⟨others, rfl, inside⟩
  rw [ofJson, asList, eachItem_of_reorders reads inside]
  rfl

/-! ### Dictionaries -/

theorem eachMember_of_reorders {decode : Source → Except Failure α} {write : α → Json}
    {d : List (String × α)} (reads : ∀ e ∈ d, ReadsAs decode (write e.2) e.2)
    {others : List (String × Json)} (h : ReordersMembers (Dict.mapValues write d) others) :
    eachMember decode (ofMembers others) = .ok d := by
  induction d generalizing others with
  | nil =>
    change others = [] at h
    rw [h]
    rfl
  | cons e rest ih =>
    obtain ⟨w, more, rfl, first, later⟩ := h
    have others := ih (fun b hb => reads b (List.mem_cons_of_mem _ hb)) later
    rw [ofMembers, eachMember, reads e List.mem_cons_self w first, others]
    rfl

/-- Members in another order are read to entries in another order. -/
theorem eachMember_perm {decode : Source → Except Failure α} {members moved : List (String × Json)}
    (perm : members.Perm moved) {d : List (String × α)}
    (h : eachMember decode (ofMembers members) = .ok d) :
    ∃ e, eachMember decode (ofMembers moved) = .ok e ∧ d.Perm e := by
  have step {key : String} {v : Json} {rest : List (String × Json)} {d : List (String × α)} :
      eachMember decode (ofMembers ((key, v) :: rest)) = .ok d ↔
        ∃ a d', decode (ofJson v) = .ok a ∧ eachMember decode (ofMembers rest) = .ok d' ∧
          d = (key, a) :: d' := by
    rw [ofMembers, eachMember]
    cases decode (ofJson v) with
    | error => simp
    | ok a => cases eachMember decode (ofMembers rest) <;> simp [Except.map, eq_comm]
  induction perm generalizing d with
  | nil => exact ⟨d, h, .refl d⟩
  | cons e _ ih =>
    obtain ⟨a, d', first, later, rfl⟩ := step.1 h
    obtain ⟨e', read, perm⟩ := ih later
    exact ⟨_, step.2 ⟨a, e', first, read, rfl⟩, perm.cons _⟩
  | swap e f rest =>
    obtain ⟨a, _, first, later, rfl⟩ := step.1 h
    obtain ⟨b, d', second, rest, rfl⟩ := step.1 later
    exact ⟨_, step.2 ⟨b, _, second, step.2 ⟨a, d', first, rest, rfl⟩, rfl⟩, .swap ..⟩
  | trans _ _ ih₁ ih₂ =>
    obtain ⟨e, read, first⟩ := ih₁ h
    obtain ⟨e', read', second⟩ := ih₂ read
    exact ⟨e', read', first.trans second⟩

end

end Json

/-- A dictionary is filled the same whatever the order of its entries. -/
theorem Dict.ofList_of_perm {α : Type} {d entries : List (String × α)} (ordered : Ordered d)
    (perm : d.Perm entries) : ofList entries = d := by
  have distinct : (entries.map (·.1)).Nodup := (perm.map _).nodup_iff.1 ordered.nodup_keys
  have same : (ofList entries).Perm d := (ofList_perm distinct).trans perm.symm
  apply same.eq_of_pairwise _ (ordered_ofList entries) ordered
  intro a b _ _ below above
  exact absurd (Std.lt_trans below above) Std.lt_irrefl

namespace Json

section

open Source

variable {α β σ τ : Type}

/-- A dictionary is read in any order if its values are, for it puts the entries in order itself. -/
theorem readsAs_dict {decode : Source → Except Failure α} {write : α → Json} {d : List (String × α)}
    (ordered : Dict.Ordered d) (reads : ∀ e ∈ d, ReadsAs decode (write e.2) e.2) :
    ReadsAs (asDict decode) (.obj (Dict.mapValues write d)) d := by
  rintro w ⟨others, moved, rfl, inside, perm⟩
  obtain ⟨entries, read, same⟩ := eachMember_perm perm (eachMember_of_reorders reads inside)
  rw [ofJson, asDict, read]
  show Except.ok (Dict.ofList entries) = _
  rw [Dict.ofList_of_perm ordered same]

/-! ### Records -/

/-- What fills `s` does not disturb `t`: it leaves it as full as it was, and can just as well come later. -/
structure Source.Slot.Independent (s t : Slot σ) : Prop where
  filled : ∀ v r r', s.fill v r = .ok r' → t.filled r' = t.filled r
  later : ∀ v w r r₁ r₂, s.fill v r = .ok r₁ → t.fill w r₁ = .ok r₂ →
    ∃ r', t.fill w r = .ok r' ∧ s.fill v r' = .ok r₂

/-- Fields that are written apart from each other have independent slots. -/
theorem independent_slot {name other : String} {decode : Source → Except Failure α}
    {decode' : Source → Except Failure β} {get : σ → Option α} {get' : σ → Option β}
    {set : α → σ → σ} {set' : β → σ → σ} (apart : ∀ a r, get' (set a r) = get' r)
    (exchange : ∀ a b r, set' b (set a r) = set a (set' b r)) :
    (slot name decode get set).Independent (slot other decode' get' set') where
  filled v r r' h := by
    change (decode v).map _ = _ at h
    cases read : decode v with
    | error => rw [read] at h; cases h
    | ok a =>
      rw [read] at h
      cases h
      exact congrArg Option.isSome (apart a r)
  later v w r r₁ r₂ first second := by
    change (decode v).map _ = _ at first
    change (decode' w).map _ = _ at second
    cases read : decode v with
    | error => rw [read] at first; cases first
    | ok a =>
      cases read' : decode' w with
      | error => rw [read'] at second; cases second
      | ok b =>
        rw [read] at first
        rw [read'] at second
        cases first
        cases second
        refine ⟨set' b r, ?_, ?_⟩
        · show (decode' w).map _ = _
          rw [read']
          rfl
        · show (decode v).map _ = _
          rw [read]
          exact congrArg Except.ok (exchange a b r).symm

/-- Members that set different fields may be read in either order. -/
theorem independent_slots {name other : String} {decode : Source → Except Failure α}
    {decode' : Source → Except Failure β} {get : σ → Option α} {get' : σ → Option β}
    {set : α → σ → σ} {set' : β → σ → σ} (apart : ∀ a r, get' (set a r) = get' r)
    (apart' : ∀ b r, get (set' b r) = get r)
    (exchange : ∀ a b r, set' b (set a r) = set a (set' b r)) :
    (slot name decode get set).Independent (slot other decode' get' set') ∧
      (slot other decode' get' set').Independent (slot name decode get set) :=
  ⟨independent_slot apart exchange, independent_slot apart' fun b a r => (exchange a b r).symm⟩

/-- Slots of different names are independent. -/
def Source.IndependentSlots (slots : List (Slot σ)) : Prop :=
  ∀ s ∈ slots, ∀ t ∈ slots, s.name ≠ t.name → s.Independent t

theorem independentSlots_nil : IndependentSlots ([] : List (Slot σ)) :=
  fun _ hs => absurd hs List.not_mem_nil

theorem Source.IndependentSlots.cons {s : Slot σ} {slots : List (Slot σ)}
    (head : ∀ t ∈ slots, s.Independent t ∧ t.Independent s) (tail : IndependentSlots slots) :
    IndependentSlots (s :: slots) := by
  intro t ht u hu names
  rcases List.mem_cons.1 ht with rfl | inT
  · rcases List.mem_cons.1 hu with rfl | inU
    · exact absurd rfl names
    · exact (head u inU).1
  · rcases List.mem_cons.1 hu with rfl | inU
    · exact (head t inT).2
    · exact tail t inT u inU names

/-- Of members the first one fills its slot, if there is one, and then the others fill theirs. -/
theorem fillMembers_cons_eq_ok_iff {slots : List (Slot σ)} {key : String} {v : Json}
    {rest : List (String × Json)} {r r' : σ} :
    fillMembers slots (ofMembers ((key, v) :: rest)) r = .ok r' ↔
      match slots.find? (·.name == key) with
      | none => (ofJson v).skip = none ∧ fillMembers slots (ofMembers rest) r = .ok r'
      | some s => s.filled r = false ∧
        ∃ r₁, s.fill (ofJson v) r = .ok r₁ ∧ fillMembers slots (ofMembers rest) r₁ = .ok r' := by
  rw [ofMembers, fillMembers]
  cases slots.find? (·.name == key) with
  | none => cases (ofJson v).skip <;> simp
  | some s =>
    cases full : s.filled r with
    | true => simp [full]
    | false => cases filled : s.fill (ofJson v) r <;> simp [full, filled]

/-- A record is filled the same in whatever order its members come. -/
theorem fillMembers_perm {slots : List (Slot σ)} (independent : IndependentSlots slots)
    {members moved : List (String × Json)} (perm : members.Perm moved)
    (distinct : (members.map (·.1)).Nodup) {r r' : σ}
    (h : fillMembers slots (ofMembers members) r = .ok r') :
    fillMembers slots (ofMembers moved) r = .ok r' := by
  induction perm generalizing r with
  | nil => exact h
  | cons e _ ih =>
    have rest := (List.nodup_cons.1 distinct).2
    rw [fillMembers_cons_eq_ok_iff] at h ⊢
    split at h
    · exact ⟨h.1, ih rest h.2⟩
    · obtain ⟨free, r₁, first, later⟩ := h
      exact ⟨free, r₁, first, ih rest later⟩
  | swap e f rest =>
    obtain ⟨l, w⟩ := e
    obtain ⟨k, v⟩ := f
    have apart : k ≠ l := by
      rintro rfl
      exact (List.nodup_cons.1 distinct).1 List.mem_cons_self
    simp only [fillMembers_cons_eq_ok_iff] at h ⊢
    cases slotK : slots.find? (·.name == k) with
    | none =>
      cases slotL : slots.find? (·.name == l) with
      | none =>
        simp only [slotK, slotL] at h ⊢
        exact ⟨h.2.1, h.1, h.2.2⟩
      | some t =>
        simp only [slotK, slotL] at h ⊢
        obtain ⟨passed, free, r₁, first, later⟩ := h
        exact ⟨free, r₁, first, passed, later⟩
    | some s =>
      cases slotL : slots.find? (·.name == l) with
      | none =>
        simp only [slotK, slotL] at h ⊢
        obtain ⟨free, r₁, first, passed, later⟩ := h
        exact ⟨passed, free, r₁, first, later⟩
      | some t =>
        simp only [slotK, slotL] at h ⊢
        have nameK : s.name = k := by simpa using List.find?_some slotK
        have nameL : t.name = l := by simpa using List.find?_some slotL
        have names : s.name ≠ t.name := by rwa [nameK, nameL]
        have memS := List.mem_of_find?_eq_some slotK
        have memT := List.mem_of_find?_eq_some slotL
        have forth := independent s memS t memT names
        have back := independent t memT s memS names.symm
        obtain ⟨freeS, r₁, first, freeT, r₂, second, later⟩ := h
        obtain ⟨r₃, second', first'⟩ := forth.later _ _ _ _ _ first second
        refine ⟨?_, r₃, second', ?_, r₂, first', later⟩
        · rw [← forth.filled _ _ _ first, freeT]
        · rw [back.filled _ _ _ second', freeS]
  | trans first _ ih₁ ih₂ =>
    have keys := (first.map (·.1)).nodup_iff.1 distinct
    exact ih₂ keys (ih₁ distinct h)

/-- An object is read as a record if its members are, in some order, those that fill the record. -/
theorem asRecord_of_reorders (held : Bool) {slots : List (Slot σ)} (independent : IndependentSlots slots)
    {members : List (String × Json)} (distinct : (members.map (·.1)).Nodup) {start r : σ}
    (fills : ∀ others, ReordersMembers members others → fillMembers slots (ofMembers others) start = .ok r)
    {w : Json} (h : (Json.obj members).Reorders w) : asRecord held slots start (ofJson w) = .ok r := by
  obtain ⟨others, moved, rfl, inside, perm⟩ := h
  have keys : (others.map (·.1)).Nodup := by rwa [inside.keys]
  rw [asRecord_ofJson, fillMembers_perm independent perm keys (fills others inside)]

/-- An object of one member is read in any order if the value is. -/
theorem readsAs_single (held : Bool) (name : String) {decode : Source → Except Failure α} {v : Json}
    {a : α} (reads : ReadsAs decode v a) :
    ReadsAs (asSingle held name decode) (.obj [(name, v)]) a := by
  rintro w ⟨others, moved, rfl, ⟨u, more, rfl, inside, rfl⟩, perm⟩
  rw [← List.singleton_perm.1 perm]
  exact asSingle_ofMembers held name (reads u inside)

/-! ### Tags -/

/-- Before the tag, and after it, the other members are kept as they are. -/
theorem splitTag_append (held : Bool) (names : List (String × τ)) {key : String}
    {before : List (String × Json)} (others : ∀ e ∈ before, e.1 ≠ key) {after : List (String × Json)}
    {found tag : Option τ} {rest : List (String × Json)}
    (h : splitTag held key names (ofMembers after) found = .ok (tag, ofMembers rest)) :
    splitTag held key names (ofMembers (before ++ after)) found =
      .ok (tag, ofMembers (before ++ rest)) := by
  induction before with
  | nil => exact h
  | cons e more ih =>
    obtain ⟨k, v⟩ := e
    have apart : k ≠ key := others (k, v) List.mem_cons_self
    have later := ih fun f hf => others f (List.mem_cons_of_mem _ hf)
    rw [List.cons_append, ofMembers, splitTag, if_neg apart, read_ofJson, later]
    rfl

/-- Wherever the tag stands, what is left are the other members. -/
theorem asTagged_of_reorders (held : Bool) {key word : String} {names : List (String × τ)}
    {details : List (String × Json)} {tag : τ} (known : Dict.get? word names = some tag)
    (apart : ∀ e ∈ details, e.1 ≠ key) {w : Json}
    (h : (Json.obj ((key, .str word) :: details)).Reorders w) :
    ∃ rest, asTagged held key names (ofJson w) = .ok (tag, ofJson rest) ∧
      (Json.obj details).Reorders rest := by
  obtain ⟨_, moved, rfl, ⟨_, others, rfl, rfl, inside⟩, perm⟩ := h
  obtain ⟨before, after, rfl⟩ := List.append_of_mem (perm.subset List.mem_cons_self)
  have left : others.Perm (before ++ after) := (perm.trans List.perm_middle).cons_inv
  have free : ∀ e ∈ before ++ after, e.1 ≠ key := by
    intro e he same
    have named : e.1 ∈ others.map (·.1) := List.mem_map_of_mem (left.symm.subset he)
    rw [inside.keys] at named
    obtain ⟨d, hd, same'⟩ := List.mem_map.1 named
    exact apart d hd (same'.trans same)
  obtain ⟨freeBefore, freeAfter⟩ := List.forall_mem_append.1 free
  have tagged : splitTag held key names (ofMembers ((key, .str word) :: after)) none =
      .ok (some tag, ofMembers after) := by
    have word_tag : asTag held names (ofJson (.str word)) = .ok tag := by
      show named names word = _
      rw [named, known]
    rw [ofMembers, splitTag, if_pos rfl, word_tag]
    exact splitTag_ofMembers held names freeAfter (some tag)
  refine ⟨.obj (before ++ after), ?_, others, before ++ after, rfl, inside, left⟩
  rw [ofJson, asTagged, splitTag_append held names freeBefore tagged]
  rfl

end

end Json

end ConsumerContract
