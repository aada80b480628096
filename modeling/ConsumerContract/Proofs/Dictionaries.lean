import ConsumerContract.Dict

/-!
# Facts about dictionaries

`Dict.insert` keeps `Dict.Ordered`, so every dictionary that is filled from nothing is ordered. In an
ordered dictionary an entry is found exactly if it is there, and filling from its own entries gives the
same dictionary again: `ofList_of_ordered` is what makes a document read back as it was written.
-/

namespace ConsumerContract.Dict

variable {α β : Type}

/-! ### Order -/

theorem ordered_nil : Ordered ([] : List (String × α)) :=
  List.Pairwise.nil

/-- A dictionary is in order exactly if its first name stands below all others, and these are in order. -/
theorem ordered_cons {e : String × α} {d : List (String × α)} :
    Ordered (e :: d) ↔ (∀ a ∈ d, e.1 < a.1) ∧ Ordered d :=
  List.pairwise_cons

theorem ordered_singleton (e : String × α) : Ordered [e] :=
  List.pairwise_singleton _ _

theorem mem_of_mem_insert {key : String} {value : α} {e : String × α} {d : List (String × α)}
    (h : e ∈ insert key value d) : e = (key, value) ∨ e ∈ d := by
  induction d with
  | nil => simpa [insert] using h
  | cons head rest ih =>
    obtain ⟨k, v⟩ := head
    rw [insert] at h
    split at h
    · simpa using h
    · split at h
      · rcases List.mem_cons.1 h with h | h
        · exact .inl h
        · exact .inr (List.mem_cons_of_mem _ h)
      · rcases List.mem_cons.1 h with rfl | h
        · exact .inr (by simp)
        · exact (ih h).imp id (List.mem_cons_of_mem _)

/-- A new entry goes where its key belongs. -/
theorem Ordered.insert {d : List (String × α)} (h : Ordered d) (key : String) (value : α) :
    Ordered (Dict.insert key value d) := by
  induction d with
  | nil => exact ordered_singleton _
  | cons head rest ih =>
    obtain ⟨k, v⟩ := head
    obtain ⟨above, tail⟩ := ordered_cons.1 h
    rw [Dict.insert]
    split
    next below =>
      have least : ∀ a ∈ (k, v) :: rest, key < a.1 := by
        intro a ha
        rcases List.mem_cons.1 ha with rfl | ha
        · exact below
        · exact Std.lt_trans below (above a ha)
      exact ordered_cons.2 ⟨least, h⟩
    next below =>
      split
      next same => exact ordered_cons.2 ⟨fun a ha => same ▸ above a ha, tail⟩
      next other =>
        have least : ∀ a ∈ Dict.insert key value rest, k < a.1 := by
          intro a ha
          rcases mem_of_mem_insert ha with rfl | ha
          · exact Std.lt_of_le_of_ne (Std.not_lt.1 below) (Ne.symm other)
          · exact above a ha
        exact ordered_cons.2 ⟨least, ih tail⟩

theorem Ordered.insertNew {d : List (String × α)} (h : Ordered d) (key : String) (value : α) :
    Ordered (Dict.insertNew key value d) := by
  rw [Dict.insertNew]
  split
  · exact h
  · exact h.insert key value

theorem Ordered.insertAll {d : List (String × α)} (h : Ordered d) (entries : List (String × α)) :
    Ordered (Dict.insertAll d entries) := by
  induction entries generalizing d with
  | nil => exact h
  | cons e rest ih => exact ih (h.insert e.1 e.2)

theorem ordered_ofList (entries : List (String × α)) : Ordered (ofList entries) :=
  ordered_nil.insertAll entries

theorem Ordered.mapValues {d : List (String × α)} (h : Ordered d) (f : α → β) :
    Ordered (Dict.mapValues f d) :=
  List.pairwise_map.2 h

/-- Order is a matter of the keys. -/
theorem Ordered.of_keys {d : List (String × α)} {e : List (String × β)} (h : Ordered d)
    (same : e.map (·.1) = d.map (·.1)) : Ordered e := by
  have keys : (d.map (·.1)).Pairwise (· < ·) := List.pairwise_map.2 h
  rw [← same] at keys
  exact List.pairwise_map.1 keys

theorem mem_of_mem_insertNew {key : String} {value : α} {e : String × α} {d : List (String × α)}
    (h : e ∈ insertNew key value d) : e = (key, value) ∨ e ∈ d := by
  rw [insertNew] at h
  split at h
  · exact .inr h
  · exact mem_of_mem_insert h

theorem mem_of_mem_insertAll {e : String × α} {d entries : List (String × α)}
    (h : e ∈ insertAll d entries) : e ∈ d ∨ e ∈ entries := by
  induction entries generalizing d with
  | nil => exact .inl h
  | cons head rest ih =>
    rcases ih h with h | h
    · rcases mem_of_mem_insert h with rfl | h
      · exact .inr (by simp)
      · exact .inl h
    · exact .inr (List.mem_cons_of_mem _ h)

/-- A dictionary of entries has no others. -/
theorem mem_of_mem_ofList {e : String × α} {entries : List (String × α)}
    (h : e ∈ ofList entries) : e ∈ entries := by
  rcases mem_of_mem_insertAll h with h | h
  · exact absurd h List.not_mem_nil
  · exact h

/-! ### Looking up -/

theorem mem_of_get? {key : String} {value : α} {d : List (String × α)}
    (h : get? key d = some value) : (key, value) ∈ d := by
  induction d with
  | nil => simp [get?] at h
  | cons e rest ih =>
    obtain ⟨k, v⟩ := e
    rw [get?] at h
    split at h
    next same =>
      obtain rfl := Option.some.inj h
      simp [same]
    next => exact List.mem_cons_of_mem _ (ih h)

/-- In a dictionary in order, every entry is found under its name. -/
theorem get?_of_mem {key : String} {value : α} {d : List (String × α)} (ordered : Ordered d)
    (h : (key, value) ∈ d) : get? key d = some value := by
  induction d with
  | nil => simp at h
  | cons e rest ih =>
    obtain ⟨k, v⟩ := e
    obtain ⟨above, tail⟩ := ordered_cons.1 ordered
    rcases List.mem_cons.1 h with same | h
    · simp only [Prod.mk.injEq] at same
      simp [get?, same]
    · have apart : ¬ key = k := fun same => Std.lt_irrefl (same ▸ above _ h)
      simp [get?, apart, ih tail h]

/-- A key has one value. -/
theorem eq_of_mem {key : String} {value other : α} {d : List (String × α)} (ordered : Ordered d)
    (h : (key, value) ∈ d) (h' : (key, other) ∈ d) : value = other :=
  Option.some.inj ((get?_of_mem ordered h).symm.trans (get?_of_mem ordered h'))

/-- Nothing is found under a name exactly if no entry has it. -/
theorem get?_eq_none_iff {key : String} {d : List (String × α)} :
    get? key d = none ↔ ∀ e ∈ d, e.1 ≠ key := by
  constructor
  · intro absent e he same
    induction d with
    | nil => simp at he
    | cons head rest ih =>
      rw [get?] at absent
      split at absent
      next => simp at absent
      next other =>
        rcases List.mem_cons.1 he with rfl | he
        · exact other same.symm
        · exact ih absent he
  · intro absent
    apply Option.eq_none_iff_forall_ne_some.2
    intro value found
    exact absent _ (mem_of_get? found) rfl

/-- A dictionary has a name exactly if something is found under it. -/
theorem has_iff {key : String} {d : List (String × α)} :
    has key d = true ↔ ∃ value, get? key d = some value := by
  rw [has, Option.isSome_iff_exists]

theorem has_of_mem {e : String × α} {d : List (String × α)} (h : e ∈ d) : has e.1 d = true :=
  Option.isSome_iff_ne_none.2 fun absent => get?_eq_none_iff.1 absent e h rfl

/-- What was put under a name is found there, and nothing else changes. -/
theorem get?_insert (key other : String) (value : α) (d : List (String × α)) :
    get? other (insert key value d) = if other = key then some value else get? other d := by
  split
  next same => rw [same, get?_insert_self]
  next apart => exact get?_insert_of_ne apart value d

/-- Of two values that are put under one key the later stays. -/
theorem insert_insert (key : String) (value other : α) (d : List (String × α)) :
    insert key other (insert key value d) = insert key other d := by
  have again (rest : List (String × α)) : insert key other ((key, value) :: rest) = (key, other) :: rest := by
    rw [insert, if_neg Std.lt_irrefl, if_pos rfl]
  induction d with
  | nil => exact again []
  | cons e rest ih =>
    obtain ⟨k, v⟩ := e
    by_cases below : key < k
    · rw [insert, if_pos below, again, insert, if_pos below]
    by_cases same : key = k
    · rw [insert, if_neg below, if_pos same, again, insert, if_neg below, if_pos same]
    · rw [insert, if_neg below, if_neg same, insert, if_neg below, if_neg same, ih, insert, if_neg below,
        if_neg same]

theorem insertAll_append (d as bs : List (String × α)) :
    insertAll d (as ++ bs) = insertAll (insertAll d as) bs :=
  List.foldl_append

/-- Entries under other names change nothing under a name. -/
theorem get?_insertAll_of_forall_ne {key : String} {d entries : List (String × α)}
    (h : ∀ e ∈ entries, e.1 ≠ key) : get? key (insertAll d entries) = get? key d := by
  induction entries generalizing d with
  | nil => rfl
  | cons e rest ih =>
    have head : key ≠ e.1 := fun same => h e (by simp) same.symm
    exact (ih fun a ha => h a (List.mem_cons_of_mem _ ha)).trans (get?_insert_of_ne head _ _)

/-- The last entry of a key decides. -/
theorem get?_ofList_split {key : String} (before : List (String × α)) (value : α)
    {after : List (String × α)} (h : ∀ e ∈ after, e.1 ≠ key) :
    get? key (ofList (before ++ (key, value) :: after)) = some value := by
  rw [ofList, insertAll_append, insertAll, List.foldl_cons]
  exact (get?_insertAll_of_forall_ne h).trans (get?_insert_self key value _)

/-- The entries of a list, put in on top of what is there. -/
theorem get?_insertAll_eq_or (key : String) (d entries : List (String × α)) :
    get? key (insertAll d entries) = (get? key (ofList entries)).or (get? key d) := by
  induction entries generalizing d with
  | nil => rfl
  | cons e rest ih =>
    have top : get? key (ofList (e :: rest)) = (get? key (ofList rest)).or (get? key [e]) := ih [e]
    have both : get? key (insertAll d (e :: rest)) =
        (get? key (ofList rest)).or (get? key (insert e.1 e.2 d)) := ih _
    rw [top, both, get?_insert, Option.or_assoc, get?]
    split <;> rfl

/-- An entry is added only where there was none. -/
theorem get?_insertNew (key other : String) (value : α) (d : List (String × α)) :
    get? other (insertNew key value d) =
      (get? other d).or (if other = key then some value else none) := by
  rw [insertNew]
  split
  next present =>
    obtain ⟨old, found⟩ := has_iff.1 present
    split
    next same => rw [same, found, Option.some_or]
    next => rw [Option.or_none]
  next absent =>
    rw [get?_insert]
    split
    next same =>
      have none : get? other d = none := by
        rw [same]
        simpa [has] using absent
      rw [none, Option.none_or]
    next => rw [Option.or_none]

/-- In a dictionary in order no name stands twice. -/
theorem Ordered.nodup_keys {d : List (String × α)} (h : Ordered d) : (d.map (·.1)).Nodup := by
  have keys : (d.map (·.1)).Pairwise (· < ·) := List.pairwise_map.2 h
  exact keys.imp fun below => Std.ne_of_lt below

/-- Where the entries put in have distinct keys they decide. -/
theorem get?_insertAll_of_nodup (key : String) (d : List (String × α))
    {entries : List (String × α)} (distinct : (entries.map (·.1)).Nodup) :
    get? key (insertAll d entries) = (get? key entries).or (get? key d) := by
  induction entries generalizing d with
  | nil => rfl
  | cons e rest ih =>
    obtain ⟨apart, tail⟩ := List.nodup_cons.1 distinct
    have step : insertAll d (e :: rest) = insertAll (insert e.1 e.2 d) rest := rfl
    rw [step, ih _ tail, get?_insert, get?]
    split
    next same =>
      have later : get? key rest = none := by
        apply get?_eq_none_iff.2
        intro a ha again
        exact apart (List.mem_map.2 ⟨a, ha, again.trans same⟩)
      rw [later, Option.none_or, Option.some_or]
    next => rfl

/-- Of two dictionaries the one put in decides. -/
theorem get?_insertAll (key : String) (d : List (String × α)) {entries : List (String × α)}
    (ordered : Ordered entries) :
    get? key (insertAll d entries) = (get? key entries).or (get? key d) :=
  get?_insertAll_of_nodup key d ordered.nodup_keys

/-- Distinct keys keep their values, in whatever order they come. -/
theorem get?_ofList_of_nodup (key : String) {entries : List (String × α)}
    (distinct : (entries.map (·.1)).Nodup) : get? key (ofList entries) = get? key entries := by
  rw [ofList, get?_insertAll_of_nodup key [] distinct, get?, Option.or_none]

theorem has_insert (key other : String) (value : α) (d : List (String × α)) :
    has other (insert key value d) = (decide (other = key) || has other d) := by
  rw [has, get?_insert]
  split
  next same => simp [same]
  next apart => simp [apart, has]

/-- A key has an entry exactly if one was put in. -/
theorem has_insertAll_iff {key : String} {d entries : List (String × α)} :
    has key (insertAll d entries) = true ↔ has key d = true ∨ ∃ e ∈ entries, e.1 = key := by
  induction entries generalizing d with
  | nil => simp [insertAll]
  | cons e rest ih =>
    have step : insertAll d (e :: rest) = insertAll (insert e.1 e.2 d) rest := rfl
    rw [step, ih, has_insert]
    simp only [Bool.or_eq_true, decide_eq_true_eq, List.mem_cons, exists_eq_or_imp]
    constructor
    · rintro ((rfl | h) | h)
      · exact .inr (.inl rfl)
      · exact .inl h
      · exact .inr (.inr h)
    · rintro (h | rfl | h)
      · exact .inl (.inr h)
      · exact .inl (.inl rfl)
      · exact .inr h

/-- A dictionary of entries has their names. -/
theorem has_ofList_iff {key : String} {entries : List (String × α)} :
    has key (ofList entries) = true ↔ ∃ e ∈ entries, e.1 = key := by
  rw [ofList, has_insertAll_iff]
  simp [has, get?]

theorem get?_ofList_eq_none_iff {key : String} {entries : List (String × α)} :
    get? key (ofList entries) = none ↔ ∀ e ∈ entries, e.1 ≠ key := by
  have absent : ¬ has key (ofList entries) = true ↔ ¬ ∃ e ∈ entries, e.1 = key := not_congr has_ofList_iff
  rw [has, Option.not_isSome_iff_eq_none] at absent
  rw [absent, not_exists]
  exact forall_congr' fun e => not_and

/-- Of the entries with one key the last is kept. -/
theorem mem_ofList_cons_iff {e first : String × α} {rest : List (String × α)} :
    e ∈ ofList (first :: rest) ↔ e ∈ ofList rest ∨ (e = first ∧ ∀ a ∈ rest, a.1 ≠ first.1) := by
  have mem (entries : List (String × α)) : e ∈ ofList entries ↔ get? e.1 (ofList entries) = some e.2 :=
    ⟨get?_of_mem (ordered_ofList entries), mem_of_get?⟩
  have top : get? e.1 (ofList (first :: rest)) = (get? e.1 (ofList rest)).or (get? e.1 [first]) :=
    get?_insertAll_eq_or e.1 [first] rest
  rw [mem, mem, top]
  cases found : get? e.1 (ofList rest) with
  | none =>
    rw [get?_ofList_eq_none_iff] at found
    rw [Option.none_or, get?, get?]
    constructor
    · intro same
      split at same
      next key => exact .inr ⟨Prod.ext key (Option.some.inj same).symm, key ▸ found⟩
      next => cases same
    · rintro (none | ⟨rfl, -⟩)
      · cases none
      · exact if_pos rfl
  | some value =>
    have hidden : ¬ (e = first ∧ ∀ a ∈ rest, a.1 ≠ first.1) := by
      rintro ⟨rfl, last⟩
      rw [get?_ofList_eq_none_iff.2 last] at found
      cases found
    rw [Option.some_or, or_iff_left hidden]

/-! ### Filling again -/

/-- An entry above all others goes to the end. -/
theorem insert_of_forall_lt {key : String} (value : α) {d : List (String × α)}
    (h : ∀ e ∈ d, e.1 < key) : insert key value d = d ++ [(key, value)] := by
  induction d with
  | nil => rfl
  | cons e rest ih =>
    have head : e.1 < key := h e (by simp)
    have below : ¬ key < e.1 := fun back => Std.lt_irrefl (Std.lt_trans head back)
    have apart : ¬ key = e.1 := fun same => Std.lt_irrefl (same ▸ head)
    simp [insert, below, apart, ih fun a ha => h a (List.mem_cons_of_mem _ ha)]

/-- Entries that stand in order behind a dictionary are put at its end. -/
theorem insertAll_of_ordered {d entries : List (String × α)} (h : Ordered (d ++ entries)) :
    insertAll d entries = d ++ entries := by
  induction entries generalizing d with
  | nil => simp [insertAll]
  | cons e rest ih =>
    have before : ∀ a ∈ d, a.1 < e.1 := fun a ha =>
      (List.pairwise_append.1 h).2.2 a ha e (by simp)
    have step : insertAll d (e :: rest) = insertAll (insert e.1 e.2 d) rest := rfl
    rw [step, insert_of_forall_lt e.2 before, ih (by simpa using h)]
    simp

/-- Entries in order are the dictionary that they make. -/
theorem ofList_of_ordered {d : List (String × α)} (h : Ordered d) : ofList d = d :=
  insertAll_of_ordered (d := []) h

/-! ### Entries that are kept -/

/-- A new key makes one entry more. -/
theorem insert_perm {key : String} (value : α) {d : List (String × α)} (new : ∀ e ∈ d, e.1 ≠ key) :
    (insert key value d).Perm ((key, value) :: d) := by
  induction d with
  | nil => exact .refl _
  | cons e rest ih =>
    obtain ⟨head, others⟩ := List.forall_mem_cons.1 new
    rw [insert, if_neg (Ne.symm head)]
    split
    · exact .refl _
    · exact ((ih others).cons e).trans (.swap ..)

/-- Filling with new keys, no key twice, keeps every entry. The induction is on the entries, and the first
of them has moved into the dictionary when the rest follows. -/
theorem insertAll_perm {d entries : List (String × α)}
    (distinct : ((d ++ entries).map (·.1)).Nodup) : (insertAll d entries).Perm (d ++ entries) := by
  induction entries generalizing d with
  | nil => rw [List.append_nil]; exact .refl _
  | cons e rest ih =>
    have moved : (d ++ e :: rest).Perm (e :: d ++ rest) := List.perm_middle
    have apart : ((e :: d ++ rest).map (·.1)).Nodup := (moved.map _).nodup_iff.1 distinct
    have new : ∀ a ∈ d, a.1 ≠ e.1 := by
      intro a ha same
      exact (List.nodup_cons.1 apart).1 (List.mem_map.2 ⟨a, List.mem_append_left _ ha, same⟩)
    have step : (insert e.1 e.2 d ++ rest).Perm (e :: d ++ rest) := (insert_perm e.2 new).append_right _
    exact (ih ((step.map _).nodup_iff.2 apart)).trans (step.trans moved.symm)

/-- Entries under different names are all kept. -/
theorem ofList_perm {entries : List (String × α)} (distinct : (entries.map (·.1)).Nodup) :
    (ofList entries).Perm entries :=
  insertAll_perm (d := []) distinct

/-- A dictionary with one key has one entry at most. -/
theorem Ordered.length_le_one {d : List (String × α)} (ordered : Ordered d) {key : String}
    (only : ∀ e ∈ d, e.1 = key) : d.length ≤ 1 := by
  cases d with
  | nil => exact Nat.zero_le 1
  | cons first rest =>
    cases rest with
    | nil => exact Nat.le_refl 1
    | cons second more =>
      obtain ⟨above, _⟩ := ordered_cons.1 ordered
      have below : first.1 < second.1 := above second List.mem_cons_self
      rw [only first (by simp), only second (by simp)] at below
      exact absurd below Std.lt_irrefl

/-! ### Keys with a common beginning -/

/-- The entries with `start` before every key. -/
def below (start : String) (d : List (String × α)) : List (String × α) :=
  d.map fun e => (start ++ e.1, e.2)

/-- What follows a common beginning decides on the order of texts. -/
theorem append_lt_append_iff (start a b : String) : start ++ a < start ++ b ↔ a < b := by
  rw [String.lt_iff, String.lt_iff, String.toList_append, String.toList_append]
  induction start.toList with
  | nil => rfl
  | cons c cs ih => rw [List.cons_append, List.cons_append, List.cons_lt_cons_iff]; simpa using ih

/-- Names may be moved below another before an entry is put in, or after. -/
theorem insert_below (start key : String) (value : α) (d : List (String × α)) :
    insert (start ++ key) value (below start d) = below start (insert key value d) := by
  induction d with
  | nil => rfl
  | cons e rest ih =>
    obtain ⟨k, v⟩ := e
    have step : below start ((k, v) :: rest) = (start ++ k, v) :: below start rest := rfl
    rw [step, insert, insert]
    simp only [append_lt_append_iff, String.append_right_inj, ih]
    split
    · rfl
    · split <;> rfl

/-- Filling from entries whose keys have a common beginning is filling from what follows it. -/
theorem ofList_below (start : String) (entries : List (String × α)) :
    ofList (below start entries) = below start (ofList entries) := by
  have fill (d : List (String × α)) :
      insertAll (below start d) (below start entries) = below start (insertAll d entries) := by
    induction entries generalizing d with
    | nil => rfl
    | cons e rest ih =>
      show insertAll (insert (start ++ e.1) e.2 (below start d)) (below start rest) = _
      rw [insert_below, ih]
      rfl
  exact fill []

/-- What is found under a name is found under the moved name after the move. -/
theorem get?_below (start key : String) (d : List (String × α)) :
    get? (start ++ key) (below start d) = get? key d := by
  induction d with
  | nil => rfl
  | cons e rest ih =>
    show get? (start ++ key) ((start ++ e.1, e.2) :: below start rest) = get? key ((e.1, e.2) :: rest)
    simp only [get?, String.append_right_inj, ih]

/-- Every key has the common beginning. -/
theorem exists_append_of_get?_below {start key : String} {value : α} {d : List (String × α)}
    (h : get? key (below start d) = some value) : ∃ rest, key = start ++ rest := by
  obtain ⟨e, _, same⟩ := List.mem_map.1 (mem_of_get? h)
  exact ⟨e.1, (congrArg Prod.fst same).symm⟩

end ConsumerContract.Dict
