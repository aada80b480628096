import ConsumerContract.Proofs.ContractDocuments
import ConsumerContract.Proofs.SourceBounds

/-!
# What readers let through

A value that a reader takes from a text is no deeper than the text, and has no numbers but those of the
text. `Ensures` is the law of a reader: what it makes of a source that fits `n` has the property `p n`. The
laws of lists, dictionaries, records and alternatives take those of their parts. A record is filled slot by
slot, so what holds of the empty one and is kept by each slot holds of the one that is read:
`ensures_record`.
-/

namespace ConsumerContract

/-- The value fits, and the members of its objects are in order. -/
structure Json.Sound (n : Nat) (v : Json) : Prop where
  fits : v.Fits n
  ordered : v.Everywhere Json.InOrder

namespace Json.Source

variable {α β σ τ : Type}

/-! ### Laws of readers -/

/-- Whatever the reader makes of a source that fits `n` has the property `p n`. -/
def Ensures (decode : Source → Except Failure α) (p : Nat → α → Prop) : Prop :=
  ∀ ⦃n : Nat⦄ ⦃s : Source⦄ ⦃a : α⦄, s.Fits n → decode s = .ok a → p n a

/-- The property holds one level further in. -/
def Inside (p : Nat → α → Prop) (n : Nat) (a : α) : Prop :=
  ∃ m, n = m + 1 ∧ p m a

theorem Inside.imp {p : Nat → α → Prop} {q : Nat → β → Prop} {n : Nat} {a : α} {b : β} (h : Inside p n a)
    (step : ∀ m, p m a → q m b) : Inside q n b := by
  obtain ⟨m, rfl, holds⟩ := h
  exact ⟨m, rfl, step m holds⟩

/-- The property holds of all items. -/
def AllItems (p : Nat → α → Prop) (n : Nat) (as : List α) : Prop :=
  ∀ a ∈ as, p n a

/-- The entries are in order, and the property holds of all values. -/
structure AllEntries (p : Nat → α → Prop) (n : Nat) (d : List (String × α)) : Prop where
  ordered : Dict.Ordered d
  values : ∀ e ∈ d, p n e.2

/-- The property holds of the value, if there is one. -/
def IfAny (p : Nat → α → Prop) (n : Nat) (o : Option α) : Prop :=
  ∀ a, o = some a → p n a

theorem ifAny_none (p : Nat → α → Prop) (n : Nat) : IfAny p n none :=
  fun _ none => nomatch none

theorem ifAny_some {p : Nat → α → Prop} {n : Nat} {a : α} (h : p n a) : IfAny p n (some a) := by
  rintro _ ⟨⟩
  exact h

/-- A required member is read exactly if it was there. -/
theorem required_eq_ok_iff {o : Option α} {a : α} : required o = .ok a ↔ o = some a := by
  cases o <;> simp [required]

section

variable {decode : Source → Except Failure α} {p : Nat → α → Prop}

theorem ensures_true : Ensures decode fun _ _ => True :=
  fun _ _ _ _ _ => trivial

theorem Ensures.map {f : α → β} {q : Nat → β → Prop} (h : Ensures decode p)
    (step : ∀ n a, p n a → q n (f a)) : Ensures (fun s => (decode s).map f) q := by
  intro n s b fits reads
  obtain ⟨a, read, rfl⟩ := map_eq_ok_iff.1 reads
  exact step n a (h fits read)

/-! ### Lists and dictionaries -/

/-- Every item of a list that is read comes from an item of the source. -/
theorem exists_item {items : List Source} {as : List α} (h : eachItem decode items = .ok as) {a : α}
    (ha : a ∈ as) : ∃ s ∈ items, decode s = .ok a := by
  induction items generalizing as with
  | nil =>
    cases h
    exact absurd ha List.not_mem_nil
  | cons v rest ih =>
    rw [eachItem] at h
    split at h
    next => cases h
    next b read =>
      obtain ⟨bs, later, rfl⟩ := map_eq_ok_iff.1 h
      rcases List.mem_cons.1 ha with rfl | ha
      · exact ⟨v, List.mem_cons_self, read⟩
      · obtain ⟨s, hs, found⟩ := ih later ha
        exact ⟨s, List.mem_cons_of_mem v hs, found⟩

/-- Every entry of a dictionary that is read comes from a member of the source. -/
theorem exists_member {members : List (Key × Source)} {entries : List (String × α)}
    (h : eachMember decode members = .ok entries) {e : String × α} (he : e ∈ entries) :
    ∃ f ∈ members, decode f.2 = .ok e.2 := by
  induction members generalizing entries with
  | nil =>
    cases h
    exact absurd he List.not_mem_nil
  | cons f rest ih =>
    obtain ⟨key, v⟩ := f
    cases key with
    | flawed => cases h
    | known k =>
      rw [eachMember] at h
      split at h
      next => cases h
      next b read =>
        obtain ⟨es, later, rfl⟩ := map_eq_ok_iff.1 h
        rcases List.mem_cons.1 he with rfl | he
        · exact ⟨_, List.mem_cons_self, read⟩
        · obtain ⟨f, hf, found⟩ := ih later he
          exact ⟨f, List.mem_cons_of_mem _ hf, found⟩

/-- What holds of items that are read holds of all items of a list, one level further in. -/
theorem Ensures.list (h : Ensures decode p) :
    Ensures (asList decode) (Inside (AllItems p)) := by
  intro n s as fits reads
  cases fits with
  | @array m ending items inside =>
    rw [asList] at reads
    split at reads
    next => cases reads
    next bs each =>
      obtain ⟨-, rfl⟩ := close_eq_ok_iff.1 reads
      refine ⟨m, rfl, fun a ha => ?_⟩
      obtain ⟨v, hv, read⟩ := exists_item each ha
      exact h (inside v hv) read
  | _ => cases reads

/-- What holds of values that are read holds of all values of a dictionary, one level further in. -/
theorem Ensures.dict (h : Ensures decode p) :
    Ensures (asDict decode) (Inside (AllEntries p)) := by
  intro n s d fits reads
  cases fits with
  | @object m ending members inside =>
    rw [asDict] at reads
    split at reads
    next => cases reads
    next entries each =>
      obtain ⟨-, rfl⟩ := close_eq_ok_iff.1 reads
      refine ⟨m, rfl, Dict.ordered_ofList entries, fun e he => ?_⟩
      obtain ⟨f, hf, read⟩ := exists_member each (Dict.mem_of_mem_ofList he)
      exact h (inside f hf) read
  | _ => cases reads

/-- What holds of values that are read holds of one that may be missing. -/
theorem Ensures.optional (h : Ensures decode p) : Ensures (asOptional decode) (IfAny p) := by
  intro n s o fits reads a ha
  subst ha
  unfold asOptional at reads
  split at reads
  next => cases reads
  next =>
    obtain ⟨b, read, same⟩ := map_eq_ok_iff.1 reads
    cases same
    exact h fits read

end

/-! ### Any value -/

theorem readItems_eq (items : List Source) : readItems items = eachItem read items := by
  induction items with
  | nil => rfl
  | cons v rest ih =>
    rw [readItems, eachItem, ih]
    cases v.read <;> rfl

theorem readMembers_eq (members : List (Key × Source)) : readMembers members = eachMember read members := by
  induction members with
  | nil => rfl
  | cons e rest ih =>
    obtain ⟨key, v⟩ := e
    cases key with
    | flawed => rfl
    | known k =>
      rw [readMembers, eachMember, ih]
      cases v.read <;> rfl

/-- A value that is read has no more levels than its source. -/
theorem ensures_read : Ensures read fun n v => v.Fits n := by
  intro n s v fits reads
  induction fits generalizing v with
  | null =>
    cases reads
    exact .null
  | bool b =>
    cases reads
    exact .bool b
  | number plain =>
    cases reads
    exact .num plain
  | text s =>
    cases reads
    exact .str s
  | unreadable | badScalar => cases reads
  | array _ ih =>
    rw [read, readItems_eq] at reads
    split at reads
    next => cases reads
    next vs each =>
      obtain ⟨-, rfl⟩ := close_eq_ok_iff.1 reads
      refine .arr fun v hv => ?_
      obtain ⟨s, hs, read⟩ := exists_item each hv
      exact ih s hs read
  | object _ ih =>
    rw [read, readMembers_eq] at reads
    split at reads
    next => cases reads
    next es each =>
      obtain ⟨-, rfl⟩ := close_eq_ok_iff.1 reads
      refine .obj fun e he => ?_
      obtain ⟨f, hf, read⟩ := exists_member each he
      exact ih f hf read

/-- A value that is read and put in order is sound. -/
theorem ensures_value : Ensures value Sound :=
  ensures_read.map fun _ _ fits => ⟨fits.canonical, fits.canonical_inOrder⟩

/-- Only `null` has `null` for its canonical form. -/
theorem canonical_eq_null {v : Json} (h : v.canonical = .null) : v = .null := by
  cases v <;> first | rfl | cases h

/-- Only `null` is read as `null`. -/
theorem eq_null_of_read {s : Source} (h : s.read = .ok .null) : s = .null := by
  cases s with
  | null => rfl
  | array items ending =>
    rw [read] at h
    split at h
    · cases h
    · cases (close_eq_ok_iff.1 h).2
  | object members ending =>
    rw [read] at h
    split at h
    · cases h
    · cases (close_eq_ok_iff.1 h).2
  | _ => cases h

/-- A value that is there is never `null`. -/
theorem ensures_body : Ensures (asOptional value) (IfAny fun n v => v.Sound n ∧ v ≠ .null) := by
  intro n s o fits reads v hv
  refine ⟨ensures_value.optional fits reads v hv, ?_⟩
  rintro rfl
  subst hv
  unfold asOptional at reads
  split at reads
  next => cases reads
  next there =>
    obtain ⟨w, given, same⟩ := map_eq_ok_iff.1 reads
    cases same
    obtain ⟨w, given, same⟩ := map_eq_ok_iff.1 given
    rw [canonical_eq_null same] at given
    exact there (eq_null_of_read given)

/-! ### Records -/

/-- Filling the slot from a source that fits `n` keeps the property. -/
def Slot.Keeps (n : Nat) (holds : σ → Prop) (slot : Slot σ) : Prop :=
  ∀ ⦃s : Source⦄ ⦃r r' : σ⦄, s.Fits n → holds r → slot.fill s r = .ok r' → holds r'

/-- A member that is read keeps what its field may change. -/
theorem keeps_slot {decode : Source → Except Failure α} {p : Nat → α → Prop} {n : Nat} {holds : σ → Prop}
    {name : String} {get : σ → Option α} {set : α → σ → σ} (h : Ensures decode p)
    (step : ∀ a r, p n a → holds r → holds (set a r)) : (slot name decode get set).Keeps n holds := by
  intro s r r' fits before fills
  obtain ⟨a, read, rfl⟩ := map_eq_ok_iff.1 fills
  exact step a r (h fits read) before

section

variable {n : Nat} {holds : σ → Prop} {slots : List (Slot σ)} {r r' : σ}

/-- Reading members keeps what each of their slots keeps. -/
theorem fillMembers_keeps (keeps : ∀ slot ∈ slots, slot.Keeps n holds) {members : List (Key × Source)}
    (fits : ∀ e ∈ members, e.2.Fits n) (before : holds r) (h : fillMembers slots members r = .ok r') :
    holds r' := by
  induction members generalizing r with
  | nil =>
    cases h
    exact before
  | cons e rest ih =>
    obtain ⟨key, v⟩ := e
    obtain ⟨first, later⟩ := List.forall_mem_cons.1 fits
    cases key with
    | flawed => cases h
    | known k =>
      rw [fillMembers] at h
      split at h
      next =>
        split at h
        next => cases h
        next => exact ih later before h
      next slot found =>
        split at h
        next => cases h
        next =>
          split at h
          next => cases h
          next r₁ fills =>
            exact ih later (keeps slot (List.mem_of_find?_eq_some found) first before fills) h

/-- Reading items in place of members keeps what each of their slots keeps. -/
theorem fillItems_keeps (keeps : ∀ slot ∈ slots, slot.Keeps n holds) {held : Bool} {ending : Option Failure}
    {items : List Source} (fits : ∀ v ∈ items, v.Fits n) (before : holds r)
    (h : fillItems held ending slots items r = .ok r') : holds r' := by
  induction items generalizing slots r with
  | nil =>
    unfold fillItems at h
    obtain ⟨-, rfl⟩ := close_eq_ok_iff.1 h
    exact before
  | cons v rest ih =>
    obtain ⟨first, later⟩ := List.forall_mem_cons.1 fits
    cases slots with
    | nil => cases h
    | cons slot slots =>
      obtain ⟨fill, others⟩ := List.forall_mem_cons.1 keeps
      rw [fillItems] at h
      split at h
      next => cases h
      next r₁ fills => exact ih others later (fill first before fills) h

end

/-- What holds of the empty record and is kept by every slot holds of the record that is read. -/
theorem ensures_record {held : Bool} {slots : List (Slot σ)} {start : σ} (holds : Nat → σ → Prop)
    (empty : ∀ m, holds m start) (keeps : ∀ m, ∀ slot ∈ slots, slot.Keeps m (holds m)) :
    Ensures (asRecord held slots start) (Inside holds) := by
  intro n s r fits reads
  cases fits with
  | @object m ending members inside =>
    rw [asRecord] at reads
    split at reads
    next => cases reads
    next r₁ fills =>
      obtain ⟨-, rfl⟩ := close_eq_ok_iff.1 reads
      exact ⟨m, rfl, fillMembers_keeps (keeps m) inside (empty m) fills⟩
  | @array m ending items inside =>
    exact ⟨m, rfl, fillItems_keeps (keeps m) inside (empty m) reads⟩
  | _ => cases reads

/-- What holds of a value that is read holds of it as the only member of an object, one level further
in. -/
theorem Ensures.single {decode : Source → Except Failure α} {p : Nat → α → Prop} (h : Ensures decode p)
    (held : Bool) (name : String) : Ensures (asSingle held name decode) (Inside p) := by
  intro n s a fits reads
  rw [asSingle] at reads
  split at reads
  next => cases reads
  next field filled =>
    have kept : Inside (IfAny p) n field := by
      refine ensures_record (IfAny p) (ifAny_none p) (fun m => ?_) fits filled
      exact List.forall_mem_singleton.2 (keeps_slot h fun a r given _ => ifAny_some given)
    exact kept.imp fun m each => each a (required_eq_ok_iff.1 reads)

/-! ### Tags -/

/-- The members beside a tag are members of the source. -/
theorem mem_of_splitTag {held : Bool} {key : String} {names : List (String × τ)}
    {members others : List (Key × Source)} {found tag : Option τ}
    (h : splitTag held key names members found = .ok (tag, others)) : ∀ e ∈ others, e ∈ members := by
  induction members generalizing found others with
  | nil =>
    cases h
    exact fun _ he => he
  | cons f rest ih =>
    obtain ⟨k, v⟩ := f
    cases k with
    | flawed => cases h
    | known k =>
      rw [splitTag] at h
      split at h
      next =>
        split at h
        next => cases h
        next =>
          split at h
          next => cases h
          next => exact fun e he => List.mem_cons_of_mem _ (ih h e he)
      next =>
        split at h
        next => cases h
        next =>
          obtain ⟨⟨t, more⟩, split, same⟩ := map_eq_ok_iff.1 h
          cases same
          intro e he
          rcases List.mem_cons.1 he with rfl | he
          · exact List.mem_cons_self
          · exact List.mem_cons_of_mem _ (ih split e he)

/-- The rest of a tagged value has the levels of the whole, and there is one at least. -/
theorem ensures_tagged (held : Bool) (key : String) (names : List (String × τ)) :
    Ensures (asTagged held key names) fun n r => 0 < n ∧ r.2.Fits n := by
  intro n s r fits reads
  cases fits with
  | @object m ending members inside =>
    rw [asTagged] at reads
    split at reads
    next => cases reads
    next tag others split =>
      split at reads
      next => cases reads
      next closed =>
        obtain ⟨-, rfl⟩ := close_eq_ok_iff.1 closed
        obtain ⟨t, -, rfl⟩ := map_eq_ok_iff.1 reads
        exact ⟨Nat.succ_pos m, .object fun e he => inside e (mem_of_splitTag split e he)⟩
  | @array m ending items inside =>
    cases items with
    | nil => cases reads
    | cons v rest =>
      rw [asTagged] at reads
      split at reads
      next => cases reads
      next tag named =>
        split at reads
        next => cases reads
        next =>
          obtain ⟨-, rfl⟩ := close_eq_ok_iff.1 reads
          exact ⟨Nat.succ_pos m, .array fun v hv => inside v (List.mem_cons_of_mem _ hv)⟩
  | _ => cases reads

/-- What holds of both of two forms holds of whichever is read. -/
theorem ensures_either {first second : Source → Except Failure α} {p : Nat → α → Prop}
    (h : Ensures first p) (h' : Ensures second p) : Ensures (decodeEither first second) p := by
  intro n s a fits reads
  rw [decodeEither] at reads
  split at reads
  next => cases reads
  next =>
    split at reads
    next b read =>
      cases reads
      exact h fits read
    next =>
      split at reads
      next b read =>
        cases reads
        exact h' fits read
      next => cases reads

end Json.Source

end ConsumerContract
