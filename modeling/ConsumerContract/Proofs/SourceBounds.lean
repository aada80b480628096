import ConsumerContract.Proofs.Sources

/-!
# Levels and numbers of a text

`Json.Fits n` says of a document, and `Source.Fits n` of a source, that there are at most `n` levels of arrays
and objects and only plain numbers. A document that fits is written in full and its text is not too deep to
be read. A source fits the bound on the depth of texts as soon as all numbers among the tokens are plain:
`Source.exists_source`.
-/

namespace ConsumerContract

namespace Json

/-! ### Documents -/

/-- The document has at most `n` levels of arrays and objects, and its numbers are plain. -/
inductive Fits : Nat → Json → Prop
  | null {n} : Fits n .null
  | bool {n} (b : Bool) : Fits n (.bool b)
  | num {n x} : Number.IsPlain x → Fits n (.num x)
  | str {n} (s : String) : Fits n (.str s)
  | arr {n} {items : List Json} : (∀ v ∈ items, Fits n v) → Fits (n + 1) (.arr items)
  | obj {n} {members : List (String × Json)} : (∀ e ∈ members, Fits n e.2) → Fits (n + 1) (.obj members)

/-- The numbers of a document that fits are plain. -/
theorem Fits.plain {n : Nat} {v : Json} (h : v.Fits n) : v.Everywhere HasPlainNumber := by
  induction h with
  | null | bool | str => trivial
  | num plain => exact plain
  | arr _ ih => exact ⟨trivial, everyItem_iff.2 ih⟩
  | obj _ ih => exact ⟨trivial, everyMember_iff.2 ih⟩

theorem heightItems_le {n : Nat} {items : List Json} (h : ∀ v ∈ items, v.depth ≤ n) :
    Source.heightItems (Source.ofItems items) ≤ n := by
  induction items with
  | nil => exact Nat.zero_le n
  | cons v rest ih =>
    obtain ⟨first, later⟩ := List.forall_mem_cons.1 h
    exact Nat.max_le.2 ⟨first, ih later⟩

theorem heightMembers_le {n : Nat} {members : List (String × Json)} (h : ∀ e ∈ members, e.2.depth ≤ n) :
    Source.heightMembers (Source.ofMembers members) ≤ n := by
  induction members with
  | nil => exact Nat.zero_le n
  | cons e rest ih =>
    obtain ⟨first, later⟩ := List.forall_mem_cons.1 h
    exact Nat.max_le.2 ⟨first, ih later⟩

/-- A document that fits is no deeper than its bound. -/
theorem Fits.depth_le {n : Nat} {v : Json} (h : v.Fits n) : v.depth ≤ n := by
  induction h with
  | null | bool | num | str => exact Nat.zero_le _
  | arr _ ih => exact Nat.succ_le_succ (heightItems_le ih)
  | obj _ ih => exact Nat.succ_le_succ (heightMembers_le ih)

/-! ### Canonical form -/

theorem canonicalItems_eq (items : List Json) : canonicalItems items = items.map canonical := by
  induction items with
  | nil => rfl
  | cons v rest ih => rw [canonicalItems, ih, List.map_cons]

/-- A member of the canonical form comes from one of the value. -/
theorem mem_canonicalMembers {members : List (String × Json)} {e : String × Json}
    (h : e ∈ Dict.ofList (canonicalMembers members)) : ∃ f ∈ members, e.2 = f.2.canonical := by
  have stored := Dict.mem_of_mem_ofList h
  rw [canonicalMembers_eq] at stored
  obtain ⟨f, hf, rfl⟩ := List.mem_map.1 stored
  exact ⟨f, hf, rfl⟩

/-- The canonical form of a document fits where the document does. -/
theorem Fits.canonical {n : Nat} {v : Json} (h : v.Fits n) : v.canonical.Fits n := by
  induction h with
  | null => exact .null
  | bool b => exact .bool b
  | num plain => exact .num plain
  | str s => exact .str s
  | arr _ ih =>
    refine .arr fun v hv => ?_
    rw [canonicalItems_eq] at hv
    obtain ⟨w, hw, rfl⟩ := List.mem_map.1 hv
    exact ih w hw
  | obj _ ih =>
    refine .obj fun e he => ?_
    obtain ⟨f, hf, same⟩ := mem_canonicalMembers he
    rw [same]
    exact ih f hf

/-- The canonical form has its members in order, at every depth. -/
theorem Fits.canonical_inOrder {n : Nat} {v : Json} (h : v.Fits n) : v.canonical.Everywhere InOrder := by
  induction h with
  | null | bool | num | str => trivial
  | arr _ ih =>
    refine ⟨trivial, everyItem_iff.2 fun v hv => ?_⟩
    rw [canonicalItems_eq] at hv
    obtain ⟨w, hw, rfl⟩ := List.mem_map.1 hv
    exact ih w hw
  | obj _ ih =>
    refine ⟨Dict.ordered_ofList _, everyMember_iff.2 fun e he => ?_⟩
    obtain ⟨f, hf, same⟩ := mem_canonicalMembers he
    rw [same]
    exact ih f hf

instance : DecidablePred Number.IsPlain
  | .int n => inferInstanceAs (Decidable (-(Binary64.signBit : Int) ≤ n ∧ n ≤ Number.maxSignificand))
  | .float _ => inferInstanceAs (Decidable False)

/-- If the token is a number, it is plain. -/
def Token.IsPlain : Token → Prop
  | .number x => x.IsPlain
  | _ => True

instance : DecidablePred Token.IsPlain
  | .number x => inferInstanceAs (Decidable x.IsPlain)
  | .openArray | .closeArray | .openObject | .closeObject | .comma | .colon | .null | .bool _ | .string _
  | .badScalar .. | .badString .. | .stray => isTrue trivial

namespace Source

/-! ### Sources -/

/-- The source has at most `n` levels of arrays and objects, and its numbers are plain. -/
inductive Fits : Nat → Source → Prop
  | null {n} : Fits n .null
  | bool {n} (b : Bool) : Fits n (.bool b)
  | number {n x} : Number.IsPlain x → Fits n (.number x)
  | text {n} (s : String) : Fits n (.text s)
  | array {n ending} {items : List Source} : (∀ v ∈ items, Fits n v) → Fits (n + 1) (.array items ending)
  | object {n ending} {members : List (Key × Source)} : (∀ e ∈ members, Fits n e.2) →
      Fits (n + 1) (.object members ending)
  | unreadable {n} (cause : Failure) (passed : Option Failure) : Fits n (.unreadable cause passed)
  | badScalar {n} (cause : Failure) (passed : Option Failure) : Fits n (.badScalar cause passed)

theorem Fits.mono {n m : Nat} {s : Source} (h : s.Fits n) (le : n ≤ m) : s.Fits m := by
  induction h generalizing m with
  | null => exact .null
  | bool b => exact .bool b
  | number plain => exact .number plain
  | text s => exact .text s
  | array _ ih =>
    obtain ⟨m, rfl⟩ := Nat.exists_eq_add_of_le' (Nat.le_of_add_left_le le)
    exact .array fun v hv => ih v hv (Nat.le_of_add_le_add_right le)
  | object _ ih =>
    obtain ⟨m, rfl⟩ := Nat.exists_eq_add_of_le' (Nat.le_of_add_left_le le)
    exact .object fun e he => ih e he (Nat.le_of_add_le_add_right le)
  | unreadable cause passed => exact .unreadable cause passed
  | badScalar cause passed => exact .badScalar cause passed

theorem itemsWithin_eq (room : Nat) (items : List Source) : itemsWithin room items = items.map (within room) := by
  induction items with
  | nil => rfl
  | cons v rest ih => rw [itemsWithin, ih, List.map_cons]

theorem membersWithin_eq (room : Nat) (members : List (Key × Source)) :
    membersWithin room members = members.map fun e => (e.1, e.2.within room) := by
  induction members with
  | nil => rfl
  | cons e rest ih => rw [membersWithin, ih, List.map_cons]

/-- A source that is cut down to a number of levels has no more. -/
theorem Fits.within {n : Nat} {s : Source} (h : s.Fits n) (room : Nat) : (s.within room).Fits room := by
  induction h generalizing room with
  | null => cases room <;> exact .null
  | bool b => cases room <;> exact .bool b
  | number plain => cases room <;> exact .number plain
  | text s => cases room <;> exact .text s
  | unreadable cause passed => cases room <;> exact .unreadable cause passed
  | badScalar cause passed => cases room <;> exact .badScalar cause passed
  | array _ ih =>
    cases room with
    | zero => exact .unreadable _ _
    | succ room =>
      rw [Source.within, itemsWithin_eq]
      refine .array fun v hv => ?_
      obtain ⟨w, hw, rfl⟩ := List.mem_map.1 hv
      exact ih w hw room
  | object _ ih =>
    cases room with
    | zero => exact .unreadable _ _
    | succ room =>
      rw [Source.within, membersWithin_eq]
      refine .object fun e he => ?_
      obtain ⟨f, hf, rfl⟩ := List.mem_map.1 he
      exact ih f hf room

/-! ### From tokens -/

/-- All numbers among the tokens are plain. -/
def PlainTokens (tokens : List Token) : Prop :=
  ∀ t ∈ tokens, t.IsPlain

instance (tokens : List Token) : Decidable (PlainTokens tokens) :=
  inferInstanceAs (Decidable (∀ t ∈ tokens, t.IsPlain))

theorem plainTokens_nil : PlainTokens [] :=
  fun _ h => absurd h List.not_mem_nil

theorem PlainTokens.tail {t : Token} {ts : List Token} (h : PlainTokens (t :: ts)) : PlainTokens ts :=
  fun u hu => h u (List.mem_cons_of_mem t hu)

mutual

/-- The fuel of the tree bounds its levels, for each level uses up some of it. -/
theorem ofTokens_fits : (fuel : Nat) → {ts : List Token} → PlainTokens ts →
    (ofTokens fuel ts).1.Fits fuel ∧ PlainTokens (ofTokens fuel ts).2
  | 0, _, _ => ⟨.unreadable _ _, plainTokens_nil⟩
  | _ + 1, [], _ => ⟨.unreadable _ _, plainTokens_nil⟩
  | fuel + 1, t :: ts, plain => by
    cases t with
    | null => exact ⟨.null, plain.tail⟩
    | bool b => exact ⟨.bool b, plain.tail⟩
    | number x => exact ⟨.number (plain (.number x) List.mem_cons_self), plain.tail⟩
    | string s => exact ⟨.text s, plain.tail⟩
    | badScalar cause passed => exact ⟨.badScalar cause passed, plain.tail⟩
    | badString cause passed => exact ⟨.unreadable cause passed, plain.tail⟩
    | closeArray | closeObject | comma | colon | stray => exact ⟨.unreadable _ _, plainTokens_nil⟩
    | openArray =>
      cases ts with
      | nil => exact ⟨.array fun v hv => absurd hv List.not_mem_nil, plainTokens_nil⟩
      | cons t ts =>
        by_cases close : t = .closeArray
        · subst close
          exact ⟨.array fun v hv => absurd hv List.not_mem_nil, plain.tail.tail⟩
        · rw [ofTokens_openArray fuel close]
          obtain ⟨items, rest⟩ := itemsOfTokens_fits fuel plain.tail
          exact ⟨.array items, rest⟩
    | openObject =>
      cases ts with
      | nil => exact ⟨.object fun e he => absurd he List.not_mem_nil, plainTokens_nil⟩
      | cons t ts =>
        by_cases close : t = .closeObject
        · subst close
          exact ⟨.object fun e he => absurd he List.not_mem_nil, plain.tail.tail⟩
        · rw [ofTokens_openObject fuel close]
          obtain ⟨members, rest⟩ := membersOfTokens_fits fuel plain.tail
          exact ⟨.object members, rest⟩

theorem itemsOfTokens_fits : (fuel : Nat) → {ts : List Token} → PlainTokens ts →
    (∀ v ∈ (itemsOfTokens fuel ts).1, v.Fits fuel) ∧ PlainTokens (itemsOfTokens fuel ts).2.2
  | 0, _, _ => ⟨fun v hv => absurd hv List.not_mem_nil, plainTokens_nil⟩
  | fuel + 1, ts, plain => by
    obtain ⟨fits, left⟩ := ofTokens_fits fuel plain
    rw [itemsOfTokens]
    generalize ofTokens fuel ts = read at fits left
    obtain ⟨value, rest⟩ := read
    have wider : value.Fits (fuel + 1) := fits.mono (Nat.le_succ fuel)
    have one : ∀ v ∈ [value], v.Fits (fuel + 1) := List.forall_mem_singleton.2 wider
    cases rest with
    | nil => exact ⟨one, plainTokens_nil⟩
    | cons t rest =>
      cases t with
      | comma =>
        obtain ⟨items, rest⟩ := itemsOfTokens_fits fuel left.tail
        exact ⟨List.forall_mem_cons.2 ⟨wider, fun v hv => (items v hv).mono (Nat.le_succ fuel)⟩, rest⟩
      | closeArray => exact ⟨one, left.tail⟩
      | _ => exact ⟨one, plainTokens_nil⟩

theorem membersOfTokens_fits : (fuel : Nat) → {ts : List Token} → PlainTokens ts →
    (∀ e ∈ (membersOfTokens fuel ts).1, e.2.Fits fuel) ∧ PlainTokens (membersOfTokens fuel ts).2.2
  | 0, _, _ => ⟨fun e he => absurd he List.not_mem_nil, plainTokens_nil⟩
  | _ + 1, [], _ => ⟨List.forall_mem_singleton.2 (.unreadable _ _), plainTokens_nil⟩
  | fuel + 1, t :: ts, plain => by
    cases t with
    | string s =>
      obtain ⟨members, rest⟩ := memberOfTokens_fits fuel (.known s) plain.tail
      exact ⟨fun e he => (members e he).mono (Nat.le_succ fuel), rest⟩
    | badString cause passed =>
      obtain ⟨members, rest⟩ := memberOfTokens_fits fuel (.flawed cause passed) plain.tail
      exact ⟨fun e he => (members e he).mono (Nat.le_succ fuel), rest⟩
    | _ => exact ⟨fun e he => absurd he List.not_mem_nil, plainTokens_nil⟩

theorem memberOfTokens_fits : (fuel : Nat) → (key : Key) → {ts : List Token} → PlainTokens ts →
    (∀ e ∈ (memberOfTokens fuel key ts).1, e.2.Fits fuel) ∧ PlainTokens (memberOfTokens fuel key ts).2.2
  | 0, _, _, _ => ⟨fun e he => absurd he List.not_mem_nil, plainTokens_nil⟩
  | _ + 1, _, [], _ => ⟨List.forall_mem_singleton.2 (.unreadable _ _), plainTokens_nil⟩
  | fuel + 1, key, t :: ts, plain => by
    cases t with
    | colon =>
      obtain ⟨fits, left⟩ := ofTokens_fits fuel plain.tail
      rw [memberOfTokens]
      generalize ofTokens fuel ts = read at fits left
      obtain ⟨value, rest⟩ := read
      have wider : value.Fits (fuel + 1) := fits.mono (Nat.le_succ fuel)
      have one : ∀ e ∈ [(key, value)], e.2.Fits (fuel + 1) := List.forall_mem_singleton.2 wider
      cases rest with
      | nil => exact ⟨one, plainTokens_nil⟩
      | cons t rest =>
        cases t with
        | comma =>
          obtain ⟨members, rest⟩ := membersOfTokens_fits fuel left.tail
          exact ⟨List.forall_mem_cons.2 ⟨wider, fun e he => (members e he).mono (Nat.le_succ fuel)⟩, rest⟩
        | closeObject => exact ⟨one, left.tail⟩
        | _ => exact ⟨one, plainTokens_nil⟩
    | _ => exact ⟨List.forall_mem_singleton.2 (.unreadable _ _), plainTokens_nil⟩

end

/-- What is read from a text without other than plain numbers is read from a source that is no deeper than
texts may be. -/
theorem exists_source {α : Type} {decode : Source → Except Failure α} {text : String} {a : α}
    (plain : PlainTokens (Token.scan text.toList)) (h : decodeText decode text = .ok a) :
    ∃ s : Source, s.Fits maxDepth ∧ decode s = .ok a := by
  obtain ⟨fits, -⟩ := ofTokens_fits (2 * (Token.scan text.toList).length + 2) plain
  simp only [decodeText, decodeTokens] at h
  generalize ofTokens (2 * (Token.scan text.toList).length + 2) (Token.scan text.toList) = read at fits h
  obtain ⟨s, rest⟩ := read
  refine ⟨s.within maxDepth, fits.within maxDepth, ?_⟩
  split at h
  next => cases h
  next b reads =>
    split at h
    · rwa [reads]
    · cases h

end Source

end Json

end ConsumerContract
