import ConsumerContract.Json.Decoder
import ConsumerContract.Proofs.Sources
import ConsumerContract.Rule.Document

/-!
# Readers of what was written

One law a reader: given the source of a value that was written from `a`, it answers with `a`. The laws of
lists and dictionaries take that of their elements, and a record is read member by member: `fill_member`
and `fill_optional` say how it is filled by one member that must stand and by one that may be missing.
-/

namespace ConsumerContract

/-- What a list is read as where an empty one is left out. -/
def listed {α : Type} : List α → Option (List α)
  | [] => none
  | as => some as

namespace Json.Source

variable {α β σ τ : Type}

/-! ### Scalars -/

theorem asText_ofJson (s : String) : asText (ofJson (.str s)) = .ok s :=
  rfl

/-- A number up to the limit is read back. -/
theorem asNatural_ofJson {limit n : Nat} (h : n ≤ limit) :
    asNatural limit (ofJson (.int n)) = .ok n := by
  have fits : 0 ≤ (n : Int) ∧ (n : Int) ≤ limit := by omega
  show (if 0 ≤ (n : Int) ∧ (n : Int) ≤ limit then Except.ok (n : Int).toNat
    else .error Failure.mismatched) = _
  rw [if_pos fits, Int.toNat_natCast]

/-- A number of 64 bits is read back. -/
theorem asUInt64_ofJson (n : UInt64) : asUInt64 (ofJson (.ofUInt64 n)) = .ok n := by
  have small : n.toNat ≤ UInt64.size - 1 := by
    have := n.toNat_lt
    have : UInt64.size = 2 ^ 64 := rfl
    omega
  unfold asUInt64 Json.ofUInt64
  rw [asNatural_ofJson small, Except.map, UInt64.ofNat_toNat]

theorem asUInt16_ofJson (n : UInt16) : asUInt16 (ofJson (.int n.toNat)) = .ok n := by
  have small : n.toNat ≤ UInt16.size - 1 := by
    have := n.toNat_lt
    have : UInt16.size = 2 ^ 16 := rfl
    omega
  unfold asUInt16
  rw [asNatural_ofJson small, Except.map, UInt16.ofNat_toNat]

/-- A value that is not `null` is read as one that is there. -/
theorem asOptional_ofJson {decode : Source → Except Failure α} {v : Json} (h : v ≠ .null) {a : α}
    (reads : decode (ofJson v) = .ok a) : asOptional decode (ofJson v) = .ok (some a) := by
  cases v <;> first | exact absurd rfl h | exact congrArg (Except.map some) reads

/-! ### Lists and dictionaries -/

theorem eachItem_ofItems {decode : Source → Except Failure α} {write : α → Json} {as : List α}
    (reads : ∀ a ∈ as, decode (ofJson (write a)) = .ok a) :
    eachItem decode (ofItems (as.map write)) = .ok as := by
  induction as with
  | nil => rfl
  | cons a rest ih =>
    have later := ih fun b hb => reads b (List.mem_cons_of_mem _ hb)
    rw [List.map_cons, ofItems, eachItem, reads a (by simp), later]
    rfl

/-- A list is read back if its items are. -/
theorem asList_ofJson {decode : Source → Except Failure α} {write : α → Json} {as : List α}
    (reads : ∀ a ∈ as, decode (ofJson (write a)) = .ok a) :
    asList decode (ofJson (.arr (as.map write))) = .ok as := by
  rw [ofJson, asList, eachItem_ofItems reads]
  rfl

/-- Members are read back if their values are. -/
theorem eachMember_ofMembers {decode : Source → Except Failure α} {write : α → Json}
    {d : List (String × α)} (reads : ∀ e ∈ d, decode (ofJson (write e.2)) = .ok e.2) :
    eachMember decode (ofMembers (Dict.mapValues write d)) = .ok d := by
  induction d with
  | nil => rfl
  | cons e rest ih =>
    have later := ih fun b hb => reads b (List.mem_cons_of_mem _ hb)
    show eachMember decode ((.known e.1, ofJson (write e.2)) ::
      ofMembers (Dict.mapValues write rest)) = _
    rw [eachMember, reads e (by simp), later]
    rfl

/-- A dictionary is read back as it was, for its entries are in order. -/
theorem asDict_ofJson {decode : Source → Except Failure α} {write : α → Json}
    {d : List (String × α)} (ordered : Dict.Ordered d)
    (reads : ∀ e ∈ d, decode (ofJson (write e.2)) = .ok e.2) :
    asDict decode (ofJson (.obj (Dict.mapValues write d))) = .ok d := by
  rw [ofJson, asDict, eachMember_ofMembers reads]
  show Except.ok (Dict.ofList d) = _
  rw [Dict.ofList_of_ordered ordered]

/-- A dictionary of values is its own source. -/
theorem asDict_value {d : List (String × Json)} (ordered : Dict.Ordered d)
    (inOrder : ∀ e ∈ d, e.2.Everywhere InOrder) : asDict value (ofJson (.obj d)) = .ok d := by
  have same : Dict.mapValues id d = d := List.map_id d
  have reads : asDict value (ofJson (.obj (Dict.mapValues id d))) = .ok d :=
    asDict_ofJson ordered fun e he => value_ofJson (inOrder e he)
  rwa [same] at reads

/-! ### Records -/

theorem asRecord_ofJson (held : Bool) (slots : List (Slot σ)) (start : σ)
    (members : List (String × Json)) :
    asRecord held slots start (ofJson (.obj members)) =
      fillMembers slots (ofMembers members) start := by
  rw [ofJson, asRecord]
  cases fillMembers slots (ofMembers members) start <;> rfl

section

variable {slots : List (Slot σ)} {key : String} {decode : Source → Except Failure β}
  {get : σ → Option β} {r : σ} {rest : List (String × Json)}

/-- A member fills its field. -/
theorem fill_member {v : Json} {b : β} (set : β → σ → σ)
    (found : slots.find? (·.name == key) = some (slot key decode get set))
    (empty : get r = none) (reads : decode (ofJson v) = .ok b) :
    fillMembers slots (ofMembers ((key, v) :: rest)) r =
      fillMembers slots (ofMembers rest) (set b r) := by
  have room : (slot key decode get set).filled r = false := by
    show (get r).isSome = false
    rw [empty]
    rfl
  have fills : (slot key decode get set).fill (ofJson v) r = .ok (set b r) := by
    show (decode (ofJson v)).map (fun b => set b r) = _
    rw [reads]
    rfl
  rw [ofMembers, fillMembers, found]
  simp only [room, fills]
  rfl

/-- A member that may be missing fills its field if it is there. -/
theorem fill_optional {write : α → Json} (o : Option α) (f : α → β) (put : Option β → σ → σ)
    (found : slots.find? (·.name == key) = some (slot key decode get fun b => put (some b)))
    (empty : get r = none) (keep : put none r = r)
    (reads : ∀ a, o = some a → decode (ofJson (write a)) = .ok (f a)) :
    fillMembers slots (ofMembers (optionalMember key write o ++ rest)) r =
      fillMembers slots (ofMembers rest) (put (o.map f) r) := by
  cases o with
  | none =>
    show fillMembers slots (ofMembers rest) r = fillMembers slots (ofMembers rest) (put none r)
    rw [keep]
  | some a => exact fill_member (fun b => put (some b)) found empty (reads a rfl)

end

/-! ### Single members and tags -/

/-- The only member of an object is read back. -/
theorem asSingle_ofMembers (held : Bool) (name : String) {decode : Source → Except Failure α}
    {v : Json} {a : α} (reads : decode (ofJson v) = .ok a) :
    asSingle held name decode (ofJson (.obj [(name, v)])) = .ok a := by
  have found : [slot name decode id fun a _ => some a].find? (·.name == name) =
      some (slot name decode id fun a _ => some a) := by simp [slot]
  unfold asSingle
  rw [asRecord_ofJson, fill_member (fun a _ => some a) found rfl reads]
  rfl

/-- Members without a tag change nothing of the tag found before them. -/
theorem splitTag_ofMembers (held : Bool) (names : List (String × τ)) {key : String}
    {members : List (String × Json)} (others : ∀ e ∈ members, e.1 ≠ key) (tag : Option τ) :
    splitTag held key names (ofMembers members) tag = .ok (tag, ofMembers members) := by
  induction members with
  | nil => rfl
  | cons e rest ih =>
    obtain ⟨k, v⟩ := e
    have apart : k ≠ key := others (k, v) (by simp)
    rw [ofMembers, splitTag, if_neg apart, read_ofJson,
      ih fun f hf => others f (List.mem_cons_of_mem _ hf)]
    rfl

end Json.Source

end ConsumerContract
