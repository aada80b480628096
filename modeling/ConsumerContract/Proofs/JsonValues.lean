import ConsumerContract.Json.Basic
import ConsumerContract.Proofs.Dictionaries

/-!
# What holds throughout a JSON value

`Json.Everywhere` asks something of a value and of every value inside it. A value whose objects all
have their members in order is its own canonical form.
-/

namespace ConsumerContract.Json

mutual

/-- `p` holds of the value and of every value inside it. -/
def Everywhere (p : Json → Prop) : Json → Prop
  | .arr items => p (.arr items) ∧ EveryItem p items
  | .obj members => p (.obj members) ∧ EveryMember p members
  | v => p v

/-- `p` holds throughout every item. -/
def EveryItem (p : Json → Prop) : List Json → Prop
  | [] => True
  | v :: rest => v.Everywhere p ∧ EveryItem p rest

/-- `p` holds throughout the value of every member. -/
def EveryMember (p : Json → Prop) : List (String × Json) → Prop
  | [] => True
  | (_, v) :: rest => v.Everywhere p ∧ EveryMember p rest

end

theorem everyItem_iff {p : Json → Prop} {items : List Json} :
    EveryItem p items ↔ ∀ v ∈ items, v.Everywhere p := by
  induction items with
  | nil => simp [EveryItem]
  | cons v rest ih => simp [EveryItem, ih]

theorem everyMember_iff {p : Json → Prop} {members : List (String × Json)} :
    EveryMember p members ↔ ∀ e ∈ members, e.2.Everywhere p := by
  induction members with
  | nil => simp [EveryMember]
  | cons e rest ih =>
    obtain ⟨k, v⟩ := e
    simp [EveryMember, ih]

mutual

/-- What follows from a property at each value follows from it throughout. -/
theorem Everywhere.imp {p q : Json → Prop} (h : ∀ v, p v → q v) :
    (v : Json) → v.Everywhere p → v.Everywhere q
  | .null, hv | .bool _, hv | .num _, hv | .str _, hv => h _ hv
  | .arr items, hv => ⟨h _ hv.1, EveryItem.imp h items hv.2⟩
  | .obj members, hv => ⟨h _ hv.1, EveryMember.imp h members hv.2⟩

theorem EveryItem.imp {p q : Json → Prop} (h : ∀ v, p v → q v) :
    (items : List Json) → EveryItem p items → EveryItem q items
  | [], _ => trivial
  | v :: rest, hv => ⟨Everywhere.imp h v hv.1, EveryItem.imp h rest hv.2⟩

theorem EveryMember.imp {p q : Json → Prop} (h : ∀ v, p v → q v) :
    (members : List (String × Json)) → EveryMember p members → EveryMember q members
  | [], _ => trivial
  | (_, v) :: rest, hv => ⟨Everywhere.imp h v hv.1, EveryMember.imp h rest hv.2⟩

end

/-- The members of an object stand in the order of their keys, no key twice. -/
def InOrder : Json → Prop
  | .obj members => Dict.Ordered members
  | _ => True

mutual

/-- A value in order is its own canonical form. -/
theorem canonical_of_inOrder : (v : Json) → v.Everywhere InOrder → v.canonical = v
  | .null, _ | .bool _, _ | .num _, _ | .str _, _ => rfl
  | .arr items, h => by rw [canonical, canonicalItems_of_inOrder items h.2]
  | .obj members, h => by
    rw [canonical, canonicalMembers_of_inOrder members h.2, Dict.ofList_of_ordered h.1]

theorem canonicalItems_of_inOrder :
    (items : List Json) → EveryItem InOrder items → canonicalItems items = items
  | [], _ => rfl
  | v :: rest, h => by
    rw [canonicalItems, canonical_of_inOrder v h.1, canonicalItems_of_inOrder rest h.2]

theorem canonicalMembers_of_inOrder :
    (members : List (String × Json)) → EveryMember InOrder members →
      canonicalMembers members = members
  | [], _ => rfl
  | (k, v) :: rest, h => by
    rw [canonicalMembers, canonical_of_inOrder v h.1, canonicalMembers_of_inOrder rest h.2]

end

/-- The canonical form of members changes their values only. -/
theorem canonicalMembers_eq (members : List (String × Json)) :
    canonicalMembers members = Dict.mapValues canonical members := by
  induction members with
  | nil => rfl
  | cons e rest ih =>
    obtain ⟨k, v⟩ := e
    rw [canonicalMembers, ih]
    rfl

end ConsumerContract.Json
