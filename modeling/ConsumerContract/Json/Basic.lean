import ConsumerContract.Dict
import ConsumerContract.Json.Number

/-!
# JSON values

A value of a document. The members of an object stand in the order in which they are written; the
values that the library passes around have them in the order of their keys, and `canonical` brings
any value into that form.
-/

namespace ConsumerContract

/-- A JSON value. -/
inductive Json where
  | null
  | bool (b : Bool)
  | num (n : Json.Number)
  | str (s : String)
  | arr (items : List Json)
  | obj (members : List (String × Json))
  deriving Inhabited

namespace Json

/-- The integer `n`. -/
def int (n : Int) : Json :=
  .num (.int n)

/-- The unsigned integer `n`. -/
def ofUInt64 (n : UInt64) : Json :=
  .int n.toNat

/-- The number `x`, or `null` if `x` is not finite: a document has no other number. -/
def float (x : Binary64) : Json :=
  if x.isFinite then .num (.float x) else .null

/-- The text of a string value. -/
def asText? : Json → Option String
  | .str s => some s
  | _ => none

/-- An object. -/
def isObject : Json → Bool
  | .obj _ => true
  | _ => false

mutual

/-- The value with the members of every object in the order of their keys, of two with one key the
later. -/
def canonical : Json → Json
  | .arr items => .arr (canonicalItems items)
  | .obj members => .obj (Dict.ofList (canonicalMembers members))
  | v => v

/-- `canonical` on every item. -/
def canonicalItems : List Json → List Json
  | [] => []
  | v :: rest => v.canonical :: canonicalItems rest

/-- `canonical` on the value of every member. -/
def canonicalMembers : List (String × Json) → List (String × Json)
  | [] => []
  | (k, v) :: rest => (k, v.canonical) :: canonicalMembers rest

end

mutual

/-- Equality of values, as a check. -/
def same : Json → Json → Bool
  | .null, .null => true
  | .bool a, .bool b => a == b
  | .num a, .num b => a == b
  | .str a, .str b => a == b
  | .arr a, .arr b => sameItems a b
  | .obj a, .obj b => sameMembers a b
  | _, _ => false

/-- Equality of item lists, as a check. -/
def sameItems : List Json → List Json → Bool
  | [], [] => true
  | a :: as, b :: bs => a.same b && sameItems as bs
  | _, _ => false

/-- Equality of member lists, as a check. -/
def sameMembers : List (String × Json) → List (String × Json) → Bool
  | [], [] => true
  | (k, a) :: as, (l, b) :: bs => k == l && a.same b && sameMembers as bs
  | _, _ => false

end

mutual

/-- The comparison of values decides their equality. -/
theorem same_iff : (a b : Json) → (a.same b = true ↔ a = b)
  | .null, b => by cases b <;> simp [same]
  | .bool _, b => by cases b <;> simp [same]
  | .num _, b => by cases b <;> simp [same]
  | .str _, b => by cases b <;> simp [same]
  | .arr items, b => by cases b <;> simp [same, sameItems_iff items]
  | .obj members, b => by cases b <;> simp [same, sameMembers_iff members]

theorem sameItems_iff : (a b : List Json) → (sameItems a b = true ↔ a = b)
  | [], b => by cases b <;> simp [sameItems]
  | a :: as, [] => by simp [sameItems]
  | a :: as, b :: bs => by simp [sameItems, same_iff a, sameItems_iff as]

theorem sameMembers_iff : (a b : List (String × Json)) → (sameMembers a b = true ↔ a = b)
  | [], b => by cases b <;> simp [sameMembers]
  | (k, a) :: as, [] => by simp [sameMembers]
  | (k, a) :: as, (l, b) :: bs => by
    simp [sameMembers, same_iff a, sameMembers_iff as]

end

instance : DecidableEq Json := fun a b =>
  decidable_of_iff _ (same_iff a b)

end Json

end ConsumerContract
