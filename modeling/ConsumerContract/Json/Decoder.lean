import ConsumerContract.Json.Source

/-!
# Readers of typed values

A reader takes a source and answers with a value of its type or with the first failure from left to
right. A record is read from an object, whose members may come in any order and may include unknown
ones, or from an array of its fields in order. A value is *held* if the form of the whole decides how it
is read, so that all of it has been read before: then a wrong shape is a mismatch and never a break of
the grammar.
-/

namespace ConsumerContract.Json.Source

variable {α σ τ : Type}

/-- A string. -/
def asText : Source → Except Failure String
  | .text s => .ok s
  | s => .error s.refusal

/-- An integer from 0 to `limit`. -/
def asNatural (limit : Nat) : Source → Except Failure Nat
  | .number (.int n) => if 0 ≤ n ∧ n ≤ limit then .ok n.toNat else .error .mismatched
  | s => .error s.refusal

/-- An unsigned integer of 64 bits. -/
def asUInt64 (s : Source) : Except Failure UInt64 :=
  (s.asNatural (UInt64.size - 1)).map UInt64.ofNat

/-- An unsigned integer of 16 bits. -/
def asUInt16 (s : Source) : Except Failure UInt16 :=
  (s.asNatural (UInt16.size - 1)).map UInt16.ofNat

/-- A value or `null`. -/
def asOptional (decode : Source → Except Failure α) : Source → Except Failure (Option α)
  | .null => .ok none
  | s => (decode s).map some

/-- Every item by `decode`, up to the first failure. -/
def eachItem (decode : Source → Except Failure α) : List Source → Except Failure (List α)
  | [] => .ok []
  | v :: rest =>
    match decode v with
    | .error f => .error f
    | .ok a => (eachItem decode rest).map (a :: ·)

/-- An array of values of one type. -/
def asList (decode : Source → Except Failure α) : Source → Except Failure (List α)
  | .array items ending =>
    match eachItem decode items with
    | .error f => .error f
    | .ok as => close ending as
  | s => .error s.refusal

/-- Every member by `decode`, up to the first failure. -/
def eachMember (decode : Source → Except Failure α) :
    List (Key × Source) → Except Failure (List (String × α))
  | [] => .ok []
  | (.flawed cause _, _) :: _ => .error cause
  | (.known k, v) :: rest =>
    match decode v with
    | .error f => .error f
    | .ok a => (eachMember decode rest).map ((k, a) :: ·)

/-- An object of values of one type; of two members with one key the later stays. -/
def asDict (decode : Source → Except Failure α) : Source → Except Failure (List (String × α))
  | .object members ending =>
    match eachMember decode members with
    | .error f => .error f
    | .ok entries => close ending (Dict.ofList entries)
  | s => .error s.refusal

/-! ### Records -/

/-- A field of a record that is being filled. -/
structure Slot (σ : Type) where
  name : String
  /-- The field has been read. -/
  filled : σ → Bool
  /-- Reads the field into the record. -/
  fill : Source → σ → Except Failure σ

/-- The slot of a field that `get` looks up and `set` writes. -/
def slot (name : String) (decode : Source → Except Failure α) (get : σ → Option α)
    (set : α → σ → σ) : Slot σ where
  name := name
  filled r := (get r).isSome
  fill s r := (decode s).map fun a => set a r

/-- Fills slots from members in their order. A known member may come once; an unknown one is passed
over. -/
def fillMembers (slots : List (Slot σ)) : List (Key × Source) → σ → Except Failure σ
  | [], r => .ok r
  | (.flawed cause _, _) :: _, _ => .error cause
  | (.known k, v) :: rest, r =>
    match slots.find? (·.name == k) with
    | none =>
      match v.skip with
      | some f => .error f
      | none => fillMembers slots rest r
    | some slot =>
      if slot.filled r then .error .mismatched
      else match slot.fill v r with
        | .error f => .error f
        | .ok r => fillMembers slots rest r

/-- Fills slots from items, the first from the first. Slots may stay empty; items may not be left. -/
def fillItems (held : Bool) (ending : Option Failure) :
    List (Slot σ) → List Source → σ → Except Failure σ
  | _, [], r => close ending r
  | [], _ :: _, _ => .error (if held then .mismatched else .malformed)
  | slot :: slots, v :: rest, r =>
    match slot.fill v r with
    | .error f => .error f
    | .ok r => fillItems held ending slots rest r

/-- A record: `start` with the slots that the source fills. -/
def asRecord (held : Bool) (slots : List (Slot σ)) (start : σ) : Source → Except Failure σ
  | .object members ending =>
    match fillMembers slots members start with
    | .error f => .error f
    | .ok r => close ending r
  | .array items ending => fillItems held ending slots items start
  | s => .error s.refusal

/-- The value of a field that must be there. -/
def required : Option α → Except Failure α
  | some a => .ok a
  | none => .error .mismatched

/-- A record of one field that must be there. -/
def asSingle (held : Bool) (name : String) (decode : Source → Except Failure α) (s : Source) :
    Except Failure α :=
  match asRecord held [slot name decode id fun a _ => some a] none s with
  | .error f => .error f
  | .ok field => required field

/-! ### Alternatives -/

/-- The alternative that a word names. -/
def named (names : List (String × τ)) (word : String) : Except Failure τ :=
  match Dict.get? word names with
  | some a => .ok a
  | none => .error .mismatched

/-- No value at all: `null`, or for a lenient reader an object without members. -/
def asNothing (lenient : Bool) : Source → Except Failure Unit
  | .null => .ok ()
  | .object [] none => if lenient then .ok () else .error .mismatched
  | s => .error s.refusal

/-- One of several words: a string, or an object whose only member has the word as its key and
nothing as its value. -/
def asWord (held lenient : Bool) (names : List (String × τ)) : Source → Except Failure τ
  | .text s => named names s
  | .object ((.known k, v) :: rest) ending =>
    match named names k, asNothing lenient v with
    | .error f, _ => .error f
    | .ok _, .error f => .error f
    | .ok a, .ok () =>
      if rest.isEmpty then close ending a else .error (if held then .mismatched else .malformed)
  | .object ((.flawed cause _, _) :: _) _ => .error cause
  | .object [] ending => .error (ending.getD (if held then .mismatched else .malformed))
  | .unreadable cause _ => .error cause
  | _ => .error (if held then .mismatched else .malformed)

/-- The alternative that a tag names. A held tag may also be its position among the names. -/
def asTag (held : Bool) (names : List (String × τ)) : Source → Except Failure τ
  | .text s => named names s
  | .number (.int (.ofNat n)) =>
    match held, names[n]? with
    | true, some (_, a) => .ok a
    | _, _ => .error .mismatched
  | s => .error s.refusal

/-- Goes through the members in their order: the tag is read at once, every other member is read and
kept. -/
def splitTag (held : Bool) (key : String) (names : List (String × τ)) :
    List (Key × Source) → Option τ → Except Failure (Option τ × List (Key × Source))
  | [], found => .ok (found, [])
  | (.flawed cause _, _) :: _, _ => .error cause
  | (.known k, v) :: rest, found =>
    if k = key then
      if found.isSome then .error .mismatched
      else match asTag held names v with
        | .error f => .error f
        | .ok a => splitTag held key names rest (some a)
    else
      match v.read with
      | .error f => .error f
      | .ok _ =>
        (splitTag held key names rest found).map fun (tag, others) =>
          (tag, (.known k, v) :: others)

/-- A tagged alternative: the tag, and the rest of the value without it. The tag is a member of an
object, or the first item of an array. -/
def asTagged (held : Bool) (key : String) (names : List (String × τ)) :
    Source → Except Failure (τ × Source)
  | .object members ending =>
    match splitTag held key names members none with
    | .error f => .error f
    | .ok (tag, others) =>
      match close ending others with
      | .error f => .error f
      | .ok others => (required tag).map (·, .object others none)
  | .array (v :: rest) ending =>
    match asTag held names v with
    | .error f => .error f
    | .ok tag =>
      match readItems rest with
      | .error f => .error f
      | .ok _ => close ending (tag, .array rest none)
  | .array [] ending => .error (ending.getD .mismatched)
  | s => .error s.refusal

/-- An alternative without fields: an object of any members, or an array without items. -/
def asUnit : Source → Except Failure Unit
  | .object _ _ => .ok ()
  | .array [] _ => .ok ()
  | _ => .error .mismatched

end ConsumerContract.Json.Source
