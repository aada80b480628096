import ConsumerContract.Json.Token

/-!
# A text as far as it can be read

A `Source` is the tree of a JSON text in which every place that cannot be read is a leaf of its own.
What a reader makes of a text is then a function on this tree: it looks at the tree from left to right
and answers with the first thing that is wrong, be it a place that cannot be read or a value of another
shape than the wanted one. `Source.read` takes any value; `Source.skip` passes over one.
-/

namespace ConsumerContract.Json

/-- The key of a member. -/
inductive Key where
  | known (name : String)
  /-- A key that reads as no string; `passed` as for a token. -/
  | flawed (cause : Failure) (passed : Option Failure)
  deriving DecidableEq, Repr

/-- A value of a text. The `ending` of a list is why it does not end as it should. -/
inductive Source where
  | null
  | bool (b : Bool)
  | number (n : Number)
  | text (s : String)
  | array (items : List Source) (ending : Option Failure)
  | object (members : List (Key × Source)) (ending : Option Failure)
  /-- A string that cannot be read, or no value: reading fails with `cause`; passing over fails with
  `passed`, or not at all. -/
  | unreadable (cause : Failure) (passed : Option Failure)
  /-- A number or word that cannot be read. -/
  | badScalar (cause : Failure) (passed : Option Failure)

namespace Source

/-- A place where reading and passing over fail alike. -/
def broken (cause : Failure) : Source :=
  .unreadable cause (some cause)

/-! ### From tokens -/

mutual

/-- The value at the front of the tokens, and the tokens after it. -/
def ofTokens : (fuel : Nat) → List Token → Source × List Token
  | 0, _ => (broken .truncated, [])
  | _, [] => (broken .truncated, [])
  | fuel + 1, token :: rest =>
    match token with
    | .null => (.null, rest)
    | .bool b => (.bool b, rest)
    | .number n => (.number n, rest)
    | .string s => (.text s, rest)
    | .badScalar cause passed => (.badScalar cause passed, rest)
    | .badString cause passed => (.unreadable cause passed, rest)
    | .openArray =>
      match rest with
      | [] => (.array [] (some .truncated), [])
      | .closeArray :: rest => (.array [] none, rest)
      | rest =>
        let (items, ending, rest) := itemsOfTokens fuel rest
        (.array items ending, rest)
    | .openObject =>
      match rest with
      | [] => (.object [] (some .truncated), [])
      | .closeObject :: rest => (.object [] none, rest)
      | rest =>
        let (members, ending, rest) := membersOfTokens fuel rest
        (.object members ending, rest)
    | _ => (broken .malformed, [])

/-- One or more items up to the closing bracket. -/
def itemsOfTokens : (fuel : Nat) → List Token → List Source × Option Failure × List Token
  | 0, _ => ([], some .truncated, [])
  | fuel + 1, tokens =>
    let (value, rest) := ofTokens fuel tokens
    match rest with
    | .comma :: rest =>
      let (items, ending, rest) := itemsOfTokens fuel rest
      (value :: items, ending, rest)
    | .closeArray :: rest => ([value], none, rest)
    | [] => ([value], some .truncated, [])
    | _ => ([value], some .malformed, [])

/-- One or more members up to the closing brace. If no token is left, the key is the place that cannot
be read. -/
def membersOfTokens : (fuel : Nat) → List Token → List (Key × Source) × Option Failure × List Token
  | 0, _ => ([], some .truncated, [])
  | _, [] => ([(.flawed .truncated (some .truncated), broken .truncated)], some .truncated, [])
  | fuel + 1, token :: rest =>
    match token with
    | .string s => memberOfTokens fuel (.known s) rest
    | .badString cause passed => memberOfTokens fuel (.flawed cause passed) rest
    | _ => ([], some .malformed, [])

/-- The rest of the member of `key`, and the members after it. -/
def memberOfTokens : (fuel : Nat) → Key → List Token → List (Key × Source) × Option Failure × List Token
  | 0, _, _ => ([], some .truncated, [])
  | _, key, [] => ([(key, broken .truncated)], some .truncated, [])
  | fuel + 1, key, .colon :: rest =>
    let (value, rest) := ofTokens fuel rest
    match rest with
    | .comma :: rest =>
      let (members, ending, rest) := membersOfTokens fuel rest
      ((key, value) :: members, ending, rest)
    | .closeObject :: rest => ([(key, value)], none, rest)
    | [] => ([(key, value)], some .truncated, [])
    | _ => ([(key, value)], some .malformed, [])
  | _, key, _ => ([(key, broken .malformed)], some .malformed, [])

end

/-! ### Passing over -/

/-- The first failure of a list: that of an item, or else that of its end. -/
def firstFailure (failure ending : Option Failure) : Option Failure :=
  match failure with
  | some f => some f
  | none => ending

mutual

/-- Why the value cannot be passed over. -/
def skip : Source → Option Failure
  | .unreadable _ passed | .badScalar _ passed => passed
  | .array items ending => firstFailure (skipItems items) ending
  | .object members ending => firstFailure (skipMembers members) ending
  | .null | .bool _ | .number _ | .text _ => none

/-- Why the items cannot be passed over. -/
def skipItems : List Source → Option Failure
  | [] => none
  | v :: rest => firstFailure v.skip (skipItems rest)

/-- Why the members cannot be passed over. -/
def skipMembers : List (Key × Source) → Option Failure
  | [] => none
  | (.flawed _ (some f), _) :: _ => some f
  | (_, v) :: rest => firstFailure v.skip (skipMembers rest)

end

/-! ### Depth -/

/-- How many arrays and objects may stand inside each other. -/
def maxDepth : Nat :=
  127

mutual

/-- The tree with at most `room` levels of arrays and objects: a deeper one reads as malformed and
is passed over as before. -/
def within : (room : Nat) → Source → Source
  | 0, .array items ending => .unreadable .malformed (skip (.array items ending))
  | 0, .object members ending => .unreadable .malformed (skip (.object members ending))
  | room + 1, .array items ending => .array (itemsWithin room items) ending
  | room + 1, .object members ending => .object (membersWithin room members) ending
  | _, leaf => leaf

/-- `within` on every item. -/
def itemsWithin : (room : Nat) → List Source → List Source
  | _, [] => []
  | room, v :: rest => within room v :: itemsWithin room rest

/-- `within` on the value of every member. -/
def membersWithin : (room : Nat) → List (Key × Source) → List (Key × Source)
  | _, [] => []
  | room, (k, v) :: rest => (k, within room v) :: membersWithin room rest

end

mutual

/-- The number of levels of arrays and objects. -/
def height : Source → Nat
  | .array items _ => heightItems items + 1
  | .object members _ => heightMembers members + 1
  | _ => 0

/-- The greatest height of an item. -/
def heightItems : List Source → Nat
  | [] => 0
  | v :: rest => max v.height (heightItems rest)

/-- The greatest height of a member. -/
def heightMembers : List (Key × Source) → Nat
  | [] => 0
  | (_, v) :: rest => max v.height (heightMembers rest)

end

/-! ### Reading -/

/-- Why a value of another shape than the wanted one is refused. -/
def refusal : Source → Failure
  | .unreadable cause _ | .badScalar cause _ => cause
  | _ => .mismatched

/-- The end of a list: `a`, unless the list does not end as it should. -/
def close {α : Type} (ending : Option Failure) (a : α) : Except Failure α :=
  match ending with
  | none => .ok a
  | some f => .error f

mutual

/-- Any value, with its members in the order of the text. -/
def read : Source → Except Failure Json
  | .null => .ok .null
  | .bool b => .ok (.bool b)
  | .number n => .ok (.num n)
  | .text s => .ok (.str s)
  | .array items ending =>
    match readItems items with
    | .error f => .error f
    | .ok items => close ending (.arr items)
  | .object members ending =>
    match readMembers members with
    | .error f => .error f
    | .ok members => close ending (.obj members)
  | .unreadable cause _ | .badScalar cause _ => .error cause

/-- Every item. -/
def readItems : List Source → Except Failure (List Json)
  | [] => .ok []
  | v :: rest =>
    match v.read with
    | .error f => .error f
    | .ok v => (readItems rest).map (v :: ·)

/-- Every member. -/
def readMembers : List (Key × Source) → Except Failure (List (String × Json))
  | [] => .ok []
  | (.flawed cause _, _) :: _ => .error cause
  | (.known k, v) :: rest =>
    match v.read with
    | .error f => .error f
    | .ok v => (readMembers rest).map ((k, v) :: ·)

end

/-- Any value, in canonical form. -/
def value (s : Source) : Except Failure Json :=
  s.read.map Json.canonical

mutual

/-- The source of a value that is at hand. -/
def ofJson : Json → Source
  | .null => .null
  | .bool b => .bool b
  | .num n => .number n
  | .str s => .text s
  | .arr items => .array (ofItems items) none
  | .obj members => .object (ofMembers members) none

/-- The sources of items. -/
def ofItems : List Json → List Source
  | [] => []
  | v :: rest => ofJson v :: ofItems rest

/-- The sources of members. -/
def ofMembers : List (String × Json) → List (Key × Source)
  | [] => []
  | (k, v) :: rest => (.known k, ofJson v) :: ofMembers rest

end

end Source

/-- Reads tokens with `decode`; nothing may follow the value. -/
def decodeTokens {α : Type} (decode : Source → Except Failure α) (tokens : List Token) :
    Except Failure α :=
  let (source, rest) := Source.ofTokens (2 * tokens.length + 2) tokens
  match decode (source.within Source.maxDepth) with
  | .error f => .error f
  | .ok a => if rest.isEmpty then .ok a else .error .malformed

/-- Reads a text with `decode`; nothing but blanks may follow the value. -/
def decodeText {α : Type} (decode : Source → Except Failure α) (text : String) :
    Except Failure α :=
  decodeTokens decode (Token.scan text.toList)

/-- Reads the text that is given by its bytes. -/
def decodeBytes {α : Type} (decode : Source → Except Failure α) (bytes : ByteArray) :
    Except Failure α :=
  decodeTokens decode (Token.scanBytes bytes)

/-- An object was read. -/
def readsObject : Except Failure Json → Bool
  | .ok v => v.isObject
  | .error _ => false

/-- The text is that of an object. -/
def isObjectText (text : String) : Bool :=
  readsObject (decodeText Source.read text)

/-- The bytes are those of the text of an object. -/
def isObjectBytes (bytes : ByteArray) : Bool :=
  readsObject (decodeBytes Source.read bytes)

end ConsumerContract.Json
