import ConsumerContract.Json.Source
import ConsumerContract.Proofs.Scanning

/-!
# The source of a written value

The tokens of a value are read as the tree of this value, `Source.ofJson`, whatever follows them. So a
reader of a text in either layout gets to see that tree, as long as it is not too deep:
`decodeText_compact` and `decodeText_pretty`.
-/

namespace ConsumerContract.Json

namespace Source

/-! ### From the tokens -/

/-- A value starts with a token that closes nothing. -/
theorem tokens_eq_cons (v : Json) :
    ∃ t ts, v.tokens = t :: ts ∧ t ≠ .closeArray ∧ t ≠ .closeObject := by
  cases v <;> unfold tokens <;> exact ⟨_, _, rfl, by simp, by simp⟩

theorem tokensItems_eq_cons (v : Json) (rest : List Json) :
    ∃ t ts, tokensItems (v :: rest) = t :: ts ∧ t ≠ .closeArray := by
  obtain ⟨t, ts, shape, close, _⟩ := tokens_eq_cons v
  cases rest with
  | nil =>
    unfold tokensItems
    exact ⟨t, ts, shape, close⟩
  | cons w more =>
    unfold tokensItems
    rw [shape]
    exact ⟨t, _, rfl, close⟩

theorem tokensMembers_eq_cons (e : String × Json) (rest : List (String × Json)) :
    ∃ ts, tokensMembers (e :: rest) = .string e.1 :: ts := by
  obtain ⟨k, v⟩ := e
  cases rest with
  | nil => exact ⟨_, rfl⟩
  | cons f more => exact ⟨_, rfl⟩

theorem ofTokens_openArray (fuel : Nat) {t : Token} (h : t ≠ .closeArray) (ts : List Token) :
    ofTokens (fuel + 1) (.openArray :: t :: ts) =
      (.array (itemsOfTokens fuel (t :: ts)).1 (itemsOfTokens fuel (t :: ts)).2.1,
        (itemsOfTokens fuel (t :: ts)).2.2) := by
  cases t <;> first | exact absurd rfl h | rfl

theorem ofTokens_openObject (fuel : Nat) {t : Token} (h : t ≠ .closeObject) (ts : List Token) :
    ofTokens (fuel + 1) (.openObject :: t :: ts) =
      (.object (membersOfTokens fuel (t :: ts)).1 (membersOfTokens fuel (t :: ts)).2.1,
        (membersOfTokens fuel (t :: ts)).2.2) := by
  cases t <;> first | exact absurd rfl h | rfl

mutual

/-- The tokens of a value are read as its source. The fuel is used up once an item and twice a member,
hence the factor of two. -/
theorem ofTokens_tokens : (v : Json) → (fuel : Nat) → 2 * v.tokens.length ≤ fuel →
    (rest : List Token) → ofTokens fuel (v.tokens ++ rest) = (ofJson v, rest)
  | .null, fuel, enough, rest | .bool _, fuel, enough, rest | .num _, fuel, enough, rest
  | .str _, fuel, enough, rest => by
    obtain ⟨fuel, rfl⟩ : ∃ n, fuel = n + 1 := ⟨fuel - 1, by simp [tokens] at enough; omega⟩
    rfl
  | .arr [], fuel, enough, rest | .obj [], fuel, enough, rest => by
    obtain ⟨fuel, rfl⟩ : ∃ n, fuel = n + 1 :=
      ⟨fuel - 1, by simp [tokens, tokensItems, tokensMembers] at enough; omega⟩
    rfl
  | .arr (v :: more), fuel, enough, rest => by
    unfold tokens at enough ⊢
    obtain ⟨fuel, rfl⟩ : ∃ n, fuel = n + 1 := ⟨fuel - 1, by simp at enough; omega⟩
    have room : 2 * (tokensItems (v :: more)).length + 1 ≤ fuel := by
      simp at enough
      omega
    have inside := itemsOfTokens_tokensItems v more fuel room rest
    obtain ⟨t, ts, shape, close⟩ := tokensItems_eq_cons v more
    have front : .openArray :: tokensItems (v :: more) ++ [.closeArray] ++ rest =
        .openArray :: t :: (ts ++ .closeArray :: rest) := by simp [shape]
    rw [shape, List.cons_append] at inside
    rw [front, ofTokens_openArray fuel close, inside]
    rfl
  | .obj (e :: more), fuel, enough, rest => by
    unfold tokens at enough ⊢
    obtain ⟨fuel, rfl⟩ : ∃ n, fuel = n + 1 := ⟨fuel - 1, by simp at enough; omega⟩
    have room : 2 * (tokensMembers (e :: more)).length + 1 ≤ fuel := by
      simp at enough
      omega
    have inside := membersOfTokens_tokensMembers e more fuel room rest
    obtain ⟨ts, shape⟩ := tokensMembers_eq_cons e more
    have front : .openObject :: tokensMembers (e :: more) ++ [.closeObject] ++ rest =
        .openObject :: .string e.1 :: (ts ++ .closeObject :: rest) := by simp [shape]
    rw [shape, List.cons_append] at inside
    rw [front, ofTokens_openObject fuel (by simp), inside]
    rfl

theorem itemsOfTokens_tokensItems : (v : Json) → (more : List Json) → (fuel : Nat) →
    2 * (tokensItems (v :: more)).length + 1 ≤ fuel → (rest : List Token) →
    itemsOfTokens fuel (tokensItems (v :: more) ++ .closeArray :: rest) =
      (ofItems (v :: more), none, rest)
  | v, [], fuel, enough, rest => by
    obtain ⟨fuel, rfl⟩ : ∃ n, fuel = n + 1 := ⟨fuel - 1, by omega⟩
    unfold tokensItems at enough ⊢
    have value := ofTokens_tokens v fuel (by omega) (.closeArray :: rest)
    rw [itemsOfTokens, value]
    rfl
  | v, w :: more, fuel, enough, rest => by
    obtain ⟨fuel, rfl⟩ : ∃ n, fuel = n + 1 := ⟨fuel - 1, by omega⟩
    unfold tokensItems at enough ⊢
    rw [List.length_append, List.length_cons] at enough
    have value := ofTokens_tokens v fuel (by omega)
      (.comma :: (tokensItems (w :: more) ++ .closeArray :: rest))
    have later := itemsOfTokens_tokensItems w more fuel (by omega) rest
    rw [List.append_assoc, List.cons_append, itemsOfTokens, value]
    simp only [later]
    rfl

theorem membersOfTokens_tokensMembers : (e : String × Json) → (more : List (String × Json)) →
    (fuel : Nat) → 2 * (tokensMembers (e :: more)).length + 1 ≤ fuel → (rest : List Token) →
    membersOfTokens fuel (tokensMembers (e :: more) ++ .closeObject :: rest) =
      (ofMembers (e :: more), none, rest)
  | (k, v), [], fuel, enough, rest => by
    unfold tokensMembers at enough ⊢
    rw [List.length_cons, List.length_cons] at enough
    obtain ⟨fuel, rfl⟩ : ∃ n, fuel = n + 2 := ⟨fuel - 2, by omega⟩
    have value := ofTokens_tokens v fuel (by omega) (.closeObject :: rest)
    rw [List.cons_append, List.cons_append, membersOfTokens, memberOfTokens, value]
    rfl
  | (k, v), f :: more, fuel, enough, rest => by
    unfold tokensMembers at enough ⊢
    rw [List.length_cons, List.length_cons, List.length_append, List.length_cons] at enough
    obtain ⟨fuel, rfl⟩ : ∃ n, fuel = n + 2 := ⟨fuel - 2, by omega⟩
    have value := ofTokens_tokens v fuel (by omega)
      (.comma :: (tokensMembers (f :: more) ++ .closeObject :: rest))
    have later := membersOfTokens_tokensMembers f more fuel (by omega) rest
    rw [List.cons_append, List.cons_append, List.append_assoc, List.cons_append, membersOfTokens,
      memberOfTokens, value]
    simp only [later]
    rfl

end

/-! ### Depth -/

mutual

/-- A source that is not too deep is kept as it is. -/
theorem within_of_height_le : (s : Source) → {room : Nat} → s.height ≤ room → s.within room = s
  | .null, room, _ | .bool _, room, _ | .number _, room, _ | .text _, room, _
  | .unreadable .., room, _ | .badScalar .., room, _ => by cases room <;> rfl
  | .array items ending, room, h => by
    unfold height at h
    obtain ⟨room, rfl⟩ : ∃ n, room = n + 1 := ⟨room - 1, by omega⟩
    rw [within, itemsWithin_of_height_le items (by omega)]
  | .object members ending, room, h => by
    unfold height at h
    obtain ⟨room, rfl⟩ : ∃ n, room = n + 1 := ⟨room - 1, by omega⟩
    rw [within, membersWithin_of_height_le members (by omega)]

theorem itemsWithin_of_height_le : (items : List Source) → {room : Nat} →
    heightItems items ≤ room → itemsWithin room items = items
  | [], _, _ => rfl
  | v :: rest, room, h => by
    unfold heightItems at h
    rw [itemsWithin, within_of_height_le v (by omega), itemsWithin_of_height_le rest (by omega)]

theorem membersWithin_of_height_le : (members : List (Key × Source)) → {room : Nat} →
    heightMembers members ≤ room → membersWithin room members = members
  | [], _, _ => rfl
  | (k, v) :: rest, room, h => by
    unfold heightMembers at h
    rw [membersWithin, within_of_height_le v (by omega),
      membersWithin_of_height_le rest (by omega)]

end

/-! ### Reading -/

/-- A container is read exactly if it was closed. -/
theorem close_eq_ok_iff {α : Type} {ending : Option Failure} {a b : α} :
    close ending a = .ok b ↔ ending = none ∧ a = b := by
  cases ending <;> simp [close]

mutual

/-- The source of a value is read as the value. -/
theorem read_ofJson : (v : Json) → (ofJson v).read = .ok v
  | .null | .bool _ | .num _ | .str _ => rfl
  | .arr items => by
    rw [ofJson, read, readItems_ofItems items]
    rfl
  | .obj members => by
    rw [ofJson, read, readMembers_ofMembers members]
    rfl

theorem readItems_ofItems : (items : List Json) → readItems (ofItems items) = .ok items
  | [] => rfl
  | v :: rest => by
    rw [ofItems, readItems, read_ofJson v, readItems_ofItems rest]
    rfl

theorem readMembers_ofMembers : (members : List (String × Json)) →
    readMembers (ofMembers members) = .ok members
  | [] => rfl
  | (k, v) :: rest => by
    rw [ofMembers, readMembers, read_ofJson v, readMembers_ofMembers rest]
    rfl

end

/-- A value in canonical form is read as it is. -/
theorem value_ofJson {v : Json} (h : v.Everywhere InOrder) : (ofJson v).value = .ok v := by
  rw [value, read_ofJson, Except.map, canonical_of_inOrder v h]

end Source

/-! ### Texts -/

/-- How many arrays and objects stand inside each other in the value. -/
def depth (v : Json) : Nat :=
  (Source.ofJson v).height

/-- An item is less deep than its array. -/
theorem depth_lt_of_mem_arr {v : Json} {items : List Json} (h : v ∈ items) :
    v.depth < (Json.arr items).depth := by
  have all : v.depth ≤ Source.heightItems (Source.ofItems items) := by
    induction items with
    | nil => exact absurd h List.not_mem_nil
    | cons w rest ih =>
      unfold Source.ofItems Source.heightItems
      rcases List.mem_cons.1 h with rfl | h
      · exact Nat.le_max_left ..
      · exact Nat.le_trans (ih h) (Nat.le_max_right ..)
  exact Nat.lt_succ_of_le all

theorem depth_lt_of_mem_obj {e : String × Json} {members : List (String × Json)}
    (h : e ∈ members) : e.2.depth < (Json.obj members).depth := by
  have all : e.2.depth ≤ Source.heightMembers (Source.ofMembers members) := by
    induction members with
    | nil => exact absurd h List.not_mem_nil
    | cons f rest ih =>
      obtain ⟨k, w⟩ := f
      unfold Source.ofMembers Source.heightMembers
      rcases List.mem_cons.1 h with rfl | h
      · exact Nat.le_max_left ..
      · exact Nat.le_trans (ih h) (Nat.le_max_right ..)
  exact Nat.lt_succ_of_le all

/-- A text that scans as the tokens of a value, not too deep, is decoded as the value. -/
theorem decodeText_of_scan {α : Type} (decode : Source → Except Failure α) {v : Json} {text : String}
    (scanned : Token.scan text.toList = v.tokens) (shallow : v.depth ≤ Source.maxDepth) :
    decodeText decode text = decode (Source.ofJson v) := by
  have whole := Source.ofTokens_tokens v (2 * v.tokens.length + 2) (by omega) []
  rw [List.append_nil] at whole
  rw [decodeText, scanned]
  unfold decodeTokens
  simp only [whole, Source.within_of_height_le _ shallow]
  cases decode (Source.ofJson v) <;> rfl

/-- A reader of a text without blanks sees the value that was written. -/
theorem decodeText_compact {α : Type} (decode : Source → Except Failure α) {v : Json}
    (plain : v.Everywhere HasPlainNumber) (shallow : v.depth ≤ Source.maxDepth) :
    decodeText decode v.compact = decode (Source.ofJson v) :=
  decodeText_of_scan decode (scan_compact plain) shallow

/-- A reader of an indented text sees it too. -/
theorem decodeText_pretty {α : Type} (decode : Source → Except Failure α) {v : Json}
    (plain : v.Everywhere HasPlainNumber) (shallow : v.depth ≤ Source.maxDepth) :
    decodeText decode v.pretty = decode (Source.ofJson v) :=
  decodeText_of_scan decode (scan_pretty plain) shallow

end ConsumerContract.Json
