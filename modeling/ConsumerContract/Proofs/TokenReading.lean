import ConsumerContract.Proofs.Sources

/-!
# The tokens from which a value is read

The tokens of a value are read as the value; here is the converse. Only the source of a value is read as it
(`Source.read_eq_ok_iff`), only the tokens of a value make up its source (`Source.tokens_of_ofTokens`), and
cutting a source down leaves the source of a value only if it was not too deep (`Source.of_within_eq`). So a
text is read as a value exactly if it has the tokens of the value and no others (`decodeTokens_eq_ok_iff`).
-/

namespace ConsumerContract.Json

namespace Source

/-! ### Reading -/

mutual

/-- Only the source of a value is read as this value. -/
theorem eq_ofJson_of_read : (s : Source) → {v : Json} → s.read = .ok v → s = ofJson v
  | .null, _, h | .bool _, _, h | .number _, _, h | .text _, _, h => by
    cases h
    rfl
  | .unreadable .., _, h | .badScalar .., _, h => by cases h
  | .array items ending, _, h => by
    rw [read] at h
    split at h
    next => cases h
    next vs inside =>
      obtain ⟨rfl, rfl⟩ := close_eq_ok_iff.1 h
      rw [ofJson, eq_ofItems_of_readItems items inside]
  | .object members ending, _, h => by
    rw [read] at h
    split at h
    next => cases h
    next vs inside =>
      obtain ⟨rfl, rfl⟩ := close_eq_ok_iff.1 h
      rw [ofJson, eq_ofMembers_of_readMembers members inside]

theorem eq_ofItems_of_readItems : (items : List Source) → {vs : List Json} →
    readItems items = .ok vs → items = ofItems vs
  | [], _, h => by
    cases h
    rfl
  | s :: rest, _, h => by
    rw [readItems] at h
    split at h
    next => cases h
    next v first =>
      obtain ⟨vs, later, rfl⟩ := map_eq_ok_iff.1 h
      rw [ofItems, eq_ofJson_of_read s first, eq_ofItems_of_readItems rest later]

theorem eq_ofMembers_of_readMembers : (members : List (Key × Source)) → {vs : List (String × Json)} →
    readMembers members = .ok vs → members = ofMembers vs
  | [], _, h => by
    cases h
    rfl
  | (.flawed .., _) :: _, _, h => by cases h
  | (.known k, s) :: rest, _, h => by
    rw [readMembers] at h
    split at h
    next => cases h
    next v first =>
      obtain ⟨vs, later, rfl⟩ := map_eq_ok_iff.1 h
      rw [ofMembers, eq_ofJson_of_read s first, eq_ofMembers_of_readMembers rest later]

end

/-- A value is read exactly from its own source. -/
theorem read_eq_ok_iff {s : Source} {v : Json} : s.read = .ok v ↔ s = ofJson v := by
  constructor
  · exact eq_ofJson_of_read s
  · rintro rfl
    exact read_ofJson v

/-! ### Depth -/

mutual

/-- What is cut down to the source of a value was that source, and not too deep. -/
theorem of_within_eq : (s : Source) → {room : Nat} → {v : Json} → s.within room = ofJson v →
    s = ofJson v ∧ s.height ≤ room
  | .null, room, _, h | .bool _, room, _, h | .number _, room, _, h | .text _, room, _, h
  | .unreadable .., room, _, h | .badScalar .., room, _, h => by
    cases room <;> exact ⟨h, Nat.zero_le _⟩
  | .array items ending, 0, v, h | .object members ending, 0, v, h => by cases v <;> cases h
  | .array items ending, room + 1, v, h => by
    cases v with
    | arr vs =>
      rw [within, ofJson, Source.array.injEq] at h
      obtain ⟨rfl, low⟩ := of_itemsWithin_eq items h.1
      rw [h.2, ofJson, height]
      exact ⟨rfl, Nat.succ_le_succ low⟩
    | _ => cases h
  | .object members ending, room + 1, v, h => by
    cases v with
    | obj vs =>
      rw [within, ofJson, Source.object.injEq] at h
      obtain ⟨rfl, low⟩ := of_membersWithin_eq members h.1
      rw [h.2, ofJson, height]
      exact ⟨rfl, Nat.succ_le_succ low⟩
    | _ => cases h

theorem of_itemsWithin_eq : (items : List Source) → {room : Nat} → {vs : List Json} →
    itemsWithin room items = ofItems vs → items = ofItems vs ∧ heightItems items ≤ room
  | [], _, _, h => ⟨h, Nat.zero_le _⟩
  | s :: rest, room, vs, h => by
    cases vs with
    | nil => cases h
    | cons v vs =>
      rw [itemsWithin, ofItems, List.cons.injEq] at h
      obtain ⟨rfl, first⟩ := of_within_eq s h.1
      obtain ⟨rfl, others⟩ := of_itemsWithin_eq rest h.2
      exact ⟨rfl, Nat.max_le.2 ⟨first, others⟩⟩

theorem of_membersWithin_eq : (members : List (Key × Source)) → {room : Nat} →
    {vs : List (String × Json)} → membersWithin room members = ofMembers vs →
    members = ofMembers vs ∧ heightMembers members ≤ room
  | [], _, _, h => ⟨h, Nat.zero_le _⟩
  | (key, s) :: rest, room, vs, h => by
    cases vs with
    | nil => cases h
    | cons e vs =>
      obtain ⟨k, v⟩ := e
      rw [membersWithin, ofMembers, List.cons.injEq, Prod.mk.injEq] at h
      obtain ⟨⟨rfl, value⟩, more⟩ := h
      obtain ⟨rfl, first⟩ := of_within_eq s value
      obtain ⟨rfl, others⟩ := of_membersWithin_eq rest more
      exact ⟨rfl, Nat.max_le.2 ⟨first, others⟩⟩

end

/-! ### From tokens -/

theorem ofItems_eq_cons {vs : List Json} {s : Source} {rest : List Source} (h : s :: rest = ofItems vs) :
    ∃ v more, vs = v :: more ∧ s = ofJson v ∧ rest = ofItems more := by
  cases vs with
  | nil => cases h
  | cons v more =>
    obtain ⟨first, later⟩ := List.cons.inj h
    exact ⟨v, more, rfl, first, later⟩

theorem ofMembers_eq_cons {vs : List (String × Json)} {key : Key} {s : Source}
    {rest : List (Key × Source)} (h : (key, s) :: rest = ofMembers vs) :
    ∃ k v more, vs = (k, v) :: more ∧ key = .known k ∧ s = ofJson v ∧ rest = ofMembers more := by
  cases vs with
  | nil => cases h
  | cons e more =>
    obtain ⟨k, v⟩ := e
    obtain ⟨first, later⟩ := List.cons.inj h
    obtain ⟨same, value⟩ := Prod.mk.inj first
    exact ⟨k, v, more, rfl, same, value, later⟩

theorem ofItems_eq_nil {vs : List Json} (h : ofItems vs = []) : vs = [] := by
  cases vs with
  | nil => rfl
  | cons v more => cases h

theorem ofMembers_eq_nil {vs : List (String × Json)} (h : ofMembers vs = []) : vs = [] := by
  cases vs with
  | nil => rfl
  | cons e more => cases h

theorem tokensItems_cons (v : Json) {more : List Json} (h : more ≠ []) :
    tokensItems (v :: more) = v.tokens ++ .comma :: tokensItems more := by
  rw [tokensItems]
  exact h

theorem tokensMembers_cons (k : String) (v : Json) {more : List (String × Json)} (h : more ≠ []) :
    tokensMembers ((k, v) :: more) =
      .string k :: .colon :: (v.tokens ++ .comma :: tokensMembers more) := by
  rw [tokensMembers]
  exact h

mutual

/-- Tokens that make up the source of a value begin with those of the value. -/
theorem tokens_of_ofTokens : (fuel : Nat) → {ts rest : List Token} → {v : Json} →
    ofTokens fuel ts = (ofJson v, rest) → ts = v.tokens ++ rest
  | 0, _, _, v, h => by cases v <;> cases h
  | _ + 1, [], _, v, h => by cases v <;> cases h
  | fuel + 1, t :: ts, rest, v, h => by
    cases t with
    | null | bool b | number n | string s =>
      cases v <;> cases h
      rfl
    | badScalar | badString | closeArray | closeObject | comma | colon | stray => cases v <;> cases h
    | openArray =>
      cases ts with
      | nil => cases v <;> simp [ofTokens, ofJson] at h
      | cons t ts =>
        by_cases close : t = .closeArray
        · subst close
          cases v with
          | arr vs =>
            cases vs with
            | nil =>
              cases h
              rfl
            | cons v more => simp [ofTokens, ofJson, ofItems] at h
          | _ => cases h
        · rw [ofTokens_openArray fuel close] at h
          cases v with
          | arr vs =>
            rw [ofJson, Prod.mk.injEq, Source.array.injEq] at h
            obtain ⟨⟨items, ending⟩, left⟩ := h
            have inside : itemsOfTokens fuel (t :: ts) = (ofItems vs, none, rest) := by
              rw [← items, ← ending, ← left]
            obtain ⟨-, same⟩ := tokens_of_itemsOfTokens fuel inside
            simp [tokens, same]
          | _ => cases h
    | openObject =>
      cases ts with
      | nil => cases v <;> simp [ofTokens, ofJson] at h
      | cons t ts =>
        by_cases close : t = .closeObject
        · subst close
          cases v with
          | obj vs =>
            cases vs with
            | nil =>
              cases h
              rfl
            | cons e more => simp [ofTokens, ofJson, ofMembers] at h
          | _ => cases h
        · rw [ofTokens_openObject fuel close] at h
          cases v with
          | obj vs =>
            rw [ofJson, Prod.mk.injEq, Source.object.injEq] at h
            obtain ⟨⟨members, ending⟩, left⟩ := h
            have inside : membersOfTokens fuel (t :: ts) = (ofMembers vs, none, rest) := by
              rw [← members, ← ending, ← left]
            obtain ⟨-, same⟩ := tokens_of_membersOfTokens fuel inside
            simp [tokens, same]
          | _ => cases h

theorem tokens_of_itemsOfTokens : (fuel : Nat) → {ts rest : List Token} → {vs : List Json} →
    itemsOfTokens fuel ts = (ofItems vs, none, rest) →
    vs ≠ [] ∧ ts = tokensItems vs ++ .closeArray :: rest
  | 0, _, _, vs, h => by simp [itemsOfTokens] at h
  | fuel + 1, ts, rest, vs, h => by
    rw [itemsOfTokens] at h
    cases value : ofTokens fuel ts with
    | mk s left =>
      rw [value] at h
      cases left with
      | nil => simp at h
      | cons t left =>
        cases t with
        | comma =>
          simp only [Prod.mk.injEq] at h
          obtain ⟨whole, ending, same⟩ := h
          obtain ⟨v, more, rfl, rfl, items⟩ := ofItems_eq_cons whole
          have later : itemsOfTokens fuel left = (ofItems more, none, rest) := by
            rw [← items, ← ending, ← same]
          obtain ⟨some, rfl⟩ := tokens_of_itemsOfTokens fuel later
          rw [tokens_of_ofTokens fuel value, tokensItems_cons v some]
          simp
        | closeArray =>
          simp only [Prod.mk.injEq] at h
          obtain ⟨whole, -, rfl⟩ := h
          obtain ⟨v, more, rfl, rfl, none⟩ := ofItems_eq_cons whole
          obtain rfl := ofItems_eq_nil none.symm
          rw [tokens_of_ofTokens fuel value]
          simp [tokensItems]
        | _ => simp at h

theorem tokens_of_membersOfTokens : (fuel : Nat) → {ts rest : List Token} →
    {vs : List (String × Json)} → membersOfTokens fuel ts = (ofMembers vs, none, rest) →
    vs ≠ [] ∧ ts = tokensMembers vs ++ .closeObject :: rest
  | 0, _, _, vs, h => by simp [membersOfTokens] at h
  | _ + 1, [], _, vs, h => by simp [membersOfTokens] at h
  | fuel + 1, t :: ts, rest, vs, h => by
    cases t with
    | string s =>
      obtain ⟨k, same, all⟩ := tokens_of_memberOfTokens fuel h
      obtain rfl := Key.known.inj same
      exact all
    | badString cause passed =>
      obtain ⟨k, same, -⟩ := tokens_of_memberOfTokens fuel h
      cases same
    | _ => simp [membersOfTokens] at h

theorem tokens_of_memberOfTokens : (fuel : Nat) → {key : Key} → {ts rest : List Token} →
    {vs : List (String × Json)} → memberOfTokens fuel key ts = (ofMembers vs, none, rest) →
    ∃ k, key = .known k ∧ vs ≠ [] ∧ .string k :: ts = tokensMembers vs ++ .closeObject :: rest
  | 0, _, _, _, vs, h => by simp [memberOfTokens] at h
  | _ + 1, _, [], _, vs, h => by simp [memberOfTokens] at h
  | fuel + 1, key, t :: ts, rest, vs, h => by
    cases t with
    | colon =>
      rw [memberOfTokens] at h
      cases value : ofTokens fuel ts with
      | mk s left =>
        rw [value] at h
        cases left with
        | nil => simp at h
        | cons t left =>
          cases t with
          | comma =>
            simp only [Prod.mk.injEq] at h
            obtain ⟨whole, ending, same⟩ := h
            obtain ⟨k, v, more, rfl, rfl, rfl, members⟩ := ofMembers_eq_cons whole
            have later : membersOfTokens fuel left = (ofMembers more, none, rest) := by
              rw [← members, ← ending, ← same]
            obtain ⟨some, rfl⟩ := tokens_of_membersOfTokens fuel later
            refine ⟨k, rfl, List.cons_ne_nil _ _, ?_⟩
            rw [tokens_of_ofTokens fuel value, tokensMembers_cons k v some]
            simp
          | closeObject =>
            simp only [Prod.mk.injEq] at h
            obtain ⟨whole, -, rfl⟩ := h
            obtain ⟨k, v, more, rfl, rfl, rfl, none⟩ := ofMembers_eq_cons whole
            obtain rfl := ofMembers_eq_nil none.symm
            refine ⟨k, rfl, List.cons_ne_nil _ _, ?_⟩
            rw [tokens_of_ofTokens fuel value]
            simp [tokensMembers]
          | _ => simp at h
    | _ => simp [memberOfTokens] at h

end

end Source

/-- A value is read from its tokens and no others, unless it is too deep. -/
theorem decodeTokens_eq_ok_iff {ts : List Token} {v : Json} :
    decodeTokens Source.read ts = .ok v ↔ ts = v.tokens ∧ v.depth ≤ Source.maxDepth := by
  constructor
  · intro h
    unfold decodeTokens at h
    cases built : Source.ofTokens (2 * ts.length + 2) ts with
    | mk s rest =>
      simp only [built] at h
      split at h
      next => cases h
      next w reads =>
        split at h
        next last =>
          cases h
          obtain ⟨rfl, shallow⟩ := Source.of_within_eq s (Source.read_eq_ok_iff.1 reads)
          have all := Source.tokens_of_ofTokens _ built
          rw [List.isEmpty_iff.1 last, List.append_nil] at all
          exact ⟨all, shallow⟩
        next => cases h
  · rintro ⟨rfl, shallow⟩
    have whole := Source.ofTokens_tokens v (2 * v.tokens.length + 2) (by omega) []
    rw [List.append_nil] at whole
    unfold decodeTokens
    simp only [whole, Source.within_of_height_le _ shallow, Source.read_ofJson]
    rfl

end ConsumerContract.Json
