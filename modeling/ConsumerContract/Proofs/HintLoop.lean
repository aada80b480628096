import ConsumerContract.Proofs.Hints

/-!
# The loop that reads a hint

A hint is read in turns. Each turn cuts one token off what is left, takes it up and skips the white space
behind its comma. `Hint.Cut` says where a token ends, and `Hint.Spells` how tokens make up a text. Every
turn leaves less than there was, so the loop ends: with nothing left, or with a token that is refused
(`exists_run`). Nothing is lost on the way: the tokens spell the text (`spells_tokens`), and commas that
no key follows stay in their token.
-/

namespace ConsumerContract

open Text (isBlank isBlankText trim trimStart)

namespace Hint

/-! ### Cuts -/

/-- The comma behind `token` is the first one in the text that a known key follows. -/
structure FirstCut (cs token more : List Char) : Prop where
  whole : cs = token ++ ',' :: more
  names : NamesKey more
  first : ∀ before after, cs = before ++ ',' :: after → NamesKey after → token.length ≤ before.length

/-- Where the first token of a text ends, and what is left behind its comma. -/
inductive Cut (cs : List Char) : List Char → List Char → Prop
  | greedy : greedyStart <+: cs → Cut cs cs []
  | comma {token more : List Char} : ¬ greedyStart <+: cs → FirstCut cs token more → Cut cs token more
  | whole : ¬ greedyStart <+: cs → ¬ HoldsKey cs → Cut cs cs []

/-- The first comma before a key is where the token before it ends. -/
theorem firstCut_of_not_holdsKey {token more : List Char} (names : NamesKey more)
    (holds : ¬ HoldsKey token) : FirstCut (token ++ ',' :: more) token more where
  whole := rfl
  names := names
  first before after same named := by
    by_contra shorter
    rw [Nat.not_le] at shorter
    -- an earlier comma would stand in the token
    obtain ⟨rest, rfl, tail⟩ : ∃ rest, token = before ++ rest ∧ ',' :: after = rest ++ ',' :: more := by
      rcases List.append_eq_append_iff.1 same with ⟨rest, rfl, tail⟩ | ⟨rest, rfl, tail⟩
      · simp only [List.length_append] at shorter
        omega
      · exact ⟨rest, rfl, tail⟩
    cases rest with
    | nil => simp at shorter
    | cons c rest =>
      obtain ⟨rfl, rfl⟩ := List.cons.inj tail
      exact holds ⟨before, rest, rfl, (namesKey_append_comma_iff more).1 named⟩

/-- The first token is cut off as the grammar says. -/
theorem cut_firstToken (cs : List Char) : Cut cs (firstToken cs).1 (firstToken cs).2 := by
  rcases firstToken_cases cs with ⟨greedy, ends⟩ | ⟨patient, holds, ends⟩ |
    ⟨token, more, patient, holds, names, rfl, ends⟩
  · rw [ends]
    exact .greedy (List.isPrefixOf_iff_prefix.1 greedy)
  · rw [ends]
    exact .whole (by simp [← List.isPrefixOf_iff_prefix, patient]) holds
  · rw [ends]
    exact .comma (by simp [← List.isPrefixOf_iff_prefix, patient]) (firstCut_of_not_holdsKey names holds)

/-! ### What tokens spell -/

/-- The tokens, in order, make up the text. Behind each but the last stand a comma and white space, all of
it up to the next token. -/
inductive Spells : List (List Char) → List Char → Prop
  | nil : Spells [] []
  | last (token : List Char) : Spells [token] token
  | next {gap rest : List Char} {ts : List (List Char)} {c : Char} (token : List Char) :
    isBlankText gap = true → isBlank c = false → Spells ts (c :: rest) →
    Spells (token :: ts) (token ++ ',' :: gap ++ c :: rest)

theorem trimStart_ne_nil {cs : List Char} (names : NamesKey cs) : trimStart cs ≠ [] := by
  intro empty
  have some := tokens_trimStart_ne_nil names
  rw [empty, tokens_nil] at some
  exact some rfl

/-- One cut: what the tokens behind it spell, they spell behind the comma and its white space. -/
theorem Spells.cut {token more : List Char} {ts : List (List Char)} (names : NamesKey more)
    (h : Spells ts (trimStart more)) : Spells (token :: ts) (token ++ ',' :: more) := by
  obtain ⟨c, rest, shape⟩ := List.exists_cons_of_ne_nil (trimStart_ne_nil names)
  have visible : isBlank c = false := Text.trimStart_first more c (by rw [shape]; rfl)
  have blank : isBlankText (more.takeWhile isBlank) = true :=
    Text.isBlankText_iff.2 fun d hd => List.mem_takeWhile_imp hd
  have whole : more = more.takeWhile isBlank ++ c :: rest := by
    rw [← shape]
    exact (List.takeWhile_append_dropWhile).symm
  rw [shape] at h
  have spelled := Spells.next token blank visible h
  rwa [List.append_assoc, List.cons_append, ← whole] at spelled

/-- The tokens of a text spell it. -/
theorem spells_tokens (cs : List Char) : Spells (tokens cs) cs := by
  fun_induction tokens cs with
  | case1 => exact .nil
  | case2 cs some ih =>
    rcases firstToken_cases cs with ⟨-, ends⟩ | ⟨-, -, ends⟩ | ⟨token, more, -, -, names, same, ends⟩
    · rw [ends, trimStart, List.dropWhile_nil, tokens_nil]
      exact .last cs
    · rw [ends, trimStart, List.dropWhile_nil, tokens_nil]
      exact .last cs
    · rw [ends] at ih ⊢
      rw [same]
      exact ih.cut names

/-- A comma at the end of the text stands at the end of the last token. -/
theorem Spells.trailing {ts : List (List Char)} {front : List Char} (h : Spells ts (front ++ [','])) :
    ∃ earlier last, ts = earlier ++ [last ++ [',']] := by
  generalize whole : front ++ [','] = cs at h
  induction h generalizing front with
  | nil => simp at whole
  | last token => exact ⟨[], front, by simp [whole]⟩
  | @next gap rest ts c token blank visible _ ih =>
    obtain ⟨body, tail⟩ : ∃ body, c :: rest = body ++ [','] := by
      have ends := congrArg List.getLast? whole
      simp only [List.getLast?_append, List.getLast?_singleton] at ends
      exact List.getLast?_eq_some_iff.1 (by simpa using ends.symm)
    obtain ⟨earlier, last, rfl⟩ := ih tail.symm
    exact ⟨token :: earlier, last, rfl⟩

/-- Where nothing but commas is left, there is no cut. -/
theorem tokens_of_commas {cs : List Char} (some : cs ≠ []) (commas : ∀ c ∈ cs, c = ',') :
    tokens cs = [cs] := by
  apply tokens_of_uncut some
  rintro ⟨before, after, rfl, key, front, back, value, -, -, rfl⟩
  have equals : '=' = ',' := commas '=' (by simp)
  cases equals

/-! ### Turns -/

/-- The loop takes up the tokens `ts` of the text `cs`, which makes the hint `b` of `a` and leaves `rest`. -/
inductive Run : Hint → List Char → List (List Char) → Hint → List Char → Prop
  | start (a : Hint) (cs : List Char) : Run a cs [] a cs
  | turn {a b c : Hint} {cs rest : List Char} {ts : List (List Char)} : cs ≠ [] →
    a.take (firstToken cs).1 = .ok b → Run b (trimStart (firstToken cs).2) ts c rest →
    Run a cs ((firstToken cs).1 :: ts) c rest

/-- What is made of the hint `b` when the loop stops at `rest`: the next token is refused, or nothing is left
and the keys are checked together. -/
inductive Stops (raw : String) (b : Hint) : List Char → Except Error Hint → Prop
  | refused {rest : List Char} {fault : HintFault} : rest ≠ [] →
    b.take (firstToken rest).1 = .error fault → Stops raw b rest (.error (error { raw } fault))
  | clash {fault : HintFault} : b.conflict = some fault → Stops raw b [] (.error (error { raw } fault))
  | agreed : b.conflict = none → Stops raw b [] (.ok b)

/-- Every turn makes the text shorter. -/
theorem Run.length_add_le {a b : Hint} {cs rest : List Char} {ts : List (List Char)}
    (h : Run a cs ts b rest) : ts.length + rest.length ≤ cs.length := by
  induction h with
  | start => simp
  | @turn a b c cs rest ts some _ _ ih =>
    have shorter := length_firstToken_snd some
    have trimmed := length_trimStart_le (firstToken cs).2
    simp only [List.length_cons]
    omega

/-- The tokens that have been taken up are the first ones of the text. -/
theorem Run.tokens_eq {a b : Hint} {cs rest : List Char} {ts : List (List Char)}
    (h : Run a cs ts b rest) : tokens cs = ts ++ tokens rest := by
  induction h with
  | start => rfl
  | turn some _ _ ih => rw [tokens_of_ne_nil some, ih, List.cons_append]

/-- The loop comes to a stop from every hint and every text. The induction is on the length of the text. -/
theorem exists_run (a : Hint) (cs : List Char) : ∃ ts b rest, Run a cs ts b rest ∧
    (rest = [] ∧ a.takeAll (tokens cs) = .ok b ∨
      rest ≠ [] ∧ ∃ fault, b.take (firstToken rest).1 = .error fault ∧
        a.takeAll (tokens cs) = .error fault) := by
  by_cases some : cs = []
  · subst some
    exact ⟨[], a, [], .start a [], .inl ⟨rfl, by rw [tokens_nil, takeAll]⟩⟩
  · rw [tokens_of_ne_nil some, takeAll]
    cases taken : a.take (firstToken cs).1 with
    | error fault => exact ⟨[], a, cs, .start a cs, .inr ⟨some, fault, taken, rfl⟩⟩
    | ok next =>
      obtain ⟨ts, b, rest, run, stops⟩ := exists_run next (trimStart (firstToken cs).2)
      exact ⟨_, b, rest, .turn some taken run, stops⟩
termination_by cs.length
decreasing_by
  exact Nat.lt_of_le_of_lt (length_trimStart_le _) (length_firstToken_snd some)

/-- Reading a hint is a run over its tokens, which stops as reading ends. -/
theorem exists_run_read (raw : String) :
    ∃ ts b rest, Run { raw } (trim raw.toList) ts b rest ∧ Stops raw b rest (read raw) := by
  obtain ⟨ts, b, rest, run, ⟨rfl, taken⟩ | ⟨some, fault, refusal, taken⟩⟩ :=
    exists_run { raw } (trim raw.toList)
  · refine ⟨ts, b, [], run, ?_⟩
    rw [read, taken]
    cases keys : b.conflict with
    | none => simpa only [keys] using Stops.agreed keys
    | some fault => simpa only [keys] using Stops.clash keys
  · refine ⟨ts, b, rest, run, ?_⟩
    rw [read, taken]
    exact .refused some refusal

/-- Reading a hint comes to a stop, in no more turns than the text has characters. As long as text is left, the
next token is cut off at the first comma that a known key follows, or is all that is left; commas at the
end stay in the last token. If nothing is left, the tokens spell the text. -/
theorem read_stops_and_spells (raw : String) :
    (∃ ts b rest, Run { raw } (trim raw.toList) ts b rest ∧ Stops raw b rest (read raw)) ∧
      ∀ ts b rest, Run { raw } (trim raw.toList) ts b rest →
        ts.length + rest.length ≤ (trim raw.toList).length ∧
        (rest = [] → Spells ts (trim raw.toList)) ∧
        Cut rest (firstToken rest).1 (firstToken rest).2 ∧
        (∀ front, rest = front ++ [','] → ∃ earlier last, tokens rest = earlier ++ [last ++ [',']]) ∧
        (rest ≠ [] → (∀ c ∈ rest, c = ',') → tokens rest = [rest]) := by
  refine ⟨exists_run_read raw, fun ts b rest run => ?_⟩
  refine ⟨run.length_add_le, ?lossless, cut_firstToken rest, ?trailing, tokens_of_commas⟩
  case lossless =>
    rintro rfl
    have spelled := spells_tokens (trim raw.toList)
    rwa [run.tokens_eq, tokens_nil, List.append_nil] at spelled
  case trailing =>
    rintro front rfl
    exact (spells_tokens _).trailing

namespace StrayCommas

/-- A hint with white space around a key, commas in a value and commas at its end. -/
def text : String :=
  " example=a, b ,, min = 2,regex =x,, "

/-- What is read of it. -/
def hint : Hint :=
  { raw := text, sample := some "a, b ,", min := some 2, regex := some "x,," }

theorem read_text : read text = .ok hint := by
  decide +kernel

theorem read_stops_and_spells_commas : ∃ ts, Run { raw := text } (trim text.toList) ts hint [] ∧
    Spells ts (trim text.toList) ∧ ts.length ≤ (trim text.toList).length := by
  obtain ⟨⟨ts, b, rest, run, stops⟩, turns⟩ := read_stops_and_spells text
  rw [read_text] at stops
  cases stops
  obtain ⟨short, lossless, -⟩ := turns ts hint [] run
  exact ⟨ts, run, lossless rfl, short⟩

end StrayCommas

end Hint

end ConsumerContract
