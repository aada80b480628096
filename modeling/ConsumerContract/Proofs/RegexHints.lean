import ConsumerContract.Proofs.Hints

/-!
# How much of a hint its pattern takes

A token that begins with `regex=` takes all that is left of its hint, commas and keys included. Where white
space stands between the key and `=`, the key is known as well, but the token is cut like any other: at the
first comma that a known key follows. So the pattern is all that follows its `=` if and only if no white
space stands before the `=`, or no key follows a comma behind it: `Hint.regex_of_read`.
-/

namespace ConsumerContract

open Text (isBlank isBlankText trim trimStart)

namespace Hint

/-- The text in front of the pattern: the key, perhaps white space, and `=`. -/
def patternStart (gap : List Char) : List Char :=
  HintKey.regex.word.toList ++ gap ++ ['=']

/-- Where the pattern of a hint comes from. The tokens `earlier` are read as the hint `b`. They leave the
key, the white space `gap`, `=` and the text `after`, and the pattern is taken from this text. The tokens
`later` follow the pattern, and are read on from it. -/
structure TakesPattern (raw : String) (a b : Hint) (pattern : String) (gap after : List Char)
    (earlier later : List (List Char)) : Prop where
  blank : isBlankText gap = true
  leaves : Leaves (trim raw.toList) earlier (patternStart gap ++ after)
  tokens : tokens (trim raw.toList) = earlier ++ (patternStart gap ++ pattern.toList) :: later
  before : takeAll { raw := raw } earlier = .ok b
  behind : takeAll { b with regex := some pattern } later = .ok a

/-- A token that names the pattern begins with its key. -/
theorem exists_gap {token : List Char} {value : String} (first : ∀ c ∈ token.head?, isBlank c = false)
    (split : splitToken token = some (HintKey.regex.word, value)) :
    ∃ gap, isBlankText gap = true ∧ token = patternStart gap ++ value.toList := by
  obtain ⟨before, after, rfl, -, trimmed, rfl⟩ := splitToken_eq_some_iff.1 split
  obtain ⟨front, back, blank, blank', padded⟩ := Text.exists_padding before
  have word : trim before = HintKey.regex.word.toList := by
    rw [← trimmed, String.toList_ofList]
  cases front with
  | nil => exact ⟨back, blank', by rw [padded, word]; simp [patternStart]⟩
  | cons c front =>
    have visible : isBlank c = false := first c (by rw [padded]; rfl)
    rw [(Text.isBlankText_cons.1 blank).1] at visible
    cases visible

/-- The start of a pattern takes all that follows exactly if no blank stands in it. -/
theorem greedy_patternStart_iff {gap : List Char} (blank : isBlankText gap = true) (after : List Char) :
    greedyStart.isPrefixOf (patternStart gap ++ after) = true ↔ gap = [] := by
  rw [List.isPrefixOf_iff_prefix]
  constructor
  · rintro ⟨rest, same⟩
    have tails : '=' :: rest = gap ++ '=' :: after := by
      simpa [patternStart, greedyStart, HintKey.word] using same
    cases gap with
    | nil => rfl
    | cons c gap =>
      obtain ⟨rfl, -⟩ := List.cons.inj tails
      have equals := (Text.isBlankText_cons.1 blank).1
      cases equals
  · rintro rfl
    exact ⟨after, rfl⟩

/-- The start of a pattern has no comma. -/
theorem not_mem_patternStart {gap : List Char} (blank : isBlankText gap = true) : ',' ∉ patternStart gap := by
  have padded : ',' ∉ [] ++ HintKey.regex.word.toList ++ gap := not_mem_padded rfl blank (.inl rfl)
  simpa [patternStart] using padded

/-- The start of a pattern adds no key to what follows. -/
theorem holdsKey_patternStart_iff {gap : List Char} (blank : isBlankText gap = true) (after : List Char) :
    HoldsKey (patternStart gap ++ after) ↔ HoldsKey after :=
  holdsKey_append_of_not_mem (not_mem_patternStart blank)

/-- The first token begins with no white space if the text does not. -/
theorem firstToken_first {cs : List Char} (first : ∀ c ∈ cs.head?, isBlank c = false) :
    ∀ c ∈ (firstToken cs).1.head?, isBlank c = false := by
  obtain ⟨gap, same⟩ := firstToken_append cs
  intro c hc
  obtain ⟨rest, shape⟩ := List.head?_eq_some_iff.1 hc
  apply first c
  rw [same, shape]
  rfl

/-- The token of a pattern is all that is left, unless white space stands before the `=` and a key follows some
comma. Then it ends at the first such comma. -/
theorem firstToken_patternStart {gap : List Char} (blank : isBlankText gap = true) (after : List Char) :
    ((gap = [] ∨ ¬ HoldsKey after) ∧
      firstToken (patternStart gap ++ after) = (patternStart gap ++ after, [])) ∨
    gap ≠ [] ∧ ∃ value more, after = value ++ ',' :: more ∧ NamesKey more ∧ ¬ HoldsKey value ∧
      firstToken (patternStart gap ++ after) = (patternStart gap ++ value, more) := by
  rcases firstToken_cases (patternStart gap ++ after) with ⟨greedy, ends⟩ | ⟨-, holds, ends⟩ |
    ⟨token, more, patient, holds, names, tail, ends⟩
  · exact .inl ⟨.inl ((greedy_patternStart_iff blank after).1 greedy), ends⟩
  · exact .inl ⟨.inr fun held => holds ((holdsKey_patternStart_iff blank after).2 held), ends⟩
  · have apart : gap ≠ [] := by
      intro close
      rw [(greedy_patternStart_iff blank after).2 close] at patient
      cases patient
    -- the comma that ends the token stands behind the `=`
    obtain ⟨value, rfl, rfl⟩ : ∃ value, token = patternStart gap ++ value ∧ after = value ++ ',' :: more := by
      rcases List.append_eq_append_iff.1 tail with ⟨value, within, behind⟩ | ⟨front, within, behind⟩
      · exact ⟨value, within, behind⟩
      · cases front with
        | nil => exact ⟨[], by simpa using within.symm, by simpa using behind.symm⟩
        | cons c front =>
          obtain ⟨rfl, -⟩ := List.cons.inj behind
          exact absurd (by simp [within]) (not_mem_patternStart blank)
    have free := (holdsKey_patternStart_iff blank value).not.1 holds
    exact .inr ⟨apart, value, more, rfl, names, free, ends⟩

/-- The pattern is all that follows its `=`, and nothing is read behind it, if and only if no white space
stands before the `=` or no key follows a comma behind it. Otherwise the pattern ends at the first such
comma, and the keys behind it are read. -/
theorem regex_of_read {raw : String} {a : Hint} {pattern : String} (h : read raw = .ok a)
    (given : a.regex = some pattern) :
    ∃ b gap after earlier later, TakesPattern raw a b pattern gap after earlier later ∧
      (pattern.toList = after ↔ gap = [] ∨ ¬ HoldsKey after) ∧
      (later = [] ↔ gap = [] ∨ ¬ HoldsKey after) ∧
      (gap ≠ [] → HoldsKey after → ∃ more, after = pattern.toList ++ ',' :: more ∧ NamesKey more ∧
        ¬ HoldsKey pattern.toList ∧ later = tokens (trimStart more)) := by
  obtain ⟨taken, -⟩ := read_eq_ok_iff.1 h
  have fresh : Hint.has { raw } .regex = false := rfl
  obtain ⟨earlier, token, later, b, d, value, cut, before, word, puts, behind, same⟩ :=
    exists_token taken fresh (Option.isSome_of_eq_some given)
  cases puts
  obtain rfl : pattern = value := Option.some.inj (given.symm.trans same)
  obtain ⟨rest, some, leaves, rfl, rfl⟩ := exists_leaves cut
  have first := leaves.first (Text.trim_first raw.toList)
  obtain ⟨gap, blank, shape⟩ := exists_gap (firstToken_first first) word
  obtain ⟨after, rfl⟩ : ∃ after, rest = patternStart gap ++ after := by
    obtain ⟨space, whole⟩ := firstToken_append rest
    rw [shape, List.append_assoc, List.append_assoc] at whole
    exact ⟨_, whole⟩
  refine ⟨b, gap, after, earlier, _, ⟨blank, leaves, shape ▸ cut, before, behind⟩, ?_⟩
  rcases firstToken_patternStart blank after with
    ⟨free, ends⟩ | ⟨apart, value, more, rfl, names, holds, ends⟩
  · rw [ends] at shape ⊢
    have nothing : tokens (trimStart []) = [] := tokens_nil
    refine ⟨iff_of_true (List.append_cancel_left shape).symm free, iff_of_true nothing free, ?_⟩
    exact fun apart held => absurd held (free.resolve_left apart)
  · rw [ends] at shape ⊢
    obtain rfl : value = pattern.toList := List.append_cancel_left shape
    have held : HoldsKey (pattern.toList ++ ',' :: more) := ⟨pattern.toList, more, rfl, names⟩
    have ended : ¬ (gap = [] ∨ ¬ HoldsKey (pattern.toList ++ ',' :: more)) := by simp [apart, held]
    refine ⟨iff_of_false (by simp) ended, iff_of_false (tokens_trimStart_ne_nil names) ended, ?_⟩
    exact fun _ _ => ⟨more, rfl, names, holds, rfl⟩

example : read "example=a,regex=x,min=2" =
    .ok { raw := "example=a,regex=x,min=2", sample := some "a", regex := some "x,min=2" } := by
  decide +kernel

/-! ### White space before the equals sign -/

namespace SpacedPattern

/-- A hint whose pattern ends before its text does. -/
def text : String :=
  "example=a,regex =x,min=2"

/-- What is read of it. -/
def hint : Hint :=
  { raw := text, sample := some "a", regex := some "x", min := some 2 }

theorem read_text : read text = .ok hint := by
  decide +kernel

theorem regex_of_read_spaced : ∃ b gap after earlier later,
    TakesPattern text hint b "x" gap after earlier later ∧
    ("x".toList = after ↔ gap = [] ∨ ¬ HoldsKey after) ∧
    (later = [] ↔ gap = [] ∨ ¬ HoldsKey after) ∧
    (gap ≠ [] → HoldsKey after → ∃ more, after = "x".toList ++ ',' :: more ∧ NamesKey more ∧
      ¬ HoldsKey "x".toList ∧ later = tokens (trimStart more)) :=
  regex_of_read read_text rfl

end SpacedPattern

end Hint

end ConsumerContract
