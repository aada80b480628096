import ConsumerContract.Hint.Basic
import ConsumerContract.Proofs.Dictionaries
import ConsumerContract.Proofs.Numerals
import Mathlib.Data.List.DropRight

/-!
# Hints, token by token

A hint is cut at a comma that a known key and `=` follow, with white space around the key or not:
`NamesKey`. What stands before such a comma, up to an earlier comma, cannot grow into a key with what
comes behind: a key holds no comma (`namesKey_append_comma_iff`). So a token is cut off in the same way
whatever follows it, and `cutBeforeKey_eq_some_iff` says where. `tokens_of_greedy`, `tokens_of_cut` and
`tokens_of_uncut` are the three ways in which tokens begin.
-/

namespace ConsumerContract

namespace Text

/-! ### White space at the ends -/

theorem isBlankText_iff {cs : List Char} : isBlankText cs = true ↔ ∀ c ∈ cs, isBlank c = true :=
  List.all_eq_true

theorem isBlankText_cons {c : Char} {cs : List Char} :
    isBlankText (c :: cs) = true ↔ isBlank c = true ∧ isBlankText cs = true := by
  simp [isBlankText]

/-- A digit is not white space. -/
theorem isBlank_of_isDigit {c : Char} (h : c.isDigit = true) : isBlank c = false := by
  have bounds : '0'.toNat ≤ c.toNat ∧ c.toNat ≤ '9'.toNat := by
    simpa [Char.isDigit, UInt32.le_iff_toNat_le] using h
  simp [isBlank, CodePoints.has, whiteSpace]
  simp at bounds
  omega

/-- The text neither begins nor ends with white space. -/
structure IsTrimmed (cs : List Char) : Prop where
  first : ∀ c ∈ cs.head?, isBlank c = false
  last : ∀ c ∈ cs.getLast?, isBlank c = false

theorem isTrimmed_of_forall {cs : List Char} (h : ∀ c ∈ cs, isBlank c = false) : IsTrimmed cs where
  first c hc := h c (List.mem_of_mem_head? hc)
  last c hc := h c (List.mem_of_mem_getLast? hc)

theorem trimEnd_eq_rdropWhile (cs : List Char) : trimEnd cs = cs.rdropWhile isBlank :=
  rfl

theorem trimStart_eq_self {cs : List Char} (first : ∀ c ∈ cs.head?, isBlank c = false) :
    trimStart cs = cs := by
  cases cs with
  | nil => rfl
  | cons c cs =>
    have kept : isBlank c = false := first c rfl
    simp [trimStart, kept]

theorem trimEnd_eq_self {cs : List Char} (last : ∀ c ∈ cs.getLast?, isBlank c = false) :
    trimEnd cs = cs := by
  rw [trimEnd_eq_rdropWhile, List.rdropWhile_eq_self_iff]
  intro some
  simp [last _ (List.getLast?_eq_some_getLast some)]

/-- A trimmed text stays as it is. -/
theorem trim_eq_self {cs : List Char} (h : IsTrimmed cs) : trim cs = cs := by
  rw [trim, trimStart_eq_self h.first, trimEnd_eq_self h.last]

/-- After trimming at the front no white space stands there. -/
theorem trimStart_first (cs : List Char) : ∀ c ∈ (trimStart cs).head?, isBlank c = false := by
  have first := List.head?_dropWhile_not isBlank cs
  intro c hc
  rw [trimStart, Option.mem_def] at hc
  rwa [hc] at first

/-- After trimming no white space stands at the front. -/
theorem trim_first (cs : List Char) : ∀ c ∈ (trim cs).head?, isBlank c = false := by
  obtain ⟨back, same⟩ : trim cs <+: trimStart cs := List.rdropWhile_prefix isBlank _
  intro c hc
  apply trimStart_first cs c
  obtain ⟨rest, shape⟩ := List.head?_eq_some_iff.1 hc
  rw [← same, shape]
  rfl

theorem trimStart_append {gap cs : List Char} (blank : isBlankText gap = true) :
    trimStart (gap ++ cs) = trimStart cs :=
  List.dropWhile_append_of_pos (isBlankText_iff.1 blank)

theorem trimEnd_append {gap cs : List Char} (blank : isBlankText gap = true) :
    trimEnd (cs ++ gap) = trimEnd cs := by
  have behind : ∀ c ∈ gap.reverse, isBlank c = true := fun c hc =>
    isBlankText_iff.1 blank c (List.mem_reverse.1 hc)
  rw [trimEnd, trimEnd, List.reverse_append, List.dropWhile_append_of_pos behind]

/-- White space around a text without any does not count. -/
theorem trim_padded {front cs back : List Char} (before : isBlankText front = true)
    (behind : isBlankText back = true) (h : ∀ c ∈ cs, isBlank c = false) :
    trim (front ++ cs ++ back) = cs := by
  rw [trim, List.append_assoc, trimStart_append before]
  cases cs with
  | nil =>
    have none : trimStart back = [] := List.dropWhile_eq_nil_iff.2 (isBlankText_iff.1 behind)
    rw [List.nil_append, none]
    rfl
  | cons c cs =>
    have kept : ∀ d ∈ (c :: cs ++ back).head?, isBlank d = false := by simp [h c]
    rw [trimStart_eq_self kept, trimEnd_append behind, trimEnd_eq_self (isTrimmed_of_forall h).last]

/-- A text is its trimmed form with white space around. -/
theorem exists_padding (cs : List Char) : ∃ front back,
    isBlankText front = true ∧ isBlankText back = true ∧ cs = front ++ trim cs ++ back := by
  have behind : (trimStart cs).rdropWhile isBlank ++ (trimStart cs).rtakeWhile isBlank = trimStart cs :=
    List.rdropWhile_append_rtakeWhile
  refine ⟨cs.takeWhile isBlank, (trimStart cs).rtakeWhile isBlank, ?front, ?back, ?whole⟩
  case front => exact isBlankText_iff.2 fun c hc => (List.mem_takeWhile_imp hc)
  case back => exact isBlankText_iff.2 fun c hc => List.mem_rtakeWhile_imp hc
  case whole =>
    rw [trim, trimEnd_eq_rdropWhile, List.append_assoc, behind]
    exact (List.takeWhile_append_dropWhile).symm

/-- A cut is made at the first separator. -/
theorem cutOnce_append {separator : Char} {before : List Char} (absent : separator ∉ before)
    (after : List Char) : cutOnce separator (before ++ separator :: after) = some (before, after) := by
  induction before with
  | nil => simp [cutOnce]
  | cons c before ih =>
    rw [List.mem_cons, not_or] at absent
    simp [cutOnce, Ne.symm absent.1, ih absent.2]

/-- The two sides of a cut are those of the first separator. -/
theorem cutOnce_eq_some_iff {separator : Char} {cs before after : List Char} :
    cutOnce separator cs = some (before, after) ↔
      cs = before ++ separator :: after ∧ separator ∉ before := by
  constructor
  · intro cut
    have whole := append_of_cutOnce cut
    have mem : separator ∈ cs := by simp [whole]
    obtain ⟨b, a, same, absent⟩ := List.eq_append_cons_of_mem mem
    rw [same, cutOnce_append absent] at cut
    cases cut
    exact ⟨same, absent⟩
  · rintro ⟨rfl, absent⟩
    exact cutOnce_append absent after

end Text

open Text (isBlank isBlankText trim trimStart)

/-! ### Keys -/

namespace HintKey

/-- A key is found by its own word only. -/
theorem ofWord?_eq_some_iff {word : String} {key : HintKey} :
    ofWord? word = some key ↔ word = key.word := by
  constructor
  · intro found
    have same := List.find?_some found
    simpa using (beq_iff_eq.1 same).symm
  · rintro rfl
    exact ofWord?_word key

/-- No two keys have one word. -/
theorem word_injective {k l : HintKey} (h : k.word = l.word) : k = l := by
  have found := ofWord?_word k
  rw [h, ofWord?_word] at found
  exact (Option.some.inj found).symm

/-- The word of a key holds no separator and no white space. -/
theorem of_mem_word {key : HintKey} {c : Char} (h : c ∈ key.word.toList) :
    c ≠ ',' ∧ c ≠ '=' ∧ isBlank c = false := by
  have plain : key.word.toList.all fun c => decide (c ≠ ',' ∧ c ≠ '=' ∧ isBlank c = false) := by
    cases key <;> decide
  exact of_decide_eq_true (List.all_eq_true.1 plain c h)

end HintKey

namespace Hint

/-- The text begins with the known key and `=`. White space around the key does not count. -/
def NamesThe (key : HintKey) (cs : List Char) : Prop :=
  ∃ front back after, isBlankText front = true ∧ isBlankText back = true ∧
    cs = front ++ key.word.toList ++ back ++ '=' :: after

/-- The text begins with some known key and `=`. -/
def NamesKey (cs : List Char) : Prop :=
  ∃ key, NamesThe key cs

/-- A known key and `=` follow some comma of the text. -/
def HoldsKey (cs : List Char) : Prop :=
  ∃ before after, cs = before ++ ',' :: after ∧ NamesKey after

/-- A token is split at its first `=`, and what stands before it is trimmed. -/
theorem splitToken_eq_some_iff {cs : List Char} {word value : String} :
    splitToken cs = some (word, value) ↔ ∃ before after, cs = before ++ '=' :: after ∧ '=' ∉ before ∧
      String.ofList (trim before) = word ∧ String.ofList after = value := by
  simp [splitToken, Text.cutOnce_eq_some_iff, and_assoc]

/-- No separator stands in a key or in the white space around it. -/
theorem not_mem_padded {key : HintKey} {front back : List Char} {c : Char}
    (before : isBlankText front = true) (behind : isBlankText back = true) (separator : c = ',' ∨ c = '=') :
    c ∉ front ++ key.word.toList ++ back := by
  have visible : isBlank c = false := by
    rcases separator with rfl | rfl <;> decide
  have noBlank {gap : List Char} (blank : isBlankText gap = true) : c ∉ gap := by
    intro hc
    rw [Text.isBlankText_iff.1 blank c hc] at visible
    cases visible
  have noLetter : c ∉ key.word.toList := by
    intro hc
    obtain ⟨noComma, noEquals, -⟩ := HintKey.of_mem_word hc
    exact separator.elim noComma noEquals
  simp [noBlank before, noBlank behind, noLetter]

/-- A token is taken apart at its first `=`, and the key is found between white space. -/
theorem splitToken_padded {key : HintKey} {front back : List Char} (before : isBlankText front = true)
    (behind : isBlankText back = true) (after : List Char) :
    splitToken (front ++ key.word.toList ++ back ++ '=' :: after) =
      some (key.word, String.ofList after) := by
  have absent : '=' ∉ front ++ key.word.toList ++ back := not_mem_padded before behind (.inr rfl)
  have trimmed : trim (front ++ key.word.toList ++ back) = key.word.toList :=
    Text.trim_padded before behind fun c hc => (HintKey.of_mem_word hc).2.2
  exact splitToken_eq_some_iff.2 ⟨_, after, rfl, absent, by rw [trimmed, String.ofList_toList], rfl⟩

/-- The look ahead tells whether a key is named. -/
theorem startsWithKey_iff {cs : List Char} : startsWithKey cs = true ↔ NamesKey cs := by
  unfold startsWithKey
  constructor
  · intro starts
    split at starts
    next word value split =>
      obtain ⟨key, known⟩ := Option.isSome_iff_exists.1 starts
      obtain ⟨before, after, rfl, -, trimmed, -⟩ := splitToken_eq_some_iff.1 split
      obtain ⟨front, back, blank, blank', padded⟩ := Text.exists_padding before
      rw [HintKey.ofWord?_eq_some_iff.1 known] at trimmed
      refine ⟨key, front, back, after, blank, blank', ?_⟩
      rw [← trimmed, String.toList_ofList, ← padded]
    next => cases starts
  · rintro ⟨key, front, back, after, blank, blank', rfl⟩
    rw [splitToken_padded blank blank']
    simp

instance : DecidablePred NamesKey := fun _ => decidable_of_iff _ startsWithKey_iff

/-! ### Cuts -/

/-- What follows a comma has no part in the key before it, since keys hold no comma. -/
theorem namesKey_append_comma_iff {cs : List Char} (rest : List Char) :
    NamesKey (cs ++ ',' :: rest) ↔ NamesKey cs := by
  constructor
  · rintro ⟨key, front, back, after, blank, blank', same⟩
    -- The `=` stands before the comma, or else the comma stands in the key.
    rcases List.append_eq_append_iff.1 same.symm with ⟨more, rfl, tail⟩ | ⟨more, whole, tail⟩
    · cases more with
      | nil => cases tail
      | cons c more =>
        obtain ⟨rfl, -⟩ := List.cons.inj tail
        exact ⟨key, front, back, more, blank, blank', rfl⟩
    · cases more with
      | nil => cases tail
      | cons c more =>
        obtain ⟨rfl, -⟩ := List.cons.inj tail
        have held : ',' ∈ front ++ key.word.toList ++ back := by simp [whole]
        exact absurd held (not_mem_padded blank blank' (.inl rfl))
  · rintro ⟨key, front, back, after, blank, blank', rfl⟩
    exact ⟨key, front, back, after ++ ',' :: rest, blank, blank', by simp⟩

theorem not_holdsKey_nil : ¬ HoldsKey [] := by
  rintro ⟨before, after, same, -⟩
  cases before <;> cases same

/-- A key is held at a comma in front, or further on. -/
theorem holdsKey_cons {c : Char} {cs : List Char} :
    HoldsKey (c :: cs) ↔ (c = ',' ∧ NamesKey cs) ∨ HoldsKey cs := by
  constructor
  · rintro ⟨before, after, same, names⟩
    cases before with
    | nil =>
      obtain ⟨rfl, rfl⟩ := List.cons.inj same
      exact .inl ⟨rfl, names⟩
    | cons d before =>
      obtain ⟨-, rfl⟩ := List.cons.inj same
      exact .inr ⟨before, after, rfl, names⟩
  · rintro (⟨rfl, names⟩ | ⟨before, after, rfl, names⟩)
    · exact ⟨[], cs, rfl, names⟩
    · exact ⟨c :: before, after, rfl, names⟩

/-- Text without commas holds no keys. -/
theorem not_holdsKey_of_not_mem {cs : List Char} (h : ',' ∉ cs) : ¬ HoldsKey cs := by
  rintro ⟨before, after, rfl, -⟩
  simp at h

/-- What has no comma holds no key. -/
theorem holdsKey_append_of_not_mem {front cs : List Char} (h : ',' ∉ front) :
    HoldsKey (front ++ cs) ↔ HoldsKey cs := by
  induction front with
  | nil => rfl
  | cons c front ih =>
    rw [List.mem_cons, not_or] at h
    simp [holdsKey_cons, Ne.symm h.1, ih h.2]

/-- The cut is at a comma in front if a key is named behind it, or else further on. -/
theorem cutBeforeKey_cons (c : Char) (cs : List Char) :
    cutBeforeKey (c :: cs) = if c = ',' ∧ NamesKey cs then some ([], cs)
      else (cutBeforeKey cs).map fun (token, more) => (c :: token, more) := by
  simp only [cutBeforeKey, startsWithKey_iff]

/-- There is no cut exactly if no key is held. -/
theorem cutBeforeKey_eq_none_iff {cs : List Char} : cutBeforeKey cs = none ↔ ¬ HoldsKey cs := by
  induction cs with
  | nil => simp [cutBeforeKey, not_holdsKey_nil]
  | cons c cs ih =>
    rw [cutBeforeKey_cons, holdsKey_cons]
    split
    next here => simp [here]
    next elsewhere => simp [elsewhere, ih]

instance : DecidablePred HoldsKey := fun cs =>
  decidable_of_iff (cutBeforeKey cs ≠ none) ((not_congr cutBeforeKey_eq_none_iff).trans Classical.not_not)

/-- The cut is at the first comma before a key. -/
theorem cutBeforeKey_append {token more : List Char} (holds : ¬ HoldsKey token) (names : NamesKey more) :
    cutBeforeKey (token ++ ',' :: more) = some (token, more) := by
  induction token with
  | nil => simp [cutBeforeKey_cons, names]
  | cons c token ih =>
    rw [holdsKey_cons, not_or] at holds
    have elsewhere : ¬ (c = ',' ∧ NamesKey (token ++ ',' :: more)) := by
      rw [namesKey_append_comma_iff]
      exact holds.1
    rw [List.cons_append, cutBeforeKey_cons, if_neg elsewhere, ih holds.2]
    rfl

/-- A token ends at the first comma that a known key follows. -/
theorem cutBeforeKey_eq_some_iff {cs token more : List Char} :
    cutBeforeKey cs = some (token, more) ↔
      cs = token ++ ',' :: more ∧ NamesKey more ∧ ¬ HoldsKey token := by
  constructor
  · intro cut
    induction cs generalizing token with
    | nil => cases cut
    | cons c cs ih =>
      rw [cutBeforeKey_cons] at cut
      split at cut
      next here =>
        obtain ⟨rfl, names⟩ := here
        cases cut
        exact ⟨rfl, names, not_holdsKey_nil⟩
      next elsewhere =>
        obtain ⟨⟨t, m⟩, later, same⟩ := Option.map_eq_some_iff.1 cut
        cases same
        obtain ⟨rfl, names, holds⟩ := ih later
        refine ⟨rfl, names, ?_⟩
        rw [namesKey_append_comma_iff] at elsewhere
        rw [holdsKey_cons]
        exact not_or.2 ⟨elsewhere, holds⟩
  · rintro ⟨rfl, names, holds⟩
    exact cutBeforeKey_append holds names

/-! ### Tokens -/

theorem isPrefixOf_append_cons {start : List Char} {c : Char} (absent : c ∉ start) (cs rest : List Char) :
    start.isPrefixOf (cs ++ c :: rest) = start.isPrefixOf cs := by
  induction start generalizing cs with
  | nil => simp
  | cons s start ih =>
    rw [List.mem_cons, not_or] at absent
    cases cs with
    | nil => simp [List.isPrefixOf, Ne.symm absent.1]
    | cons d cs => simp [List.isPrefixOf, ih absent.2]

theorem tokens_nil : tokens [] = [] := by
  rw [tokens, dif_pos rfl]

/-- A text has a first token, and those of the rest after white space. -/
theorem tokens_of_ne_nil {cs : List Char} (h : cs ≠ []) :
    tokens cs = (firstToken cs).1 :: tokens (trimStart (firstToken cs).2) := by
  rw [tokens, dif_neg h]

/-- A token that takes all that is left is the last one. -/
theorem tokens_of_greedy {cs : List Char} (greedy : greedyStart.isPrefixOf cs = true) : tokens cs = [cs] := by
  have some : cs ≠ [] := by
    rintro rfl
    cases greedy
  rw [tokens_of_ne_nil some, firstToken, if_pos greedy]
  simp [trimStart, tokens_nil]

/-- Text that holds no key is one token. -/
theorem tokens_of_uncut {cs : List Char} (some : cs ≠ []) (holds : ¬ HoldsKey cs) : tokens cs = [cs] := by
  rw [tokens_of_ne_nil some, firstToken, cutBeforeKey_eq_none_iff.2 holds]
  simp [trimStart, tokens_nil]

/-- A token that holds no key ends at a comma that a key follows. -/
theorem tokens_of_cut {token more : List Char} (greedy : greedyStart.isPrefixOf token = false)
    (holds : ¬ HoldsKey token) (names : NamesKey more) :
    tokens (token ++ ',' :: more) = token :: tokens (trimStart more) := by
  have patient : greedyStart.isPrefixOf (token ++ ',' :: more) = false := by
    rw [isPrefixOf_append_cons (by decide), greedy]
  rw [tokens_of_ne_nil (by simp), firstToken, patient, cutBeforeKey_append holds names]
  simp

/-- Where a key is named, there is a token. -/
theorem tokens_trimStart_ne_nil {cs : List Char} (names : NamesKey cs) : tokens (trimStart cs) ≠ [] := by
  obtain ⟨key, front, back, after, blank, -, rfl⟩ := names
  have some : trimStart (front ++ key.word.toList ++ back ++ '=' :: after) ≠ [] := by
    intro empty
    have blank : isBlank '=' = true := List.dropWhile_eq_nil_iff.1 empty '=' (by simp)
    cases blank
  rw [tokens_of_ne_nil some]
  exact List.cons_ne_nil _ _

/-- The tokens `ts` have been cut off `cs`, and `rest` is left to be cut. -/
inductive Leaves : List Char → List (List Char) → List Char → Prop
  | start (cs : List Char) : Leaves cs [] cs
  | next {cs rest : List Char} {ts : List (List Char)} : cs ≠ [] →
    Leaves (trimStart (firstToken cs).2) ts rest → Leaves cs ((firstToken cs).1 :: ts) rest

/-- How the first token ends: at the end of the text, since it is greedy or since no key follows a comma; or
at the first comma that a key follows. -/
theorem firstToken_cases (cs : List Char) :
    (greedyStart.isPrefixOf cs = true ∧ firstToken cs = (cs, [])) ∨
    (greedyStart.isPrefixOf cs = false ∧ ¬ HoldsKey cs ∧ firstToken cs = (cs, [])) ∨
    ∃ token more, greedyStart.isPrefixOf cs = false ∧ ¬ HoldsKey token ∧ NamesKey more ∧
      cs = token ++ ',' :: more ∧ firstToken cs = (token, more) := by
  unfold firstToken
  cases greedy : greedyStart.isPrefixOf cs with
  | true => exact .inl ⟨rfl, rfl⟩
  | false =>
    cases cut : cutBeforeKey cs with
    | none => exact .inr (.inl ⟨rfl, cutBeforeKey_eq_none_iff.1 cut, rfl⟩)
    | some p =>
      obtain ⟨token, more⟩ := p
      obtain ⟨same, names, holds⟩ := cutBeforeKey_eq_some_iff.1 cut
      exact .inr (.inr ⟨token, more, rfl, holds, names, same, rfl⟩)

/-- The text goes on behind the token that is cut off it. -/
theorem firstToken_append (cs : List Char) :
    ∃ gap, cs = (firstToken cs).1 ++ gap ++ trimStart (firstToken cs).2 := by
  rcases firstToken_cases cs with ⟨-, cut⟩ | ⟨-, -, cut⟩ | ⟨token, more, -, -, -, same, cut⟩
  · exact ⟨[], by simp [cut, trimStart]⟩
  · exact ⟨[], by simp [cut, trimStart]⟩
  · refine ⟨',' :: more.takeWhile isBlank, ?_⟩
    rw [cut, same]
    simp [trimStart]

/-- What is left to be cut does not begin with white space. -/
theorem Leaves.first {cs rest : List Char} {ts : List (List Char)} (h : Leaves cs ts rest)
    (first : ∀ c ∈ cs.head?, isBlank c = false) : ∀ c ∈ rest.head?, isBlank c = false := by
  induction h with
  | start => exact first
  | next _ _ ih => exact ih (Text.trimStart_first _)

/-- Every token has been cut off what was left before it. -/
theorem exists_leaves {cs token : List Char} {earlier later : List (List Char)}
    (h : tokens cs = earlier ++ token :: later) : ∃ rest, rest ≠ [] ∧ Leaves cs earlier rest ∧
      token = (firstToken rest).1 ∧ later = tokens (trimStart (firstToken rest).2) := by
  induction earlier generalizing cs with
  | nil =>
    have some : cs ≠ [] := by
      rintro rfl
      rw [tokens_nil] at h
      cases h
    rw [tokens_of_ne_nil some] at h
    obtain ⟨same, rest⟩ := List.cons.inj h
    exact ⟨cs, some, .start cs, same.symm, rest.symm⟩
  | cons t earlier ih =>
    have some : cs ≠ [] := by
      rintro rfl
      rw [tokens_nil] at h
      cases h
    rw [tokens_of_ne_nil some] at h
    obtain ⟨rfl, more⟩ := List.cons.inj h
    obtain ⟨rest, left, leaves, found⟩ := ih more
    exact ⟨rest, left, .next some leaves, found⟩

/-! ### Taking up tokens -/

/-- What a hint is after a value has been taken up under a key. -/
inductive Puts (a : Hint) : HintKey → String → Hint → Prop
  | sample (value : String) : Puts a .sample value { a with sample := some value }
  | regex (value : String) : Puts a .regex value { a with regex := some value }
  | min {value : String} {n : Int64} : Text.SpellsInteger (trim value.toList) n.toInt →
    Puts a .min value { a with min := some n }
  | max {value : String} {n : UInt64} : Text.SpellsUnsigned (trim value.toList) n.toNat →
    Puts a .max value { a with max := some n }
  | format (value : String) : Puts a .format value { a with format := some value }
  | generator {value : String} {moment : Moment} :
    Dict.get? (String.ofList (trim value.toList)) moments = some moment →
    Puts a .generator value { a with generator := some moment }

/-- A value is put under a key exactly if it is one for the key. -/
theorem put_eq_ok_iff {a b : Hint} {key : HintKey} {value : String} :
    a.put key value = .ok b ↔ Puts a key value b := by
  constructor
  · intro h
    cases key with
    | sample => cases h; exact .sample value
    | regex => cases h; exact .regex value
    | format => cases h; exact .format value
    | min =>
      simp only [put] at h
      split at h
      next n read => cases h; exact .min (Text.readInt64_eq_ok_iff.1 read)
      next => cases h
    | max =>
      simp only [put] at h
      split at h
      next n read => cases h; exact .max (Text.readUInt64_eq_ok_iff.1 read)
      next => cases h
    | generator =>
      simp only [put] at h
      split at h
      next moment known => cases h; exact .generator known
      next => cases h
  · intro h
    cases h with
    | sample | regex | format => rfl
    | min spelled => simp [put, Text.readInt64_eq_ok_iff.2 spelled]
    | max spelled => simp [put, Text.readUInt64_eq_ok_iff.2 spelled]
    | generator known => simp [put, known]

/-- The two hints say the same under the key. -/
def SameAt (a b : Hint) : HintKey → Prop
  | .sample => a.sample = b.sample
  | .regex => a.regex = b.regex
  | .min => a.min = b.min
  | .max => a.max = b.max
  | .format => a.format = b.format
  | .generator => a.generator = b.generator

/-- What is the same at a key has it on both sides or on neither. -/
theorem SameAt.has {a b : Hint} {key : HintKey} (h : SameAt a b key) : a.has key = b.has key := by
  cases key <;> exact congrArg Option.isSome h

theorem SameAt.trans {a b c : Hint} {key : HintKey} (h : SameAt a b key) (h' : SameAt b c key) :
    SameAt a c key := by
  cases key <;> exact Eq.trans h h'

/-- Nothing changes under the other keys. -/
theorem Puts.sameAt {a b : Hint} {key other : HintKey} {value : String} (h : Puts a key value b)
    (different : other ≠ key) : SameAt b a other := by
  cases h <;> cases other <;> first | rfl | exact absurd rfl different

theorem Puts.has {a b : Hint} {key : HintKey} {value : String} (h : Puts a key value b) :
    b.has key = true := by
  cases h <;> rfl

/-- Putting a value leaves the text of the hint as it is. -/
theorem Puts.raw {a b : Hint} {key : HintKey} {value : String} (h : Puts a key value b) :
    b.raw = a.raw := by
  cases h <;> rfl

/-- A token is taken exactly if it has a new key and a value for it. -/
theorem take_eq_ok_iff {a b : Hint} {token : List Char} : a.take token = .ok b ↔
    ∃ key value, splitToken token = some (key.word, value) ∧ a.has key = false ∧ Puts a key value b := by
  unfold take
  constructor
  · intro h
    split at h
    next => cases h
    next word value split =>
      split at h
      next => cases h
      next key known =>
        split at h
        next => cases h
        next fresh =>
          rw [HintKey.ofWord?_eq_some_iff] at known
          exact ⟨key, value, known ▸ split, eq_false_of_ne_true fresh, put_eq_ok_iff.1 h⟩
  · rintro ⟨key, value, split, fresh, puts⟩
    simp [split, fresh, put_eq_ok_iff.2 puts]

theorem takeAll_cons_eq_ok_iff {a b : Hint} {token : List Char} {rest : List (List Char)} :
    a.takeAll (token :: rest) = .ok b ↔ ∃ c, a.take token = .ok c ∧ c.takeAll rest = .ok b := by
  rw [takeAll]
  cases a.take token <;> simp

/-- A key that has been given is not given again. -/
theorem takeAll_sameAt {a b : Hint} {key : HintKey} {ts : List (List Char)} (h : a.takeAll ts = .ok b)
    (given : a.has key = true) : SameAt b a key := by
  induction ts generalizing a with
  | nil =>
    cases h
    cases key <;> rfl
  | cons token ts ih =>
    obtain ⟨c, taken, rest⟩ := takeAll_cons_eq_ok_iff.1 h
    obtain ⟨other, value, -, fresh, puts⟩ := take_eq_ok_iff.1 taken
    have different : key ≠ other := by
      rintro rfl
      rw [given] at fresh
      cases fresh
    have same := puts.sameAt different
    exact (ih rest (same.has.trans given)).trans same

/-- What a hint says under a key was said by one of its tokens. -/
theorem exists_token {a b : Hint} {key : HintKey} {ts : List (List Char)} (h : a.takeAll ts = .ok b)
    (fresh : a.has key = false) (given : b.has key = true) :
    ∃ earlier token later c d value, ts = earlier ++ token :: later ∧ a.takeAll earlier = .ok c ∧
      splitToken token = some (key.word, value) ∧ Puts c key value d ∧ d.takeAll later = .ok b ∧
      SameAt b d key := by
  induction ts generalizing a with
  | nil =>
    cases h
    rw [fresh] at given
    cases given
  | cons token ts ih =>
    obtain ⟨c, taken, rest⟩ := takeAll_cons_eq_ok_iff.1 h
    obtain ⟨other, value, split, -, puts⟩ := take_eq_ok_iff.1 taken
    by_cases same : key = other
    · subst same
      exact ⟨[], token, ts, a, c, value, rfl, rfl, split, puts, rest, takeAll_sameAt rest puts.has⟩
    · have still : c.has key = false := (puts.sameAt same).has.trans fresh
      obtain ⟨earlier, found, later, d, e, v, rfl, before, more⟩ := ih rest still
      exact ⟨token :: earlier, found, later, d, e, v, rfl,
        takeAll_cons_eq_ok_iff.2 ⟨c, taken, before⟩, more⟩

/-- The keys that have been given go together. -/
@[mk_iff]
structure Coherent (a : Hint) : Prop where
  sample : ∀ s, a.sample = some s → isBlankText s.toList = false
  regex : ∀ p, a.regex = some p → p ≠ "" ∧ a.sample.isSome ∧ a.generator = none
  generator : a.generator.isSome → a.format.isSome ∧ a.sample.isSome
  format : a.format.isSome → a.generator.isSome

/-- There is no conflict exactly if the keys go together. -/
theorem conflict_eq_none_iff {a : Hint} : a.conflict = none ↔ a.Coherent := by
  have checked (wrong : Prop) [Decidable wrong] (fault : HintFault) (more : Option HintFault) :
      (if wrong then some fault else more) = none ↔ ¬ wrong ∧ more = none := by
    split <;> simp [*]
  obtain ⟨raw, sample, regex, min, max, format, generator⟩ := a
  simp only [conflict, checked, and_true, coherent_iff]
  cases sample <;> cases regex <;> cases format <;> cases generator <;> simp

/-- A hint is read exactly if all tokens are taken and the keys go together. -/
theorem read_eq_ok_iff {raw : String} {a : Hint} : read raw = .ok a ↔
    takeAll { raw := raw } (tokens (trim raw.toList)) = .ok a ∧ a.Coherent := by
  rw [← conflict_eq_none_iff]
  simp only [read]
  cases takeAll { raw := raw } (tokens (trim raw.toList)) with
  | error fault => simp
  | ok b =>
    simp only [Except.ok.injEq]
    constructor
    · intro h
      split at h
      next => cases h
      next agreed =>
        cases h
        exact ⟨rfl, agreed⟩
    · rintro ⟨rfl, agreed⟩
      rw [agreed]

end Hint

end ConsumerContract
