import ConsumerContract.Proofs.Hints

/-!
# Hints read back what is written

A hint is written as a list of keys with values, between commas with white space behind them. If the keys
go together, and no value could be taken for more than one token, then the hint that is read holds exactly
these keys, with their values character by character, or the numbers and moments that they spell:
`Hint.read_of_written`. That no value runs into the next token is `tokens_of_written`; that each token is
taken up and nothing else changes is `takeAll_items`.
-/

namespace ConsumerContract

open Text (isBlank isBlankText trim SpellsInteger SpellsUnsigned)

namespace Hint

/-- A key and the text of its value. -/
structure Item where
  key : HintKey
  value : List Char
  deriving DecidableEq, Repr

namespace Item

/-- The token. -/
def chars (t : Item) : List Char :=
  t.key.word.toList ++ '=' :: t.value

/-- The value is one that may stand after the key. -/
def IsWellFormed (t : Item) : Prop :=
  match t.key with
  | .sample => isBlankText t.value = false ∧ ¬ HoldsKey t.value
  | .regex => t.value ≠ []
  | .min => ∃ n : Int64, SpellsInteger t.value n.toInt
  | .max => ∃ n : UInt64, SpellsUnsigned t.value n.toNat
  | .format => ¬ HoldsKey t.value
  | .generator => ∃ moment, (String.ofList t.value, moment) ∈ moments

/-- The hint holds the value under the key: as it is written, or as what it spells. -/
def IsHeldBy (t : Item) (a : Hint) : Prop :=
  match t.key with
  | .sample => a.sample = some (String.ofList t.value)
  | .regex => a.regex = some (String.ofList t.value)
  | .min => ∃ n, a.min = some n ∧ SpellsInteger t.value n.toInt
  | .max => ∃ n, a.max = some n ∧ SpellsUnsigned t.value n.toNat
  | .format => a.format = some (String.ofList t.value)
  | .generator => ∃ moment, a.generator = some moment ∧ (String.ofList t.value, moment) ∈ moments

/-- Only what the hint says under the item's own key matters. -/
theorem IsHeldBy.of_sameAt {t : Item} {a b : Hint} (h : t.IsHeldBy a) (same : SameAt b a t.key) :
    t.IsHeldBy b := by
  obtain ⟨key, value⟩ := t
  cases key with
  | sample | regex | format => exact Eq.trans same h
  | min | max | generator =>
    obtain ⟨n, held, spelled⟩ := h
    exact ⟨n, Eq.trans same held, spelled⟩

/-- A hint has the key of what it holds. -/
theorem IsHeldBy.has {t : Item} {a : Hint} (h : t.IsHeldBy a) : a.has t.key = true := by
  obtain ⟨key, value⟩ := t
  cases key with
  | sample | regex | format => exact Option.isSome_of_eq_some h
  | min | max | generator =>
    obtain ⟨n, held, -⟩ := h
    exact Option.isSome_of_eq_some held

/-! ### Values in form -/

/-- Numbers and moments stand without white space and commas. -/
theorem IsWellFormed.solid {t : Item} (h : t.IsWellFormed)
    (word : t.key = .min ∨ t.key = .max ∨ t.key = .generator) :
    ∀ c ∈ t.value, isBlank c = false ∧ c ≠ ',' := by
  have sign : isBlank '-' = false ∧ isBlank '+' = false := by decide
  have digit {c : Char} (h : c.isDigit = true) : isBlank c = false ∧ c ≠ ',' := by
    refine ⟨Text.isBlank_of_isDigit h, ?_⟩
    rintro rfl
    cases h
  obtain ⟨key, value⟩ := t
  intro c hc
  rcases word with rfl | rfl | rfl
  · obtain ⟨n, spelled⟩ := h
    rcases spelled.chars c hc with rfl | rfl | h
    · exact ⟨sign.1, by decide⟩
    · exact ⟨sign.2, by decide⟩
    · exact digit h
  · obtain ⟨n, spelled⟩ := h
    rcases spelled.chars c hc with rfl | h
    · exact ⟨sign.2, by decide⟩
    · exact digit h
  · obtain ⟨moment, known⟩ := h
    have solid : moments.all fun e => e.1.toList.all fun c => decide (isBlank c = false ∧ c ≠ ',') := by decide
    have word := List.all_eq_true.1 solid _ known
    rw [String.toList_ofList] at word
    exact of_decide_eq_true (List.all_eq_true.1 word c hc)

/-- A pattern apart, a value runs up to the comma that ends it. -/
theorem IsWellFormed.not_holdsKey {t : Item} (h : t.IsWellFormed) (other : t.key ≠ .regex) :
    ¬ HoldsKey t.chars := by
  have noComma : ',' ∉ t.key.word.toList := fun hc => (HintKey.of_mem_word hc).1 rfl
  rw [chars, holdsKey_append_of_not_mem noComma, holdsKey_cons]
  rintro (⟨equals, -⟩ | held)
  · cases equals
  · have uncut (word : t.key = .min ∨ t.key = .max ∨ t.key = .generator) : ¬ HoldsKey t.value :=
      not_holdsKey_of_not_mem fun hc => (h.solid word _ hc).2 rfl
    obtain ⟨key, value⟩ := t
    cases key with
    | sample => exact h.2 held
    | format => exact h held
    | regex => exact other rfl
    | min => exact uncut (.inl rfl) held
    | max => exact uncut (.inr (.inl rfl)) held
    | generator => exact uncut (.inr (.inr rfl)) held

/-- The text of an item names its key, with blanks before it or none. -/
theorem namesKey_chars (t : Item) {gap : List Char} (blank : isBlankText gap = true) (cs : List Char) :
    NamesKey (gap ++ (t.chars ++ cs)) :=
  ⟨t.key, gap, [], t.value ++ cs, blank, rfl, by simp [chars]⟩

/-- Only a regular expression begins as one. -/
theorem greedy_chars (t : Item) : greedyStart.isPrefixOf t.chars = decide (t.key = .regex) := by
  obtain ⟨key, value⟩ := t
  cases key <;> simp [chars, greedyStart, HintKey.word, List.isPrefixOf]

/-- The text of an item does not begin with white space. -/
theorem chars_first (t : Item) (cs : List Char) : ∀ c ∈ (t.chars ++ cs).head?, isBlank c = false := by
  obtain ⟨key, value⟩ := t
  cases key <;> simp [chars, HintKey.word] <;> decide

/-- The text of an item ends with white space only if its value does. -/
theorem chars_last (t : Item) (ending : ∀ c ∈ t.value.getLast?, isBlank c = false) :
    ∀ c ∈ t.chars.getLast?, isBlank c = false := by
  have equals : isBlank '=' = false := by decide
  simp only [chars, List.getLast?_append, List.getLast?_cons]
  cases last : t.value.getLast? with
  | none => simpa using equals
  | some d => simpa using ending d last

theorem chars_ne_nil (t : Item) : t.chars ≠ [] := by
  simp [chars]

end Item

/-! ### Whole hints -/

/-- The items stand one after the other, with a comma and any white space between two of them. -/
inductive Written : List Item → List Char → Prop
  | nil : Written [] []
  | single (t : Item) : Written [t] t.chars
  | cons (t : Item) {next : Item} {rest : List Item} {gap cs : List Char} :
    isBlankText gap = true → Written (next :: rest) cs →
    Written (t :: next :: rest) (t.chars ++ ',' :: (gap ++ cs))

/-- The items make up a hint: no key twice, the pattern last, every value in form, no white space at the end,
and keys that go together. -/
structure IsGrammatical (ts : List Item) : Prop where
  distinct : (ts.map Item.key).Nodup
  wellFormed : ∀ t ∈ ts, t.IsWellFormed
  regexLast : ∀ t ∈ ts.dropLast, t.key ≠ .regex
  ending : ∀ t ∈ ts.getLast?, ∀ c ∈ t.value.getLast?, isBlank c = false
  regex : .regex ∈ ts.map Item.key → .sample ∈ ts.map Item.key ∧ .generator ∉ ts.map Item.key
  generator : .generator ∈ ts.map Item.key → .sample ∈ ts.map Item.key ∧ .format ∈ ts.map Item.key
  format : .format ∈ ts.map Item.key → .generator ∈ ts.map Item.key

/-! ### The items are the tokens -/

/-- A writing of items begins with the first of them. -/
theorem Written.starts {t : Item} {ts : List Item} {cs : List Char} (h : Written (t :: ts) cs) :
    ∃ more, cs = t.chars ++ more := by
  cases h with
  | single => exact ⟨[], (List.append_nil _).symm⟩
  | cons => exact ⟨_, rfl⟩

/-- The hint begins with the key of its first item. -/
theorem Written.first {ts : List Item} {cs : List Char} (h : Written ts cs) :
    ∀ c ∈ cs.head?, isBlank c = false := by
  cases ts with
  | nil =>
    cases h
    simp
  | cons t ts =>
    obtain ⟨more, rfl⟩ := h.starts
    exact t.chars_first more

/-- The hint ends with the value of its last item. -/
theorem Written.last {ts : List Item} {cs : List Char} (h : Written ts cs)
    (ending : ∀ t ∈ ts.getLast?, ∀ c ∈ t.value.getLast?, isBlank c = false) :
    ∀ c ∈ cs.getLast?, isBlank c = false := by
  induction h with
  | nil => simp
  | single t => exact t.chars_last (ending t rfl)
  | @cons t next rest gap cs blank written ih =>
    have inner := ih (by simpa using ending)
    obtain ⟨more, rfl⟩ := written.starts
    have some : next.chars ++ more ≠ [] := by simp [Item.chars]
    have split : t.chars ++ ',' :: (gap ++ (next.chars ++ more)) =
        (t.chars ++ ',' :: gap) ++ (next.chars ++ more) := by simp
    rwa [split, List.getLast?_append_of_ne_nil _ some]

/-- A writing of items is cut into their texts. -/
theorem tokens_of_written {ts : List Item} {cs : List Char} (h : Written ts cs)
    (wellFormed : ∀ t ∈ ts, t.IsWellFormed) (regexLast : ∀ t ∈ ts.dropLast, t.key ≠ .regex) :
    tokens cs = ts.map Item.chars := by
  induction h with
  | nil => exact tokens_nil
  | single t =>
    by_cases pattern : t.key = .regex
    · exact tokens_of_greedy (by simp [t.greedy_chars, pattern])
    · exact tokens_of_uncut t.chars_ne_nil ((wellFormed t List.mem_cons_self).not_holdsKey pattern)
  | @cons t next rest gap cs blank written ih =>
    have other : t.key ≠ .regex := regexLast t (by simp)
    have holds := (wellFormed t List.mem_cons_self).not_holdsKey other
    obtain ⟨more, starts⟩ := written.starts
    have names : NamesKey (gap ++ cs) := starts ▸ next.namesKey_chars blank more
    rw [tokens_of_cut (by simp [t.greedy_chars, other]) holds names,
      Text.trimStart_append blank, Text.trimStart_eq_self written.first, List.map_cons]
    congr 1
    apply ih
    · exact fun u hu => wellFormed u (List.mem_cons_of_mem _ hu)
    · exact fun u hu => regexLast u (List.mem_cons_of_mem _ hu)

/-! ### The tokens are taken up -/

/-- The text of an item is taken exactly if its key is new and its value is one for the key. -/
theorem take_chars_eq_ok_iff {a b : Hint} {t : Item} : a.take t.chars = .ok b ↔
    a.has t.key = false ∧ Puts a t.key (String.ofList t.value) b := by
  have split : splitToken t.chars = some (t.key.word, String.ofList t.value) := by
    have padded : splitToken ([] ++ t.key.word.toList ++ [] ++ '=' :: t.value) = _ :=
      splitToken_padded rfl rfl t.value
    rwa [List.append_nil, List.nil_append] at padded
  rw [take_eq_ok_iff]
  constructor
  · rintro ⟨key, value, same, fresh, puts⟩
    rw [split, Option.some.injEq, Prod.mk.injEq] at same
    obtain ⟨word, rfl⟩ := same
    rw [HintKey.word_injective word]
    exact ⟨fresh, puts⟩
  · rintro ⟨fresh, puts⟩
    exact ⟨t.key, _, split, fresh, puts⟩

/-- A value in form is taken up as it is meant. -/
theorem Item.IsWellFormed.exists_puts {t : Item} (h : t.IsWellFormed) (a : Hint) :
    ∃ b, Puts a t.key (String.ofList t.value) b ∧ t.IsHeldBy b := by
  have solid (word : t.key = .min ∨ t.key = .max ∨ t.key = .generator) :
      trim (String.ofList t.value).toList = t.value := by
    rw [String.toList_ofList]
    exact Text.trim_eq_self (Text.isTrimmed_of_forall fun c hc => (h.solid word c hc).1)
  obtain ⟨key, value⟩ := t
  cases key with
  | sample => exact ⟨_, .sample _, rfl⟩
  | regex => exact ⟨_, .regex _, rfl⟩
  | format => exact ⟨_, .format _, rfl⟩
  | min =>
    obtain ⟨n, spelled⟩ := h
    exact ⟨_, .min (by rwa [solid (.inl rfl)]), n, rfl, spelled⟩
  | max =>
    obtain ⟨n, spelled⟩ := h
    exact ⟨_, .max (by rwa [solid (.inr (.inl rfl))]), n, rfl, spelled⟩
  | generator =>
    obtain ⟨moment, known⟩ := h
    have listed : ∀ e ∈ moments, Dict.get? e.1 moments = some e.2 := by decide
    have found := listed _ known
    exact ⟨_, .generator (by rwa [solid (.inr (.inr rfl))]), moment, rfl, known⟩

/-- Items with different keys are taken up one after the other, and nothing else is. -/
theorem takeAll_items {ts : List Item} {a : Hint} (wellFormed : ∀ t ∈ ts, t.IsWellFormed)
    (distinct : (ts.map Item.key).Nodup) (fresh : ∀ t ∈ ts, a.has t.key = false) :
    ∃ b, a.takeAll (ts.map Item.chars) = .ok b ∧ b.raw = a.raw ∧ (∀ t ∈ ts, t.IsHeldBy b) ∧
      ∀ key ∉ ts.map Item.key, SameAt b a key := by
  induction ts generalizing a with
  | nil =>
    refine ⟨a, rfl, rfl, List.forall_mem_nil _, fun key _ => ?_⟩
    cases key <;> rfl
  | cons t ts ih =>
    rw [List.forall_mem_cons] at wellFormed fresh
    rw [List.map_cons, List.nodup_cons] at distinct
    obtain ⟨c, puts, held⟩ := wellFormed.1.exists_puts a
    have other : ∀ u ∈ ts, u.key ≠ t.key := fun u hu same =>
      distinct.1 (same ▸ List.mem_map_of_mem hu)
    have later : ∀ u ∈ ts, c.has u.key = false := fun u hu =>
      (puts.sameAt (other u hu)).has.trans (fresh.2 u hu)
    obtain ⟨b, taken, raw, rest, frame⟩ := ih wellFormed.2 distinct.2 later
    refine ⟨b, ?taken, raw.trans puts.raw, ?held, ?frame⟩
    case taken => exact takeAll_cons_eq_ok_iff.2 ⟨c, take_chars_eq_ok_iff.2 ⟨fresh.1, puts⟩, taken⟩
    case held => exact List.forall_mem_cons.2 ⟨held.of_sameAt (frame _ distinct.1), rest⟩
    case frame =>
      intro key absent
      rw [List.map_cons, List.mem_cons, not_or] at absent
      exact (frame key absent.2).trans (puts.sameAt absent.1)

/-- The keys of the items go together in the hint that holds them. -/
theorem IsGrammatical.coherent {ts : List Item} {a : Hint} (h : IsGrammatical ts)
    (held : ∀ t ∈ ts, t.IsHeldBy a) (keys : ∀ key, a.has key = true ↔ key ∈ ts.map Item.key) :
    a.Coherent where
  sample := by
    intro s stored
    obtain ⟨⟨key, value⟩, ht, rfl⟩ := List.mem_map.1 ((keys .sample).1 (Option.isSome_of_eq_some stored))
    have same : a.sample = some (String.ofList value) := held _ ht
    obtain rfl := Option.some.inj (stored.symm.trans same)
    rw [String.toList_ofList]
    exact (h.wellFormed _ ht).1
  regex := by
    intro p stored
    have listed := (keys .regex).1 (Option.isSome_of_eq_some stored)
    obtain ⟨sampled, alone⟩ := h.regex listed
    obtain ⟨⟨key, value⟩, ht, rfl⟩ := List.mem_map.1 listed
    have same : a.regex = some (String.ofList value) := held _ ht
    obtain rfl := Option.some.inj (stored.symm.trans same)
    have some : value ≠ [] := h.wellFormed _ ht
    have written : String.ofList value ≠ "" := fun empty => some (by simpa using congrArg String.toList empty)
    have none : ¬ a.generator.isSome = true := mt (keys .generator).1 alone
    exact ⟨written, (keys .sample).2 sampled, Option.not_isSome_iff_eq_none.1 none⟩
  generator given := by
    obtain ⟨sampled, formatted⟩ := h.generator ((keys .generator).1 given)
    exact ⟨(keys .format).2 formatted, (keys .sample).2 sampled⟩
  format given := (keys .generator).2 (h.format ((keys .format).1 given))

/-- A hint that is written in form is read, and holds exactly the keys that are listed, each with its
value. -/
theorem read_of_written {ts : List Item} {cs : List Char} (grammatical : IsGrammatical ts)
    (written : Written ts cs) :
    ∃ a, read (String.ofList cs) = .ok a ∧ a.raw = String.ofList cs ∧
      (∀ key, a.has key = true ↔ key ∈ ts.map Item.key) ∧ ∀ t ∈ ts, t.IsHeldBy a := by
  have trimmed : trim cs = cs := Text.trim_eq_self ⟨written.first, written.last grammatical.ending⟩
  have cut := tokens_of_written written grammatical.wellFormed grammatical.regexLast
  have fresh : ∀ t ∈ ts, ({ raw := String.ofList cs } : Hint).has t.key = false := fun t _ => by
    cases t.key <;> rfl
  obtain ⟨a, taken, raw, held, frame⟩ := takeAll_items grammatical.wellFormed grammatical.distinct fresh
  have keys (key : HintKey) : a.has key = true ↔ key ∈ ts.map Item.key := by
    constructor
    · intro given
      by_contra absent
      have nothing : a.has key = false := (frame key absent).has.trans (by cases key <;> rfl)
      rw [nothing] at given
      cases given
    · intro listed
      obtain ⟨t, ht, rfl⟩ := List.mem_map.1 listed
      exact (held t ht).has
  refine ⟨a, read_eq_ok_iff.2 ⟨?_, grammatical.coherent held keys⟩, raw, keys, held⟩
  rw [String.toList_ofList, trimmed, cut]
  exact taken

/-! ### A hint full of commas -/

namespace Punctuation

/-- The number has a sign and zeros in front; the texts hold commas, `=` and words of keys. -/
def items : List Item :=
  [⟨.min, "-007".toList⟩, ⟨.sample, " a,min, maxi = 1,b=2 ".toList⟩,
    ⟨.regex, "^.\x7b1,3\x7d,max=5, format=$".toList⟩]

/-- The items, with white space after the commas. -/
def chars : List Char :=
  "min=-007, \t\u3000example= a,min, maxi = 1,b=2 ,regex=^.\x7b1,3\x7d,max=5, format=$".toList

theorem isGrammatical_items : IsGrammatical items where
  distinct := by decide
  wellFormed := by
    have bound : Text.readInt64 "-007".toList = .ok (-7) := by decide
    have sample : isBlankText " a,min, maxi = 1,b=2 ".toList = false ∧
        ¬ HoldsKey " a,min, maxi = 1,b=2 ".toList := ⟨by decide, by decide⟩
    have regex : "^.\x7b1,3\x7d,max=5, format=$".toList ≠ [] := by decide
    exact List.forall_mem_cons.2 ⟨⟨-7, Text.readInt64_eq_ok_iff.1 bound⟩,
      List.forall_mem_cons.2 ⟨sample, List.forall_mem_singleton.2 regex⟩⟩
  regexLast := by decide
  ending := by
    rintro t ⟨⟩ c ⟨⟩
    decide
  regex _ := by decide
  generator := by decide
  format := by decide

theorem written_chars : Written items chars := by
  have blank : isBlankText " \t\u3000".toList = true := by decide
  have empty : isBlankText [] = true := rfl
  have shape : chars = (Item.mk .min "-007".toList).chars ++ ',' :: (" \t\u3000".toList ++
      ((Item.mk .sample " a,min, maxi = 1,b=2 ".toList).chars ++ ',' ::
        ([] ++ (Item.mk .regex "^.\x7b1,3\x7d,max=5, format=$".toList).chars))) := by
    decide
  rw [shape]
  exact .cons _ blank (.cons _ empty (.single _))

theorem read_of_written_punctuation : ∃ a, read (String.ofList chars) = .ok a ∧
    a.raw = String.ofList chars ∧ (∀ key, a.has key = true ↔ key ∈ items.map Item.key) ∧
      ∀ t ∈ items, t.IsHeldBy a :=
  read_of_written isGrammatical_items written_chars

end Punctuation

end Hint

end ConsumerContract
