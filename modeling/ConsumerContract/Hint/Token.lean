import ConsumerContract.Text.Blank
import ConsumerContract.Text.Pieces

/-!
# Tokens of hints

A hint is a list of tokens `key=value` between commas. A comma separates two tokens only if a
known key and `=` follow it, so that values may hold commas of their own. A token that begins with
`regex=` takes all that is left.
-/

namespace ConsumerContract

/-- The known keys of hints. -/
inductive HintKey where
  | sample
  | regex
  | min
  | max
  | format
  | generator
  deriving DecidableEq, Repr

namespace HintKey

/-- All keys, in the order in which they are listed. -/
def all : List HintKey :=
  [.sample, .regex, .min, .max, .format, .generator]

/-- The word for the key. -/
def word : HintKey → String
  | .sample => "example"
  | .regex => "regex"
  | .min => "min"
  | .max => "max"
  | .format => "format"
  | .generator => "generator"

/-- The key of a word. -/
def ofWord? (word : String) : Option HintKey :=
  all.find? fun k => k.word == word

@[simp]
theorem ofWord?_word (k : HintKey) : ofWord? k.word = some k := by
  cases k <;> decide

end HintKey

namespace Hint

/-- The key and the value of a token. White space around the key does not count. -/
def splitToken (token : List Char) : Option (String × String) :=
  (Text.cutOnce '=' token).map fun (key, value) =>
    (String.ofList (Text.trim key), String.ofList value)

/-- Begins with a known key and `=`. -/
def startsWithKey (cs : List Char) : Bool :=
  match splitToken cs with
  | some (key, _) => (HintKey.ofWord? key).isSome
  | none => false

/-- The beginning of a token that takes all that is left. -/
def greedyStart : List Char :=
  ['r', 'e', 'g', 'e', 'x', '=']

/-- What stands before and after the first comma that a known key follows. -/
def cutBeforeKey : List Char → Option (List Char × List Char)
  | [] => none
  | c :: rest =>
    if c = ',' ∧ startsWithKey rest then some ([], rest)
    else (cutBeforeKey rest).map fun (token, more) => (c :: token, more)

/-- The first token, and what stands after the comma that ends it. -/
def firstToken (cs : List Char) : List Char × List Char :=
  if greedyStart.isPrefixOf cs then (cs, [])
  else (cutBeforeKey cs).getD (cs, [])

theorem length_of_cutBeforeKey {cs token more : List Char}
    (h : cutBeforeKey cs = some (token, more)) : token.length + more.length < cs.length := by
  induction cs generalizing token with
  | nil => simp [cutBeforeKey] at h
  | cons c rest ih =>
    by_cases cut : c = ',' ∧ startsWithKey rest
    · simp only [cutBeforeKey, cut, and_self, if_true, Option.some.injEq, Prod.mk.injEq] at h
      obtain ⟨rfl, rfl⟩ := h
      simp
    · simp only [cutBeforeKey, cut, if_false, Option.map_eq_some_iff] at h
      obtain ⟨⟨t, m⟩, found, same⟩ := h
      obtain ⟨rfl, rfl⟩ := same
      have shorter : t.length + m.length < rest.length := ih found
      simp only [List.length_cons]
      omega

theorem length_trimStart_le (cs : List Char) : (Text.trimStart cs).length ≤ cs.length :=
  (List.dropWhile_sublist _).length_le

theorem length_firstToken_snd {cs : List Char} (h : cs ≠ []) :
    (firstToken cs).2.length < cs.length := by
  have pos : 0 < cs.length := List.length_pos_iff.2 h
  unfold firstToken
  split
  · simpa using pos
  · cases cut : cutBeforeKey cs with
    | none => simpa using pos
    | some p => have := length_of_cutBeforeKey cut; simp only [Option.getD_some]; omega

/-- The tokens of a text. White space after a comma does not count. -/
def tokens (cs : List Char) : List (List Char) :=
  if _h : cs = [] then []
  else (firstToken cs).1 :: tokens (Text.trimStart (firstToken cs).2)
termination_by cs.length
decreasing_by
  exact Nat.lt_of_le_of_lt (length_trimStart_le _) (length_firstToken_snd ‹_›)

end Hint

end ConsumerContract
