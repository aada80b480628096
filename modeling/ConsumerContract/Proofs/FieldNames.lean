import ConsumerContract.Shape.Basic
import ConsumerContract.Text.Pieces

/-!
# Names in one word

A name is camel-cased in one pass over its characters, which remembers whether something has been written and
whether a word is about to begin. Word by word the rule is shorter: without the marks of a raw identifier, the
name is cut at every `_`, and its words are put together, every one but the first with the capitals of its
first character. Both make the same of every name (`joinWords_eq_inOneWord`). What becomes of underscores
follows from one equation, `words_append`. As no underscore is a capital of another character
(`underscore_not_mem_capitals`), the name has none then, and is left as it is unless marks have come to stand
before it (`camelCase_joins_words`).
-/

namespace ConsumerContract

/-! ### Capitals -/

namespace Text

/-- The code point of an ASCII capital, or of a character beyond ASCII. -/
def IsCapitalCode (n : Nat) : Prop :=
  65 ≤ n ∧ n ≤ 90 ∨ 0x80 ≤ n ∧ n.isValidChar

instance (n : Nat) : Decidable (IsCapitalCode n) :=
  inferInstanceAs (Decidable (_ ∨ _))

/-- The run leads to capitals from its first code point to its last. -/
def CaseRun.IsSound (run : CaseRun) : Prop :=
  65 ≤ run.low + run.shift ∧ run.high + run.shift ≤ 90 ∨
    0x80 ≤ run.low + run.shift ∧ run.high + run.shift < 0xd800 ∨
    0xdfff < run.low + run.shift ∧ run.high + run.shift < 0x110000

instance (run : CaseRun) : Decidable run.IsSound :=
  inferInstanceAs (Decidable (_ ∨ _))

/-- Every run of the table leads to capitals. -/
theorem isSound_of_mem_caseRuns : ∀ run ∈ caseRuns, run.IsSound := by
  decide +kernel

theorem isCapitalCode_of_mem_longCapitals : ∀ e ∈ longCapitals, ∀ n ∈ e.2, IsCapitalCode n := by
  decide +kernel

/-- What a sound run leads to is a capital. -/
theorem CaseRun.IsSound.isCapitalCode {run : CaseRun} (sound : run.IsSound) {n : Nat}
    (has : run.has n = true) : IsCapitalCode (Int.toNat (n + run.shift)) := by
  simp only [CaseRun.has, Bool.and_eq_true, decide_eq_true_eq] at has
  unfold CaseRun.IsSound at sound
  unfold IsCapitalCode Nat.isValidChar
  omega

theorem IsCapitalCode.isValidChar {n : Nat} (h : IsCapitalCode n) : n.isValidChar := by
  rcases h with ⟨-, most⟩ | ⟨-, valid⟩
  · exact .inl (by omega)
  · exact valid

theorem toUpper_eq_or_isCapitalCode (c : Char) : c.toUpper = c ∨ IsCapitalCode c.toUpper.toNat := by
  unfold Char.toUpper
  split
  next lower =>
    have least : 97 ≤ c.val.toNat := UInt32.le_iff_toNat_le.1 lower.1
    have most : c.val.toNat ≤ 122 := UInt32.le_iff_toNat_le.1 lower.2
    -- the capital stands 32 before the letter, a distance taken modulo the width of the word
    have capital : (c.val + ('A'.val - 'a'.val)).toNat = (c.val.toNat + (2 ^ 32 - 32)) % 2 ^ 32 :=
      UInt32.toNat_add ..
    refine .inr (.inl ?_)
    show 65 ≤ (c.val + ('A'.val - 'a'.val)).toNat ∧ (c.val + ('A'.val - 'a'.val)).toNat ≤ 90
    omega
  next => exact .inl rfl

/-- The capitals of a character, where they are not the character itself, are ASCII capitals or stand beyond
ASCII. -/
theorem eq_or_isCapitalCode_of_mem_capitals {c d : Char} (h : d ∈ capitals c) :
    d = c ∨ IsCapitalCode d.toNat := by
  unfold capitals at h
  split at h
  · rw [List.mem_singleton.1 h]
    exact toUpper_eq_or_isCapitalCode c
  split at h
  next e codes found =>
    obtain ⟨n, mem, rfl⟩ := List.mem_map.1 h
    have code := isCapitalCode_of_mem_longCapitals _ (List.mem_of_find?_eq_some found) n mem
    rw [toNat_ofNat code.isValidChar]
    exact .inr code
  next =>
    split at h
    next run found =>
      have has : run.has c.toNat = true := by simpa using List.find?_some found
      have code := (isSound_of_mem_caseRuns run (List.mem_of_find?_eq_some found)).isCapitalCode has
      rw [List.mem_singleton.1 h, toNat_ofNat code.isValidChar]
      exact .inr code
    next => exact .inl (List.mem_singleton.1 h)

/-- Capitals of a character hold no underscore unless it is one. -/
theorem underscore_not_mem_capitals {c : Char} (other : c ≠ '_') : '_' ∉ capitals c := by
  intro mem
  rcases eq_or_isCapitalCode_of_mem_capitals mem with same | code
  · exact other same.symm
  · exact absurd code (by decide)

end Text

namespace FieldNaming

open Text (pieces capitals)

/-! ### Marks -/

/-- The mark of a raw identifier. -/
def mark : List Char :=
  ['r', '#']

/-- The mark, so many times. -/
def marks (count : Nat) : List Char :=
  (List.replicate count mark).flatten

theorem marks_succ (count : Nat) : marks (count + 1) = mark ++ marks count := by
  unfold marks
  rw [List.replicate_succ, List.flatten_cons]

/-- A name without a mark in front stays as it is. -/
theorem dropMarks_of_not_marked {cs : List Char} (bare : ¬ mark <+: cs) : dropMarks cs = cs := by
  unfold dropMarks
  split
  next rest => exact absurd (List.prefix_append mark rest) bare
  next => rfl

/-- Nothing but marks is dropped, and none of them is left. -/
theorem exists_marks (cs : List Char) :
    ∃ count, cs = marks count ++ dropMarks cs ∧ ¬ mark <+: dropMarks cs := by
  fun_induction dropMarks cs with
  | case1 rest ih =>
    obtain ⟨count, whole, bare⟩ := ih
    refine ⟨count + 1, ?_, bare⟩
    rw [marks_succ, List.append_assoc, ← whole]
    rfl
  | case2 cs other =>
    refine ⟨0, rfl, ?_⟩
    rintro ⟨rest, rfl⟩
    exact other rest rfl

/-- Any number of marks is dropped. -/
theorem dropMarks_marks (count : Nat) (cs : List Char) : dropMarks (marks count ++ cs) = dropMarks cs := by
  induction count with
  | zero => rfl
  | succ count ih =>
    rw [marks_succ, List.append_assoc]
    exact ih

/-- An underscore is no part of a mark. -/
theorem dropMarks_append_underscore (front back : List Char) :
    dropMarks (front ++ '_' :: back) = dropMarks front ++ '_' :: back := by
  fun_induction dropMarks front with
  | case1 rest ih => exact ih
  | case2 cs other =>
    apply dropMarks_of_not_marked
    rintro ⟨rest, whole⟩
    match cs with
    | [] => cases whole
    | [c] => cases whole
    | c :: d :: cs =>
      cases whole
      exact other cs rfl

/-- Dropping marks changes exactly the names that have one in front. -/
theorem dropMarks_eq_self_iff {cs : List Char} : dropMarks cs = cs ↔ ¬ mark <+: cs := by
  refine ⟨fun same => ?_, dropMarks_of_not_marked⟩
  obtain ⟨count, -, bare⟩ := exists_marks cs
  rwa [same] at bare

/-! ### Words -/

/-- The words of a name: what stands between its underscores. -/
def words (cs : List Char) : List (List Char) :=
  (pieces '_' cs).filter (· ≠ [])

/-- The word with the capitals of its first character for that character. -/
def raised : List Char → List Char
  | [] => []
  | c :: rest => capitals c ++ rest

/-- The words put together: the first as it is, every later one raised. -/
def inOneWord : List (List Char) → List Char
  | [] => []
  | first :: later => first ++ later.flatMap raised

/-- No word goes on across an underscore. -/
theorem words_append (front back : List Char) :
    words (front ++ '_' :: back) = words front ++ words back := by
  unfold words
  rw [Text.pieces_append_separator, List.filter_append]

/-- Underscores at the front begin no word. -/
theorem words_underscores (n : Nat) (back : List Char) :
    words (List.replicate n '_' ++ back) = words back := by
  induction n with
  | zero => rfl
  | succ n ih => exact (words_append [] _).trans ih

/-- Underscores in a row separate as one does. -/
theorem words_append_underscores (front : List Char) (n : Nat) (back : List Char) :
    words (front ++ (List.replicate (n + 1) '_' ++ back)) = words (front ++ '_' :: back) := by
  rw [List.replicate_succ, List.cons_append, words_append, words_underscores, words_append]

/-- A name without underscores is its only word, if there is anything in it. -/
theorem inOneWord_words {cs : List Char} (absent : '_' ∉ cs) : inOneWord (words cs) = cs := by
  unfold words
  rw [Text.pieces_of_not_mem absent]
  by_cases none : cs = []
  · rw [none]
    rfl
  · rw [List.filter_cons_of_pos (by simpa using none)]
    exact List.append_nil cs

theorem underscore_not_mem_raised {word : List Char} (absent : '_' ∉ word) : '_' ∉ raised word := by
  cases word with
  | nil => exact absent
  | cons c rest =>
    rw [List.mem_cons, not_or] at absent
    rw [raised, List.mem_append, not_or]
    exact ⟨Text.underscore_not_mem_capitals (Ne.symm absent.1), absent.2⟩

/-- The words of a name are joined without underscores. -/
theorem underscore_not_mem_inOneWord (cs : List Char) : '_' ∉ inOneWord (words cs) := by
  have absent : ∀ word ∈ words cs, '_' ∉ word := fun word mem =>
    Text.not_mem_of_mem_pieces (List.mem_filter.1 mem).1
  cases parts : words cs with
  | nil => exact List.not_mem_nil
  | cons first later =>
    rw [parts] at absent
    obtain ⟨here, others⟩ := List.forall_mem_cons.1 absent
    rw [inOneWord, List.mem_append, List.mem_flatMap]
    rintro (mem | ⟨word, among, mem⟩)
    · exact here mem
    · exact underscore_not_mem_raised (others word among) mem

/-! ### The pass -/

/-- Once something has been written, the rest of the word comes first, and every later word is raised. The
induction is on the characters for both values of `raise`, since an underscore sets it and the next
character takes it back. -/
theorem joinWords_begun (raise : Bool) {cs first : List Char} {more : List (List Char)}
    (cut : pieces '_' cs = first :: more) :
    joinWords true raise cs =
      (if raise then raised first else first) ++ (more.filter (· ≠ [])).flatMap raised := by
  induction cs generalizing raise first more with
  | nil =>
    cases cut
    cases raise <;> rfl
  | cons c rest ih =>
    obtain ⟨piece, others, later⟩ := Text.pieces_eq_cons '_' rest
    by_cases same : c = '_'
    · rw [same, Text.pieces_separator, later] at cut
      cases cut
      rw [joinWords, if_pos same, ih true later]
      -- the word that has ended here may be empty, and so may the one that begins
      cases piece <;> cases raise <;> rfl
    · rw [Text.pieces_cons same later] at cut
      cases cut
      rw [joinWords, if_neg same, ih false later]
      cases raise with
      | false => rfl
      | true => simp [raised]

/-- Before anything has been written, underscores are passed over and the first word is as it is. -/
theorem joinWords_eq_inOneWord (cs : List Char) : joinWords false false cs = inOneWord (words cs) := by
  induction cs with
  | nil => rfl
  | cons c rest ih =>
    by_cases same : c = '_'
    · rw [same, joinWords, if_pos rfl, ih]
      exact congrArg inOneWord (words_append [] rest).symm
    · obtain ⟨piece, others, later⟩ := Text.pieces_eq_cons '_' rest
      rw [joinWords, if_neg same, joinWords_begun false later, words, Text.pieces_cons same later]
      rfl

/-- A name in camel case is its words, without marks, in one. -/
theorem camelCase_eq (ident : String) :
    camelCase ident = String.ofList (inOneWord (words (dropMarks ident.toList))) := by
  rw [camelCase, joinWords_eq_inOneWord]

/-- A name in camel case has no underscore. -/
theorem underscore_not_mem_camelCase (ident : String) : '_' ∉ (camelCase ident).toList := by
  rw [camelCase_eq, String.toList_ofList]
  exact underscore_not_mem_inOneWord _

/-- Of a name without underscores only the marks are taken away. -/
theorem camelCase_of_not_mem {ident : String} (absent : '_' ∉ ident.toList) :
    camelCase ident = String.ofList (dropMarks ident.toList) := by
  obtain ⟨count, whole, -⟩ := exists_marks ident.toList
  have none : '_' ∉ dropMarks ident.toList := fun mem =>
    absent (whole ▸ List.mem_append_right (marks count) mem)
  rw [camelCase_eq, inOneWord_words none]

/-! ### Underscores -/

/-- So many underscores. -/
def underscores (n : Nat) : String :=
  String.ofList (List.replicate n '_')

/-- Underscores at the end change nothing. -/
theorem camelCase_append_underscores (ident : String) (n : Nat) :
    camelCase (ident ++ underscores n) = camelCase ident := by
  cases n with
  | zero =>
    have same : ident ++ underscores 0 = ident := String.append_empty
    rw [same]
  | succ n =>
    have none : words (List.replicate n '_') = [] := by
      rw [← List.append_nil (List.replicate n '_'), words_underscores]
      rfl
    rw [camelCase_eq, camelCase_eq, underscores, String.toList_append, String.toList_ofList,
      List.replicate_succ, dropMarks_append_underscore, words_append, none, List.append_nil]

/-- Underscores in a row do as much as one. -/
theorem camelCase_append_underscores_append (front back : String) (n : Nat) :
    camelCase (front ++ underscores (n + 1) ++ back) = camelCase (front ++ "_" ++ back) := by
  have one : ("_" : String).toList = ['_'] := rfl
  rw [camelCase_eq, camelCase_eq]
  simp only [underscores, String.toList_append, String.toList_ofList, List.append_assoc, one,
    List.singleton_append]
  rw [dropMarks_append_underscore, ← words_append_underscores (dropMarks front.toList) n,
    List.replicate_succ, List.cons_append, dropMarks_append_underscore]

/-- Underscores between the marks and the name change nothing. -/
theorem camelCase_underscores_append {ident : String} (bare : ¬ mark <+: ident.toList) (count n : Nat) :
    camelCase (String.ofList (marks count) ++ underscores n ++ ident) = camelCase ident := by
  rw [camelCase_eq, camelCase_eq, dropMarks_of_not_marked bare]
  simp only [underscores, String.toList_append, String.toList_ofList, List.append_assoc]
  rw [dropMarks_marks]
  cases n with
  | zero => rw [List.replicate_zero, List.nil_append, dropMarks_of_not_marked bare]
  | succ n =>
    have first : dropMarks (List.replicate (n + 1) '_' ++ ident.toList) =
        List.replicate (n + 1) '_' ++ ident.toList := dropMarks_append_underscore [] _
    rw [first, words_underscores]

/-- A name in camel case is its words put together: the marks before it are taken away, the rest is cut at
every underscore, and every word but the first is raised. No underscore is left, and more of them make no
difference at the end, beside another one, or before a name that has no mark. Made again, the name stays as it
is exactly if no mark stands before it. -/
theorem camelCase_joins_words (ident : String) :
    (∃ count name, ident.toList = marks count ++ name ∧ ¬ mark <+: name ∧
      (camelCase ident).toList = inOneWord (words name)) ∧
    '_' ∉ (camelCase ident).toList ∧
    (∀ n, camelCase (ident ++ underscores n) = camelCase ident) ∧
    (∀ front back n, ident = front ++ "_" ++ back →
      camelCase (front ++ underscores (n + 1) ++ back) = camelCase ident) ∧
    (¬ mark <+: ident.toList → ∀ count n,
      camelCase (String.ofList (marks count) ++ underscores n ++ ident) = camelCase ident) ∧
    (camelCase (camelCase ident) = camelCase ident ↔ ¬ mark <+: (camelCase ident).toList) := by
  refine ⟨?wordwise, underscore_not_mem_camelCase ident, camelCase_append_underscores ident, ?between,
    fun bare => camelCase_underscores_append bare, ?again⟩
  case wordwise =>
    obtain ⟨count, whole, bare⟩ := exists_marks ident.toList
    refine ⟨count, dropMarks ident.toList, whole, bare, ?_⟩
    rw [camelCase_eq, String.toList_ofList]
  case between =>
    rintro front back n rfl
    exact camelCase_append_underscores_append front back n
  case again =>
    rw [camelCase_of_not_mem (underscore_not_mem_camelCase ident), ← dropMarks_eq_self_iff]
    constructor
    · intro same
      have chars := congrArg String.toList same
      rwa [String.toList_ofList] at chars
    · intro same
      rw [same, String.ofList_toList]

/-- A capital of two characters, at the beginning of a later word. -/
theorem camelCase_joins_words_sharp_s :
    ¬ mark <+: "straße_ßig".toList ∧ "straße_ßig" = "straße" ++ "_" ++ "ßig" ∧
      camelCase "straße_ßig" = "straßeSSig" ∧
      camelCase ("straße" ++ underscores 3 ++ "ßig") = "straßeSSig" ∧
      camelCase (String.ofList (marks 2) ++ underscores 1 ++ "straße_ßig") = "straßeSSig" := by
  have bare : ¬ mark <+: "straße_ßig".toList := by decide
  have cut : "straße_ßig" = "straße" ++ "_" ++ "ßig" := by decide
  have joined : camelCase "straße_ßig" = "straßeSSig" := by decide
  obtain ⟨-, -, -, between, before, -⟩ := camelCase_joins_words "straße_ßig"
  exact ⟨bare, cut, joined, (between _ _ 2 cut).trans joined, (before bare 2 1).trans joined⟩

/-- An underscore keeps a mark, which is taken away only when the name is made again. -/
example : camelCase "_r#in_use" = "r#inUse" ∧ camelCase "r#inUse" = "inUse" := by decide

end FieldNaming

end ConsumerContract
