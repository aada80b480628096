import ConsumerContract.Path.Reader
import ConsumerContract.Proofs.Numerals

/-!
# Paths read back

A path that was written from segments is read as these segments, whatever the names in it hold, if
none of its indices is beyond the reader's limit: `readUpTo_render`. Each kind of segment ends where the
next one begins, for the text of a segment starts with `.` or `[` and a name without quotes holds
neither. Any indices are below some limit, so no two lists of segments have one path; and a path leads
where its segments lead.
-/

namespace ConsumerContract

namespace Segment

theorem ne_of_isPlainChar {c d : Char} (plain : isPlainChar c = true)
    (h : isPlainChar d = false) : c ≠ d := by
  rintro rfl
  rw [plain] at h
  exact absurd h (by decide)

/-- The text of a list of segments. -/
def charsOf (segments : List Segment) : List Char :=
  segments.flatMap chars

@[simp]
theorem charsOf_nil : charsOf [] = [] :=
  rfl

@[simp]
theorem charsOf_cons (s : Segment) (segments : List Segment) :
    charsOf (s :: segments) = s.chars ++ charsOf segments :=
  List.flatMap_cons

/-- The segment is no index above `limit`. -/
def isWithin (limit : Nat) : Segment → Bool
  | .index i => i ≤ limit
  | .field _ | .anyItem | .anyValue => true

/-- Only an index can be beyond a limit. -/
theorem isWithin_iff {limit : Nat} {s : Segment} :
    s.isWithin limit = true ↔ ∀ i, s = .index i → i ≤ limit := by
  cases s <;> simp [isWithin]

theorem isWithin_mono {limit more : Nat} (le : limit ≤ more) {s : Segment}
    (within : s.isWithin limit = true) : s.isWithin more = true := by
  rw [isWithin_iff] at within ⊢
  exact fun i same => Nat.le_trans (within i same) le

/-- The indices of a list of segments have a bound. -/
theorem exists_limit (segments : List Segment) :
    ∃ limit, ∀ s ∈ segments, s.isWithin limit = true := by
  induction segments with
  | nil => exact ⟨0, List.forall_mem_nil _⟩
  | cons s rest ih =>
    obtain ⟨limit, within⟩ := ih
    obtain ⟨i, first⟩ : ∃ i, s.isWithin i = true := by
      cases s with
      | index i => exact ⟨i, by simp [isWithin]⟩
      | field | anyItem | anyValue => exact ⟨0, rfl⟩
    refine ⟨max i limit, List.forall_mem_cons.2 ⟨?_, fun s hs => ?_⟩⟩
    · exact isWithin_mono (Nat.le_max_left i limit) first
    · exact isWithin_mono (Nat.le_max_right i limit) (within s hs)

end Segment

namespace Path

open Segment (charsOf)

/-! ### Writing -/

theorem toList_append (parent : String) (s : Segment) :
    (append parent s).toList = parent.toList ++ s.chars := by
  simp [append, Segment.text]

@[simp]
theorem render_nil (parent : String) : render parent [] = parent :=
  rfl

theorem render_cons (parent : String) (s : Segment) (segments : List Segment) :
    render parent (s :: segments) = render (append parent s) segments :=
  rfl

/-- The text of a path is that of its parent and then that of its segments. -/
theorem toList_render (parent : String) (segments : List Segment) :
    (render parent segments).toList = parent.toList ++ charsOf segments := by
  induction segments generalizing parent with
  | nil => simp
  | cons s rest ih => rw [render_cons, ih, toList_append, Segment.charsOf_cons, List.append_assoc]

/-! ### One segment -/

/-- What may follow a segment: another one, or nothing. -/
def StartsSegment (cs : List Char) : Prop :=
  ∀ c ∈ cs.head?, isNameChar c = false

/-- The text of segments begins where a segment may begin. -/
theorem startsSegment_charsOf (segments : List Segment) : StartsSegment (charsOf segments) := by
  intro c hc
  cases segments with
  | nil => simp at hc
  | cons s rest =>
    cases s with
    | field name =>
      by_cases plain : Segment.isPlainName name = true
      · simp [Segment.chars, plain] at hc
        subst hc
        decide
      · simp [Segment.chars, plain] at hc
        subst hc
        decide
    | index i | anyItem | anyValue =>
      simp [Segment.chars] at hc
      subst hc
      decide

/-- A name without quotes goes on up to the next segment. -/
theorem takeWhile_nameChar {name rest : List Char} (named : ∀ c ∈ name, isNameChar c = true)
    (next : StartsSegment rest) : (name ++ rest).takeWhile isNameChar = name := by
  rw [List.takeWhile_append_of_pos named]
  cases rest with
  | nil => simp
  | cons c cs => simp [next c (by simp)]

theorem dropWhile_nameChar {name rest : List Char} (named : ∀ c ∈ name, isNameChar c = true)
    (next : StartsSegment rest) : (name ++ rest).dropWhile isNameChar = rest := by
  rw [List.dropWhile_append_of_pos named]
  cases rest with
  | nil => rfl
  | cons c cs => simp [next c (by simp)]

/-- The characters of plain names end no name. -/
theorem isNameChar_of_isPlainChar {c : Char} (h : Segment.isPlainChar c = true) :
    isNameChar c = true := by
  have point : c ≠ '.' := Segment.ne_of_isPlainChar h (by decide)
  have bracket : c ≠ '[' := Segment.ne_of_isPlainChar h (by decide)
  simp [isNameChar, point, bracket]

/-- A plain name is never the sign for any value. -/
theorem readDotted_of_isPlainName {name : String} (h : Segment.isPlainName name = true) :
    readDotted name.toList = some (.field name) := by
  simp only [Segment.isPlainName, Bool.and_eq_true, Bool.not_eq_true', List.isEmpty_eq_false_iff,
    List.all_eq_true] at h
  obtain ⟨nonempty, plain⟩ := h
  have star : name.toList ≠ ['*'] := by
    intro same
    exact Segment.ne_of_isPlainChar (plain '*' (by simp [same])) (by decide) rfl
  simp [readDotted, nonempty, star]

/-- A quoted name ends at its own closing quote, for every quote inside it is escaped. -/
theorem readQuoted_quotedChar (name rest : List Char) :
    readQuoted (name.flatMap Segment.quotedChar ++ '\'' :: ']' :: rest) = some (name, rest) := by
  induction name with
  | nil => rw [List.flatMap_nil, List.nil_append, readQuoted]
  | cons c cs ih =>
    rw [List.flatMap_cons, List.append_assoc]
    by_cases special : c = '\'' ∨ c = '\\'
    · rw [Segment.quotedChar, if_pos special]
      simp [readQuoted, ih]
    · obtain ⟨quote, backslash⟩ := not_or.1 special
      rw [Segment.quotedChar, if_neg special]
      simp [readQuoted, quote, backslash, ih]

/-- An index is read exactly if it is within the limit. -/
theorem readIndex_decimalDigits (limit i : Nat) :
    readIndex limit (Text.decimalDigits i) = if i ≤ limit then some i else none := by
  have spelled := Text.SpellsUnsigned.plain (Text.spellsNatural_decimalDigits i)
  rw [readIndex]
  split
  next within =>
    rw [Text.readUnsigned_eq_ok_iff.2 ⟨spelled, within⟩]
    rfl
  next beyond =>
    cases reads : Text.readUnsigned limit (Text.decimalDigits i) with
    | error fault => rfl
    | ok n =>
      obtain ⟨other, within⟩ := Text.readUnsigned_eq_ok_iff.1 reads
      rw [other.unique spelled] at within
      exact absurd within beyond

/-- Between brackets, an index is read exactly if it is within the limit. -/
theorem readBracketed_decimalDigits (limit i : Nat) :
    readBracketed limit (Text.decimalDigits i) = if i ≤ limit then some (.index i) else none := by
  have star : Text.decimalDigits i ≠ ['*'] := fun same =>
    Text.ne_of_mem_decimalDigits (i := i) (d := '*') (by simp [same]) (by decide) rfl
  rw [readBracketed, if_neg star, readIndex_decimalDigits]
  split <;> rfl

/-! ### All segments -/

/-- A bracket that no quote follows opens an index or the sign for any item. -/
theorem readSegments_bracket (limit fuel : Nat) (inner : List Char) {rest : List Char}
    (plain : ∀ c ∈ inner, c ≠ ']' ∧ c ≠ '\'') (nonempty : inner ≠ []) :
    readSegments limit (fuel + 1) ('[' :: inner ++ ']' :: rest) =
      (readBracketed limit inner).bind fun s => (readSegments limit fuel rest).map (s :: ·) := by
  have stop : ∀ c ∈ inner, (c != ']') = true := fun c hc => bne_iff_ne.2 (plain c hc).1
  have before : (inner ++ ']' :: rest).takeWhile (· != ']') = inner := by
    rw [List.takeWhile_append_of_pos stop]
    simp
  have after : (inner ++ ']' :: rest).dropWhile (· != ']') = ']' :: rest := by
    rw [List.dropWhile_append_of_pos stop]
    simp
  have unquoted : ∀ cs, inner ++ ']' :: rest ≠ '\'' :: cs := by
    intro cs same
    obtain ⟨c, tail, shape⟩ := List.exists_cons_of_ne_nil nonempty
    rw [shape] at same
    exact (plain c (by simp [shape])).2 (List.cons.inj same).1
  rw [List.cons_append, readSegments, before, after]
  · cases readBracketed limit inner <;> rfl
  · exact unquoted

/-- The reader takes one segment from its text, unless it is an index beyond the limit. -/
theorem readSegments_chars (limit fuel : Nat) (s : Segment) {rest : List Char}
    (next : StartsSegment rest) :
    readSegments limit (fuel + 1) (s.chars ++ rest) =
      if s.isWithin limit then (readSegments limit fuel rest).map (s :: ·) else none := by
  cases s with
  | field name =>
    rw [Segment.isWithin, if_pos rfl]
    by_cases plain : Segment.isPlainName name = true
    · have named : ∀ c ∈ name.toList, isNameChar c = true := by
        simp only [Segment.isPlainName, Bool.and_eq_true, List.all_eq_true] at plain
        exact fun c hc => isNameChar_of_isPlainChar (plain.2 c hc)
      rw [Segment.chars, if_pos plain, List.cons_append, readSegments,
        takeWhile_nameChar named next, dropWhile_nameChar named next,
        readDotted_of_isPlainName plain]
    · have shape : (Segment.field name).chars ++ rest =
          '[' :: '\'' :: (name.toList.flatMap Segment.quotedChar ++ '\'' :: ']' :: rest) := by
        simp [Segment.chars, plain]
      rw [shape, readSegments, readQuoted_quotedChar]
      simp
  | index i =>
    have shape : (Segment.index i).chars ++ rest =
        '[' :: Text.decimalDigits i ++ ']' :: rest := by
      simp [Segment.chars]
    have plain : ∀ c ∈ Text.decimalDigits i, c ≠ ']' ∧ c ≠ '\'' := by
      intro c hc
      constructor
      · exact Text.ne_of_mem_decimalDigits hc (by decide)
      · exact Text.ne_of_mem_decimalDigits hc (by decide)
    rw [shape, readSegments_bracket limit fuel _ plain Nat.toDigits_ne_nil, readBracketed_decimalDigits]
    by_cases within : i ≤ limit <;> simp [Segment.isWithin, within]
  | anyItem =>
    have plain : ∀ c ∈ ['*'], c ≠ ']' ∧ c ≠ '\'' := List.forall_mem_singleton.2 (by decide)
    exact readSegments_bracket limit fuel ['*'] plain (List.cons_ne_nil _ _)
  | anyValue =>
    have star : ∀ c ∈ ['*'], isNameChar c = true := List.forall_mem_singleton.2 (by decide)
    have shape : Segment.anyValue.chars ++ rest = '.' :: (['*'] ++ rest) := rfl
    rw [shape, readSegments, takeWhile_nameChar star next, dropWhile_nameChar star next]
    rfl

/-- The reader takes all segments from their text, unless there is an index beyond the limit. -/
theorem readSegments_charsOf {limit fuel : Nat} {segments : List Segment}
    (enough : segments.length ≤ fuel) :
    readSegments limit fuel (charsOf segments) =
      if segments.all (·.isWithin limit) then some segments else none := by
  induction segments generalizing fuel with
  | nil => cases fuel <;> rfl
  | cons s rest ih =>
    obtain ⟨fuel, rfl⟩ : ∃ n, fuel = n + 1 := ⟨fuel - 1, by simp at enough; omega⟩
    rw [Segment.charsOf_cons, readSegments_chars limit fuel s (startsSegment_charsOf rest),
      ih (by simpa using enough), List.all_cons]
    cases s.isWithin limit <;> cases rest.all (·.isWithin limit) <;> rfl

/-- Every segment has a character, so the length of a path is enough fuel for its segments. -/
theorem length_le_charsOf (segments : List Segment) :
    segments.length ≤ (charsOf segments).length := by
  induction segments with
  | nil => simp
  | cons s rest ih =>
    have positive : 1 ≤ s.chars.length := by
      cases s with
      | field name => by_cases plain : Segment.isPlainName name = true <;> simp [Segment.chars, plain]
      | index i | anyItem | anyValue => simp [Segment.chars]
    simp only [List.length_cons, Segment.charsOf_cons, List.length_append]
    omega

/-- Reading a path gives back the segments that it was written from, unless there is an index beyond the
limit. -/
theorem readUpTo_render (limit : Nat) (segments : List Segment) :
    readUpTo limit (render root segments) =
      if segments.all (·.isWithin limit) then some segments else none := by
  have shape : (render root segments).toList = '$' :: charsOf segments := toList_render _ _
  rw [readUpTo, shape]
  exact readSegments_charsOf (length_le_charsOf segments)

/-- No two lists of segments have one path. -/
theorem render_injective (parent : String) {a b : List Segment}
    (h : render parent a = render parent b) : a = b := by
  have same : charsOf a = charsOf b := by
    have texts := congrArg String.toList h
    rw [toList_render, toList_render] at texts
    exact List.append_cancel_left texts
  have asRoot : render root a = render root b :=
    String.toList_injective (by rw [toList_render, toList_render, same])
  -- A reader whose limit is above all indices of both lists reads both from the one path.
  obtain ⟨limit, within⟩ := Segment.exists_limit (a ++ b)
  obtain ⟨inA, inB⟩ := List.forall_mem_append.1 within
  have reads := readUpTo_render limit a
  rw [asRoot, readUpTo_render, if_pos (List.all_eq_true.2 inA), if_pos (List.all_eq_true.2 inB)] at reads
  exact (Option.some.inj reads).symm

/-- All indices of the segments can be read. -/
def AreReadable (segments : List Segment) : Prop :=
  ∀ i, Segment.index i ∈ segments → i ≤ maxIndex

/-- Segments are within the greatest index exactly if they can be read. -/
theorem all_isWithin_iff {segments : List Segment} :
    segments.all (·.isWithin maxIndex) = true ↔ AreReadable segments := by
  rw [List.all_eq_true]
  constructor
  · exact fun within i hi => Segment.isWithin_iff.1 (within _ hi) i rfl
  · exact fun readable s hs => Segment.isWithin_iff.2 fun i same => readable i (same ▸ hs)

/-- A path is read as the segments that it was written from exactly if their indices can be read. -/
theorem read_render_iff {segments : List Segment} :
    read (render root segments) = some segments ↔ AreReadable segments := by
  rw [read, readUpTo_render, ← all_isWithin_iff]
  split
  next within => exact iff_of_true rfl within
  next beyond => exact iff_of_false (by simp) beyond

/-- A path leads where its segments lead, if their indices can be read, and else nowhere. -/
theorem resolves_render_iff {body : Json} {segments : List Segment} :
    resolves body (render root segments) = true ↔
      AreReadable segments ∧ leads segments body = true := by
  rw [resolves, read, readUpTo_render, ← all_isWithin_iff]
  by_cases within : segments.all (·.isWithin maxIndex) = true <;> simp [within]

end Path

end ConsumerContract
