/-!
# Cutting text at a separator

`pieces` cuts at every separator, `cutOnce` at the first one. What stands before a separator is cut apart
from what stands behind it: `pieces_append_separator`.
-/

namespace ConsumerContract.Text

/-- The pieces of `cs` between the separators; there is one more than there are separators. -/
def pieces (separator : Char) : List Char → List (List Char)
  | [] => [[]]
  | c :: rest =>
    if c = separator then [] :: pieces separator rest
    else match pieces separator rest with
      | [] => [[c]]
      | piece :: more => (c :: piece) :: more

/-- What stands before and after the first separator. -/
def cutOnce (separator : Char) : List Char → Option (List Char × List Char)
  | [] => none
  | c :: rest =>
    if c = separator then some ([], rest)
    else (cutOnce separator rest).map fun (before, after) => (c :: before, after)

/-- There is always a first piece, though it may be empty. -/
theorem pieces_eq_cons (separator : Char) (cs : List Char) :
    ∃ first more, pieces separator cs = first :: more := by
  apply List.exists_cons_of_ne_nil
  cases cs with
  | nil => exact List.cons_ne_nil _ _
  | cons c rest =>
    unfold pieces
    split
    · exact List.cons_ne_nil _ _
    · split <;> exact List.cons_ne_nil _ _

theorem pieces_separator (separator : Char) (rest : List Char) :
    pieces separator (separator :: rest) = [] :: pieces separator rest :=
  if_pos rfl

/-- A character that is no separator stands in the first piece. -/
theorem pieces_cons {separator c : Char} (other : c ≠ separator) {rest piece : List Char}
    {more : List (List Char)} (h : pieces separator rest = piece :: more) :
    pieces separator (c :: rest) = (c :: piece) :: more := by
  rw [pieces, if_neg other, h]

/-- A text without the separator is one piece. -/
theorem pieces_of_not_mem {separator : Char} {cs : List Char} (absent : separator ∉ cs) :
    pieces separator cs = [cs] := by
  induction cs with
  | nil => rfl
  | cons c rest ih =>
    rw [List.mem_cons, not_or] at absent
    exact pieces_cons (Ne.symm absent.1) (ih absent.2)

/-- A separator parts the pieces before it from those behind it. -/
theorem pieces_append_separator (separator : Char) (front back : List Char) :
    pieces separator (front ++ separator :: back) = pieces separator front ++ pieces separator back := by
  induction front with
  | nil => exact pieces_separator separator back
  | cons c front ih =>
    by_cases same : c = separator
    · rw [same, List.cons_append, pieces_separator, ih, pieces_separator, List.cons_append]
    · obtain ⟨piece, more, cut⟩ := pieces_eq_cons separator front
      rw [cut, List.cons_append] at ih
      rw [List.cons_append, pieces_cons same ih, pieces_cons same cut, List.cons_append]

/-- No piece holds the separator. -/
theorem not_mem_of_mem_pieces {separator : Char} {cs piece : List Char} (h : piece ∈ pieces separator cs) :
    separator ∉ piece := by
  induction cs generalizing piece with
  | nil =>
    rw [List.mem_singleton.1 h]
    exact List.not_mem_nil
  | cons c rest ih =>
    by_cases same : c = separator
    · rw [same, pieces_separator] at h
      rcases List.mem_cons.1 h with rfl | later
      · exact List.not_mem_nil
      · exact ih later
    · obtain ⟨first, more, cut⟩ := pieces_eq_cons separator rest
      rw [pieces_cons same cut] at h
      rw [cut] at ih
      rcases List.mem_cons.1 h with rfl | later
      · simpa [Ne.symm same] using ih List.mem_cons_self
      · exact ih (List.mem_cons_of_mem first later)

/-- The two sides of a cut, with the separator between them, are the whole text. -/
theorem append_of_cutOnce {separator : Char} {cs before after : List Char}
    (h : cutOnce separator cs = some (before, after)) : cs = before ++ separator :: after := by
  induction cs generalizing before with
  | nil => simp [cutOnce] at h
  | cons c rest ih =>
    by_cases hc : c = separator
    · simp only [cutOnce, hc, if_true, Option.some.injEq, Prod.mk.injEq] at h
      obtain ⟨rfl, rfl⟩ := h
      simp [hc]
    · simp only [cutOnce, hc, if_false, Option.map_eq_some_iff] at h
      obtain ⟨⟨b, a⟩, hcut, heq⟩ := h
      obtain ⟨rfl, rfl⟩ := heq
      rw [ih hcut]
      rfl

/-- There is no cut exactly if the separator is missing. -/
theorem cutOnce_eq_none_iff {separator : Char} {cs : List Char} :
    cutOnce separator cs = none ↔ separator ∉ cs := by
  induction cs with
  | nil => simp [cutOnce]
  | cons c rest ih =>
    by_cases hc : c = separator
    · simp [cutOnce, hc]
    · simp [cutOnce, hc, ih, Ne.symm hc]

end ConsumerContract.Text
