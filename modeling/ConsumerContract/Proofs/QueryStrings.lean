import ConsumerContract.Proofs.Dictionaries
import ConsumerContract.Proofs.FormEncoding
import ConsumerContract.Proofs.Hints
import ConsumerContract.QueryString

/-!
# Queries are read back

A query in text is cut at every `&`, each piece at its first `=`, and both parts are read as form encoding:
`QueryStyle.readPairs`. What a style has written comes back as its pairs, whatever characters stand in names
and values (`readPairs_render`), for neither separator occurs in form encoding. The values of a name stand
together, so they can be gathered again; only of a name without values nothing is left
(`render_reads_back`).
-/

namespace ConsumerContract

/-! ### Pieces -/

namespace Text

theorem pieces_append {separator : Char} {piece : List Char} (absent : separator ∉ piece)
    (rest : List Char) : pieces separator (piece ++ separator :: rest) = piece :: pieces separator rest := by
  rw [pieces_append_separator, pieces_of_not_mem absent, List.singleton_append]

/-- Pieces without separators are cut where they have been joined. -/
theorem pieces_intercalate {separator : Char} {parts : List (List Char)} (some : parts ≠ [])
    (absent : ∀ part ∈ parts, separator ∉ part) :
    pieces separator ([separator].intercalate parts) = parts := by
  induction parts with
  | nil => exact absurd rfl some
  | cons first more ih =>
    obtain ⟨here, others⟩ := List.forall_mem_cons.1 absent
    cases more with
    | nil => simpa [List.intercalate] using pieces_of_not_mem here
    | cons second rest =>
      rw [List.intercalate_cons_cons, List.append_assoc, List.singleton_append, pieces_append here,
        ih (List.cons_ne_nil second rest) others]

/-- What is joined holds the separator and the characters of the parts. -/
theorem mem_intercalate {separator c : Char} {parts : List (List Char)}
    (h : c ∈ [separator].intercalate parts) : c = separator ∨ ∃ part ∈ parts, c ∈ part := by
  induction parts with
  | nil => cases h
  | cons first more ih =>
    cases more with
    | nil => exact .inr ⟨first, List.mem_cons_self, by simpa [List.intercalate] using h⟩
    | cons second rest =>
      rw [List.intercalate_cons_cons, List.append_assoc, List.mem_append] at h
      rcases h with h | h
      · exact .inr ⟨first, List.mem_cons_self, h⟩
      · rcases List.mem_cons.1 h with h | h
        · exact .inl h
        · refine (ih h).imp id ?_
          rintro ⟨part, mem, inside⟩
          exact ⟨part, List.mem_cons_of_mem _ mem, inside⟩

end Text

namespace QueryStyle

open Text (formEncode formDecode)

/-! ### Reading -/

/-- A name and a value; a piece without `=` is a name with an empty value. -/
def readPair (piece : List Char) : String × String :=
  match Text.cutOnce '=' piece with
  | some (name, value) => (String.ofList (formDecode name), String.ofList (formDecode value))
  | none => (String.ofList (formDecode piece), "")

/-- The pairs of a query in text. Empty pieces do not count. -/
def readPairs (text : String) : List (String × String) :=
  ((Text.pieces '&' text.toList).filter (· ≠ [])).map readPair

/-- A pair is read back from its text. -/
theorem readPair_pairChars (pair : List Char × List Char) :
    readPair (pairChars pair) = (String.ofList pair.1, String.ofList pair.2) := by
  have absent := Text.not_mem_formEncode (.inr rfl) pair.1
  rw [readPair, pairChars, Text.cutOnce_append absent]
  simp only [Text.formDecode_formEncode]

theorem not_mem_pairChars (pair : List Char × List Char) : '&' ∉ pairChars pair := by
  intro mem
  rcases List.mem_append.1 mem with mem | mem
  · exact Text.not_mem_formEncode (.inl rfl) _ mem
  · rcases List.mem_cons.1 mem with same | mem
    · cases same
    · exact Text.not_mem_formEncode (.inl rfl) _ mem

theorem pairChars_ne_nil (pair : List Char × List Char) : pairChars pair ≠ [] := by
  simp [pairChars]

/-- What has been written is read as the pairs that were written. -/
theorem readPairs_render (style : QueryStyle) (query : List (String × List String)) :
    readPairs (style.render query) =
      (style.pairs query).map fun pair => (String.ofList pair.1, String.ofList pair.2) := by
  rw [readPairs, render, String.toList_ofList]
  generalize style.pairs query = pairs
  cases pairs with
  | nil => rfl
  | cons first rest =>
    have some : (first :: rest).map pairChars ≠ [] := by simp
    have absent : ∀ piece ∈ (first :: rest).map pairChars, '&' ∉ piece :=
      List.forall_mem_map.2 fun pair _ => not_mem_pairChars pair
    have whole : ((first :: rest).map pairChars).filter (· ≠ []) = (first :: rest).map pairChars :=
      List.filter_eq_self.2 (List.forall_mem_map.2 fun pair _ => by simpa using pairChars_ne_nil pair)
    rw [Text.pieces_intercalate some absent, whole, List.map_map]
    exact List.map_congr_left fun pair _ => readPair_pairChars pair

/-- A character of queries in text. -/
def IsQueryChar (c : Char) : Prop :=
  c.isAlphanum = true ∨ c ∈ ['*', '-', '.', '_', '+', '%', '&', '=']

theorem isQueryChar_of_isFormChar {c : Char} (h : Text.IsFormChar c) : IsQueryChar c := by
  refine h.imp id fun mem => ?_
  simp only [List.mem_cons] at mem ⊢
  tauto

theorem isQueryChar_of_mem_pairChars {pair : List Char × List Char} {c : Char} (h : c ∈ pairChars pair) :
    IsQueryChar c := by
  rcases List.mem_append.1 h with mem | mem
  · exact isQueryChar_of_isFormChar (Text.isFormChar_of_mem_formEncode mem)
  · rcases List.mem_cons.1 mem with rfl | mem
    · exact .inr (by decide)
    · exact isQueryChar_of_isFormChar (Text.isFormChar_of_mem_formEncode mem)

/-- A rendered query holds query characters only. -/
theorem isQueryChar_of_mem_render {style : QueryStyle} {query : List (String × List String)} {c : Char}
    (h : c ∈ (style.render query).toList) : IsQueryChar c := by
  rw [render, String.toList_ofList] at h
  rcases Text.mem_intercalate h with rfl | ⟨piece, mem, inside⟩
  · exact .inr (by decide)
  · obtain ⟨pair, _, rfl⟩ := List.mem_map.1 mem
    exact isQueryChar_of_mem_pairChars inside

/-! ### Names and their values -/

/-- The name of a parameter with these values has brackets after it. -/
def Brackets (style : QueryStyle) (values : List String) : Prop :=
  style = .always ∨ style = .ifSeveral ∧ 1 < values.length

instance (style : QueryStyle) (values : List String) : Decidable (style.Brackets values) :=
  inferInstanceAs (Decidable (_ ∨ _))

/-- The name with brackets after it. -/
def bracketed (name : String) : String :=
  name ++ "[]"

/-- The name without the brackets that may stand after it. -/
def unbracketed (name : String) : String :=
  if ['[', ']'].isSuffixOf name.toList then String.ofList (name.toList.take (name.toList.length - 2))
  else name

/-- Every value of a query under its name, in the order of the names and, for each, of its values. -/
def named (style : QueryStyle) (query : List (String × List String)) : List (String × String) :=
  query.flatMap fun e =>
    e.2.map fun value => (if style.Brackets e.2 then bracketed e.1 else e.1, value)

/-- Puts a value behind those that its name has. -/
def addValue (groups : List (String × List String)) (pair : String × String) :
    List (String × List String) :=
  Dict.insert pair.1 ((Dict.get? pair.1 groups).getD [] ++ [pair.2]) groups

/-- The values of every name. -/
def grouped (pairs : List (String × String)) : List (String × List String) :=
  pairs.foldl addValue []

/-- Brackets behind a name can be taken away again. -/
theorem unbracketed_bracketed (name : String) : unbracketed (bracketed name) = name := by
  have chars : (bracketed name).toList = name.toList ++ ['[', ']'] := String.toList_append
  have brackets : ['[', ']'].isSuffixOf (bracketed name).toList = true := by
    rw [chars]
    exact List.isSuffixOf_iff_suffix.2 (List.suffix_append _ _)
  rw [unbracketed, if_pos brackets, chars]
  simp

/-- A name gets brackets where the style asks for them, and else stays as it is. -/
theorem ofList_key (style : QueryStyle) (name : String) (values : List String) :
    String.ofList (style.key name values.length) =
      if style.Brackets values then bracketed name else name := by
  have same : style.hasBrackets values.length = true ↔ style.Brackets values := by
    cases style <;> simp [hasBrackets, Brackets]
  rw [key]
  simp only [same]
  split
  · rw [String.ofList_append, String.ofList_toList]
    rfl
  · exact String.ofList_toList

/-- What has been written is read as the names and values of the query. -/
theorem readPairs_eq_named (style : QueryStyle) (query : List (String × List String)) :
    readPairs (style.render query) = style.named query := by
  rw [readPairs_render, pairs, named, List.map_flatMap]
  congr
  funext ⟨name, values⟩
  rw [List.map_map]
  refine List.map_congr_left fun value _ => Prod.ext (ofList_key style name values) ?_
  exact String.ofList_toList

/-- Without brackets every value stands under its name. -/
theorem named_never (query : List (String × List String)) :
    named .never query = query.flatMap fun e => e.2.map fun value => (e.1, value) := by
  simp [named, Brackets]

/-- Brackets behind all names can be taken away again. -/
theorem unbracketed_named_always (query : List (String × List String)) :
    (named .always query).map (fun pair => (unbracketed pair.1, pair.2)) = named .never query := by
  rw [named_never, named, List.map_flatMap]
  simp [Brackets, Function.comp_def, unbracketed_bracketed]

/-- Values of one name stand together behind those that it has. -/
theorem foldl_addValue_insert (name : String) (known values : List String)
    (groups : List (String × List String)) :
    (values.map (name, ·)).foldl addValue (Dict.insert name known groups) =
      Dict.insert name (known ++ values) groups := by
  induction values generalizing known with
  | nil => rw [List.append_nil]; rfl
  | cons value rest ih =>
    rw [List.map_cons, List.foldl_cons, addValue, Dict.get?_insert_self, Option.getD_some,
      Dict.insert_insert, ih, List.append_assoc]
    rfl

/-- Values of a new name make a new group, in their order. -/
theorem foldl_addValue_new {name : String} {groups : List (String × List String)}
    (new : Dict.get? name groups = none) {values : List String} (some : values ≠ []) :
    (values.map (name, ·)).foldl addValue groups = Dict.insert name values groups := by
  cases values with
  | nil => exact absurd rfl some
  | cons value rest =>
    rw [List.map_cons, List.foldl_cons, addValue, new, Option.getD_none, List.nil_append,
      foldl_addValue_insert]
    rfl

/-- Each name that has values is put in with them. The induction is on the query: none of its names is among
the groups that have been made. -/
theorem foldl_addValue_named {query groups : List (String × List String)} (ordered : Dict.Ordered query)
    (new : ∀ e ∈ query, Dict.get? e.1 groups = none) :
    (named .never query).foldl addValue groups =
      Dict.insertAll groups (query.filter (·.2 ≠ [])) := by
  induction query generalizing groups with
  | nil => rfl
  | cons e rest ih =>
    obtain ⟨above, tail⟩ := Dict.ordered_cons.1 ordered
    obtain ⟨here, others⟩ := List.forall_mem_cons.1 new
    rw [named_never, List.flatMap_cons, ← named_never, List.foldl_append]
    by_cases none : e.2 = []
    · rw [none, List.filter_cons_of_neg (by simp [none])]
      exact ih tail others
    · rw [foldl_addValue_new here none, List.filter_cons_of_pos (by simp [none])]
      refine ih tail fun a ha => ?_
      rw [Dict.get?_insert_of_ne (Std.ne_of_lt (above a ha)).symm]
      exact others a ha

/-- Pairs are grouped into the parameters that they come from, those without values left out. -/
theorem grouped_named {query : List (String × List String)} (ordered : Dict.Ordered query) :
    grouped (named .never query) = query.filter (·.2 ≠ []) := by
  have kept : Dict.Ordered (query.filter (·.2 ≠ [])) := ordered.filter _
  exact (foldl_addValue_named ordered fun _ _ => rfl).trans (Dict.ofList_of_ordered kept)

/-- What a style writes is read as every value under its name, with the brackets that the style asks for, in
the order of the query; and only few characters occur in it. Gathered by their names, the values that have been
written without brackets, or with brackets that are taken away again, make the query, but for names that have no
values. -/
theorem render_reads_back {query : List (String × List String)} (ordered : Dict.Ordered query) :
    (∀ style : QueryStyle,
      readPairs (style.render query) =
        (query.flatMap fun e => e.2.map fun value =>
          (if style = .always ∨ style = .ifSeveral ∧ 1 < e.2.length then e.1 ++ "[]" else e.1, value)) ∧
      ∀ c ∈ (style.render query).toList,
        c.isAlphanum = true ∨ c ∈ ['*', '-', '.', '_', '+', '%', '&', '=']) ∧
    grouped (readPairs (QueryStyle.never.render query)) = query.filter (·.2 ≠ []) ∧
    grouped ((readPairs (QueryStyle.always.render query)).map fun pair => (unbracketed pair.1, pair.2)) =
      query.filter (·.2 ≠ []) := by
  refine ⟨fun style => ⟨readPairs_eq_named style query, fun c mem => isQueryChar_of_mem_render mem⟩, ?_, ?_⟩
  · rw [readPairs_eq_named, grouped_named ordered]
  · rw [readPairs_eq_named, unbracketed_named_always, grouped_named ordered]

/-- Separators, brackets and marks of the encoding in names and values, and a name without values. -/
def oddQuery : List (String × List String) :=
  [("", [""]), ("a&b=", ["1+1=2", "50% &c"]), ("ids", []), ("x[]", ["[]"]), ("é", ["日本", "%41"])]

theorem render_reads_back_odd_query :
    Dict.Ordered oddQuery ∧
      QueryStyle.ifSeveral.render oddQuery =
        "=&a%26b%3D%5B%5D=1%2B1%3D2&a%26b%3D%5B%5D=50%25+%26c&x%5B%5D=%5B%5D&" ++
          "%C3%A9%5B%5D=%E6%97%A5%E6%9C%AC&%C3%A9%5B%5D=%2541" ∧
      readPairs (QueryStyle.ifSeveral.render oddQuery) =
        [("", ""), ("a&b=[]", "1+1=2"), ("a&b=[]", "50% &c"), ("x[]", "[]"), ("é[]", "日本"), ("é[]", "%41")] ∧
      grouped ((readPairs (QueryStyle.always.render oddQuery)).map fun pair => (unbracketed pair.1, pair.2)) =
        [("", [""]), ("a&b=", ["1+1=2", "50% &c"]), ("x[]", ["[]"]), ("é", ["日本", "%41"])] := by
  have ordered : Dict.Ordered oddQuery := by
    unfold Dict.Ordered
    decide
  obtain ⟨read, -, gathered⟩ := render_reads_back ordered
  refine ⟨ordered, by decide, (read .ifSeveral).1, gathered⟩

end QueryStyle

end ConsumerContract
