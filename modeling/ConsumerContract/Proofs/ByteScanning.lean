import ConsumerContract.Proofs.ByteNumbers
import ConsumerContract.Proofs.Scanning

/-!
# Scanning bytes

`Token.Cuts e cs ts` says that `cs` is cut into the tokens `ts`, each of which can be read; a scan does just
that (`scanFrom_of_cuts`, `cuts_of_scanFrom`). If characters are cut into tokens, so are their bytes
(`Cuts.inBytes`). If bytes are cut into tokens, they are those of characters (`Cuts.exists_inBytes`): outside
of strings all of them are ASCII, and the content of a string was looked at as a whole.
-/

namespace ConsumerContract.Json.Token

/-! ### Words and escapes -/

/-- A word is read exactly where it stands. -/
theorem readWord_eq_ok_iff {expected cs rest : List Char} :
    readWord expected cs = .ok rest ↔ cs = expected ++ rest := by
  induction expected generalizing cs with
  | nil => simp [readWord, eq_comm]
  | cons e more ih =>
    cases cs with
    | nil => simp [readWord]
    | cons c cs =>
      by_cases same : c = e
      · simp [readWord, same, ih]
      · simp [readWord, same]

theorem isAscii_of_hexValue? {c : Char} {n : Nat} (h : hexValue? c = some n) : IsAscii c := by
  unfold IsAscii
  unfold hexValue? at h
  simp only [Char.le_def, UInt32.le_iff_toNat_le] at h
  split at h
  next digit => exact Nat.lt_of_le_of_lt digit.2 (by decide)
  split at h
  next small => exact Nat.lt_of_le_of_lt small.2 (by decide)
  split at h
  next great => exact Nat.lt_of_le_of_lt great.2 (by decide)
  next => cases h

theorem isAscii_of_shortEscape? {c d : Char} (h : shortEscape? c = some d) : IsAscii c := by
  unfold shortEscape? at h
  split at h <;> first | decide | cases h

/-- What was read is ASCII, and it is read alike wherever it stands. -/
def StandsAlone {α : Type} (read : Encoding → List Char → Except Failure (α × List Char)) : Prop :=
  ∀ e cs a rest, read e cs = .ok (a, rest) → ∃ front, (∀ c ∈ front, IsAscii c) ∧ cs = front ++ rest ∧
    ∀ e' rest', read e' (front ++ rest') = .ok (a, rest')

theorem readHex_standsAlone : StandsAlone readHex := by
  intro e cs n rest h
  unfold readHex at h
  split at h
  next a b c d tail =>
    split at h
    next _ _ _ _ va vb vc vd ha hb hc hd =>
      cases h
      refine ⟨[a, b, c, d], ?_, rfl, ?_⟩
      · simp only [List.forall_mem_cons, List.not_mem_nil, false_implies, implies_true, and_true]
        exact ⟨isAscii_of_hexValue? ha, isAscii_of_hexValue? hb, isAscii_of_hexValue? hc,
          isAscii_of_hexValue? hd⟩
      · intro e' rest'
        simp [readHex, ha, hb, hc, hd]
    next => cases h
  next => split at h <;> cases h

/-- The escape of a code point, one half or two, is read alike wherever it stands. -/
theorem readUnicode_standsAlone : StandsAlone readUnicode := by
  intro e cs c rest h
  unfold readUnicode at h
  split at h
  next => cases h
  next unit tail first =>
    obtain ⟨front, ascii, rfl, alone⟩ := readHex_standsAlone _ _ _ _ first
    split at h
    next => cases h
    next noTrailing =>
      split at h
      next single =>
        cases h
        refine ⟨front, ascii, rfl, ?_⟩
        intro e' rest'
        simp [readUnicode, alone, noTrailing, single]
      next pair =>
        split at h
        next => cases h
        next => cases h
        next more =>
          split at h
          next => cases h
          next unit' tail' second =>
            obtain ⟨front', ascii', rfl, alone'⟩ := readHex_standsAlone _ _ _ _ second
            split at h
            next trailing =>
              obtain ⟨rfl, rfl⟩ := Prod.mk.inj (Except.ok.inj h)
              have backslash : IsAscii '\\' := by decide
              have u : IsAscii 'u' := by decide
              refine ⟨front ++ '\\' :: 'u' :: front', ?_, by simp, ?_⟩
              · exact List.forall_mem_append.2
                  ⟨ascii, List.forall_mem_cons.2 ⟨backslash, List.forall_mem_cons.2 ⟨u, ascii'⟩⟩⟩
              · intro e' rest'
                rw [List.append_assoc, List.cons_append, List.cons_append, readUnicode, alone]
                simp only [alone', if_neg noTrailing, if_neg pair, if_pos trailing]
            next => cases h
        next => cases h

/-- An escape is read alike wherever it stands. -/
theorem readEscape_standsAlone : StandsAlone readEscape := by
  intro e cs c rest h
  unfold readEscape at h
  split at h
  next => cases h
  next d tail =>
    split at h
    next read short =>
      cases h
      refine ⟨[d], List.forall_mem_singleton.2 (isAscii_of_shortEscape? short), rfl, ?_⟩
      intro e' rest'
      simp [readEscape, short]
    next short =>
      split at h
      next code =>
        subst code
        obtain ⟨front, ascii, rfl, alone⟩ := readUnicode_standsAlone _ _ _ _ h
        refine ⟨'u' :: front, List.forall_mem_cons.2 ⟨by decide, ascii⟩, rfl, ?_⟩
        intro e' rest'
        simp [readEscape, short, alone]
      next => cases h

/-! ### Strings -/

/-- After an opening quote, `cs` has what stands for the content `s`, a closing quote, and `rest`. -/
inductive Quoted (e : Encoding) : (cs s rest : List Char) → Prop where
  | close (rest : List Char) : Quoted e ('"' :: rest) [] rest
  | escape {cs tail s rest : List Char} {c : Char} :
    readEscape e cs = .ok (c, tail) → Quoted e tail s rest → Quoted e ('\\' :: cs) (e.write c ++ s) rest
  | plain {cs s rest : List Char} {c : Char} :
    c ≠ '"' → c ≠ '\\' → ¬ c.toNat < 0x20 → Quoted e cs s rest → Quoted e (c :: cs) (c :: s) rest

/-- What was read as a string stands in the text, up to its closing quote. -/
theorem quoted_of_readString {e : Encoding} {fuel : Nat} {cs s rest : List Char}
    (h : readString e fuel cs = .ok (s, rest)) : Quoted e cs s rest := by
  induction fuel generalizing cs s rest with
  | zero => cases h
  | succ fuel ih =>
    cases cs with
    | nil => cases h
    | cons c cs =>
      rw [readString] at h
      split at h
      next closes =>
        subst closes
        cases h
        exact .close _
      next quote =>
      split at h
      next escapes =>
        subst escapes
        split at h
        next => cases h
        next read tail escape =>
          obtain ⟨⟨content, left⟩, later, same⟩ := map_eq_ok_iff.1 h
          cases same
          exact .escape escape (ih later)
      next backslash =>
      split at h
      next => cases h
      next control =>
        obtain ⟨⟨content, left⟩, later, same⟩ := map_eq_ok_iff.1 h
        cases same
        exact .plain quote backslash control (ih later)

namespace Quoted

/-- The closing quote is behind what it closes. -/
theorem length_lt {e : Encoding} {cs s rest : List Char} (h : Quoted e cs s rest) :
    rest.length < cs.length := by
  induction h with
  | close rest => exact Nat.lt_succ_self _
  | escape read _ ih =>
    obtain ⟨front, -, rfl, -⟩ := readEscape_standsAlone _ _ _ _ read
    rw [List.length_cons, List.length_append]
    omega
  | plain _ _ _ _ ih => exact Nat.lt_succ_of_lt ih

/-- What stands in quotes is read as a string, given enough fuel. -/
theorem readString {e : Encoding} {cs s rest : List Char} (h : Quoted e cs s rest) {fuel : Nat}
    (enough : cs.length < fuel) : readString e fuel cs = .ok (s, rest) := by
  obtain ⟨fuel, rfl⟩ : ∃ n, fuel = n + 1 := ⟨fuel - 1, by omega⟩
  induction h generalizing fuel with
  | close rest => rfl
  | @escape cs tail s rest c read _ ih =>
    obtain ⟨front, -, rfl, -⟩ := readEscape_standsAlone _ _ _ _ read
    rw [List.length_cons, List.length_append] at enough
    obtain ⟨fuel, rfl⟩ : ∃ n, fuel = n + 1 := ⟨fuel - 1, by omega⟩
    rw [Token.readString, if_neg (by decide), if_pos rfl, read]
    simp only [ih fuel (by omega)]
    rfl
  | @plain cs s rest c quote backslash control _ ih =>
    rw [List.length_cons] at enough
    obtain ⟨fuel, rfl⟩ : ∃ n, fuel = n + 1 := ⟨fuel - 1, by omega⟩
    rw [Token.readString, if_neg quote, if_neg backslash, if_neg control, ih fuel (by omega)]
    rfl

/-- The content of bytes is bytes, and so is what is left. -/
theorem isByte {cs s rest : List Char} (h : Quoted .utf8 cs s rest) (bytes : ∀ c ∈ cs, IsByte c) :
    (∀ c ∈ s, IsByte c) ∧ ∀ c ∈ rest, IsByte c := by
  induction h with
  | close rest => exact ⟨List.forall_mem_nil _, (List.forall_mem_cons.1 bytes).2⟩
  | @escape cs tail s rest c read _ ih =>
    obtain ⟨front, -, rfl, -⟩ := readEscape_standsAlone _ _ _ _ read
    obtain ⟨content, left⟩ := ih (List.forall_mem_append.1 (List.forall_mem_cons.1 bytes).2).2
    have written : ∀ d ∈ Encoding.utf8.write c, IsByte d :=
      List.forall_mem_map.2 fun b _ => Encoding.isByte_ofByte b
    exact ⟨List.forall_mem_append.2 ⟨written, content⟩, left⟩
  | plain _ _ _ _ ih =>
    obtain ⟨first, others⟩ := List.forall_mem_cons.1 bytes
    obtain ⟨content, left⟩ := ih others
    exact ⟨List.forall_mem_cons.2 ⟨first, content⟩, left⟩

/-- Characters that are not ASCII stand for themselves. -/
theorem append {e : Encoding} {front cs s rest : List Char} (other : ∀ c ∈ front, ¬ IsAscii c)
    (h : Quoted e cs s rest) : Quoted e (front ++ cs) (front ++ s) rest := by
  induction front with
  | nil => exact h
  | cons c front ih =>
    obtain ⟨first, others⟩ := List.forall_mem_cons.1 other
    have control : ¬ c.toNat < 0x20 := fun small => first (Nat.lt_trans small (by decide))
    exact .plain (ne_of_not_isAscii first (by decide)) (ne_of_not_isAscii first (by decide)) control
      (ih others)

/-- The bytes of a string are a string of the bytes. -/
theorem inBytes {cs s rest : List Char} (h : Quoted .text cs s rest) :
    Quoted .utf8 (inBytes cs) (inBytes s) (inBytes rest) := by
  induction h with
  | close rest =>
    rw [inBytes_cons_of_isAscii (by decide)]
    exact .close _
  | @escape cs tail s rest c read _ ih =>
    obtain ⟨front, ascii, rfl, alone⟩ := readEscape_standsAlone _ _ _ _ read
    rw [inBytes_cons_of_isAscii (by decide), inBytes_append_of_isAscii ascii, inBytes_append]
    have content : Json.inBytes (Encoding.text.write c) = Encoding.utf8.write c := by
      rw [Encoding.write, inBytes_cons, inBytes_nil, List.append_nil]
    rw [content]
    exact .escape (alone .utf8 _) ih
  | @plain cs s rest c quote backslash control _ ih =>
    by_cases ascii : IsAscii c
    · rw [inBytes_cons_of_isAscii ascii, inBytes_cons_of_isAscii ascii]
      exact .plain quote backslash control ih
    · rw [inBytes_cons, inBytes_cons]
      exact ih.append (Encoding.not_isAscii_of_mem_write ascii)

/-- Continuation bytes in a content stand for themselves: no escape is read as one. -/
theorem exists_of_continues {front cs s rest : List Char} (later : ∀ c ∈ front, Continues c)
    (h : Quoted .utf8 cs (front ++ s) rest) : ∃ ds, cs = front ++ ds ∧ Quoted .utf8 ds s rest := by
  induction front generalizing cs with
  | nil => exact ⟨cs, rfl, h⟩
  | cons c front ih =>
    obtain ⟨first, others⟩ := List.forall_mem_cons.1 later
    generalize content : c :: front ++ s = u at h
    cases h with
    | close => cases content
    | escape read inside => exact absurd content.symm (Encoding.write_append_ne first)
    | plain quote backslash control inside =>
      obtain ⟨rfl, rfl⟩ := List.cons.inj content
      obtain ⟨ds, rfl, after⟩ := ih others inside
      exact ⟨ds, rfl, after⟩

/-- A string in bytes whose content is that of characters is one of characters. The induction is on these
characters, as each of them stands for several bytes. -/
theorem exists_inBytes {cs s rest : List Char} (h : Quoted .utf8 cs (Json.inBytes s) (Json.inBytes rest)) :
    ∃ ds, cs = Json.inBytes ds ∧ Quoted .text ds s rest := by
  induction s generalizing cs with
  | nil =>
    generalize content : Json.inBytes [] = u at h
    cases h with
    | close =>
      exact ⟨'"' :: rest, (inBytes_cons_of_isAscii (by decide) rest).symm, .close rest⟩
    | escape read inside => exact absurd content.symm (Encoding.write_append_ne_nil)
    | plain quote backslash control inside => cases content
  | cons c s ih =>
    generalize content : Json.inBytes (c :: s) = u at h
    rw [inBytes_cons] at content
    cases h with
    | close => exact absurd content Encoding.write_append_ne_nil
    | escape read inside =>
      obtain ⟨rfl, rfl⟩ := Encoding.write_append_inj content
      obtain ⟨ds, rfl, quoted⟩ := ih inside
      obtain ⟨front, ascii, rfl, alone⟩ := readEscape_standsAlone _ _ _ _ read
      refine ⟨'\\' :: (front ++ ds), ?_, .escape (alone .text ds) quoted⟩
      rw [inBytes_cons_of_isAscii (by decide), inBytes_append_of_isAscii ascii]
    | plain quote backslash control inside =>
      by_cases ascii : IsAscii c
      · rw [Encoding.write_of_isAscii ascii] at content
        obtain ⟨rfl, rfl⟩ := List.cons.inj content
        obtain ⟨ds, rfl, quoted⟩ := ih inside
        exact ⟨c :: ds, (inBytes_cons_of_isAscii ascii ds).symm, .plain quote backslash control quoted⟩
      · obtain ⟨b, bs, shape, -, later⟩ := Encoding.write_of_not_isAscii ascii
        rw [shape] at content
        obtain ⟨rfl, rfl⟩ := List.cons.inj content
        obtain ⟨es, rfl, after⟩ := inside.exists_of_continues later
        obtain ⟨ds, rfl, quoted⟩ := ih after
        refine ⟨c :: ds, ?_, quoted.append (List.forall_mem_singleton.2 ascii)⟩
        rw [inBytes_cons, shape]
        rfl

end Quoted

/-! ### Tokens -/

/-- The token can be read. -/
def IsRead : Token → Prop
  | .badScalar .. | .badString .. | .stray => False
  | _ => True

/-- The character is a token of its own. -/
inductive Mark : Char → Token → Prop where
  | openArray : Mark '[' .openArray
  | closeArray : Mark ']' .closeArray
  | openObject : Mark '\x7b' .openObject
  | closeObject : Mark '\x7d' .closeObject
  | comma : Mark ',' .comma
  | colon : Mark ':' .colon

/-- The word is a token. -/
inductive Word : List Char → Token → Prop where
  | null : Word ['n', 'u', 'l', 'l'] .null
  | truth : Word ['t', 'r', 'u', 'e'] (.bool true)
  | falsity : Word ['f', 'a', 'l', 's', 'e'] (.bool false)

/-- The text begins with the token `t`, which can be read, and goes on with `rest`. -/
inductive Takes (e : Encoding) : (cs : List Char) → (t : Token) → (rest : List Char) → Prop where
  | mark {c : Char} {t : Token} {rest : List Char} : Mark c t → Takes e (c :: rest) t rest
  | word {w rest : List Char} {t : Token} : Word w t → Takes e (w ++ rest) t rest
  | string {cs s rest : List Char} {text : String} :
    Quoted e cs s rest → e.string? s = some text → Takes e ('"' :: cs) (.string text) rest
  | number {c : Char} {cs rest : List Char} {n : Number} :
    c = '-' ∨ c.isDigit = true → Number.read (c :: cs) = .ok (n, rest) →
      Takes e (c :: cs) (.number n) rest

theorem isAscii_of_isGap {c : Char} (h : isGap c = true) : IsAscii c := by
  unfold isGap at h
  simp only [Bool.or_eq_true, beq_iff_eq] at h
  rcases h with ((rfl | rfl) | rfl) | rfl <;> decide

theorem Mark.isAscii {c : Char} {t : Token} (h : Mark c t) : IsAscii c := by
  cases h <;> decide

theorem Word.isAscii {w : List Char} {t : Token} (h : Word w t) : ∀ c ∈ w, IsAscii c := by
  have all : w.all (fun c => decide (IsAscii c)) = true := by cases h <;> decide
  simpa using all

theorem Word.length_pos {w : List Char} {t : Token} (h : Word w t) : 0 < w.length := by
  cases h <;> decide

theorem isAscii_of_starts {c : Char} (h : c = '-' ∨ c.isDigit = true) : IsAscii c := by
  rcases h with rfl | digit
  · decide
  · exact isAscii_of_isDigit digit

theorem scanFrom_mark {e : Encoding} {c : Char} {t : Token} (h : Mark c t) (fuel : Nat)
    (cs : List Char) : scanFrom e (fuel + 1) (c :: cs) = t :: scanFrom e fuel cs := by
  cases h <;> rfl

theorem scanFrom_word {e : Encoding} {w : List Char} {t : Token} (h : Word w t) (fuel : Nat)
    (cs : List Char) : scanFrom e (fuel + 1) (w ++ cs) = t :: scanFrom e fuel cs := by
  cases h <;> rfl

/-- Where a word is begun and not finished, the scan ends in a token that cannot be read. -/
theorem scanFrom_word_error {e : Encoding} {c : Char} {w cs : List Char} {t : Token} {f : Failure}
    (h : Word (c :: w) t) (fails : readWord w cs = .error f) (fuel : Nat) :
    scanFrom e (fuel + 1) (c :: cs) = [.badScalar f (some f)] := by
  cases h <;> simp [scanFrom, isGap, fails]

/-- A quote opens a string, up to its closing quote. -/
theorem scanFrom_quote (e : Encoding) (fuel : Nat) (cs : List Char) :
    scanFrom e (fuel + 1) ('"' :: cs) =
      match readString e (cs.length + 1) cs with
      | .ok (s, rest) =>
        match e.string? s with
        | some text => .string text :: scanFrom e fuel rest
        | none => .badString .malformed none :: scanFrom e fuel rest
      | .error cause => failed .badString cause (skipString e (cs.length + 1) cs) (scanFrom e fuel) :=
  rfl

theorem failed_eq_cons (bad : Failure → Option Failure → Token) (cause : Failure)
    (passed : Except Failure (List Char)) (scan : List Char → List Token) :
    ∃ p ts, failed bad cause passed scan = bad cause p :: ts := by
  cases passed with
  | error f => exact ⟨some f, [], rfl⟩
  | ok rest => exact ⟨none, scan rest, rfl⟩

namespace Takes

theorem length_lt {e : Encoding} {cs rest : List Char} {t : Token} (h : Takes e cs t rest) :
    rest.length < cs.length := by
  cases h with
  | mark => exact Nat.lt_succ_self _
  | word word =>
    have positive := word.length_pos
    rw [List.length_append]
    omega
  | string quoted => exact Nat.lt_succ_of_lt quoted.length_lt
  | number _ read => exact Nat.lt_succ_of_le (Number.length_read read)

/-- A scan takes the token and goes on with the rest. -/
theorem scanFrom {e : Encoding} {cs rest : List Char} {t : Token} (h : Takes e cs t rest) (fuel : Nat) :
    scanFrom e (fuel + 1) cs = t :: scanFrom e fuel rest := by
  cases h with
  | mark mark => exact scanFrom_mark mark fuel rest
  | word word => exact scanFrom_word word fuel rest
  | string quoted whole => exact Scans.quote fuel (quoted.readString (Nat.lt_succ_self _)) whole
  | number starts read => rw [scanFrom_number starts, read]

/-- If characters begin with a token, so do their bytes. -/
theorem inBytes {cs rest : List Char} {t : Token} (h : Takes .text cs t rest) :
    Takes .utf8 (inBytes cs) t (inBytes rest) := by
  cases h with
  | mark mark =>
    rw [inBytes_cons_of_isAscii mark.isAscii]
    exact .mark mark
  | word word =>
    rw [inBytes_append_of_isAscii word.isAscii]
    exact .word word
  | @string cs s rest text quoted whole =>
    obtain rfl : String.ofList s = text := Option.some.inj whole
    rw [inBytes_cons_of_isAscii (by decide)]
    exact .string quoted.inBytes (Encoding.string?_inBytes s)
  | number starts read =>
    have taken := Number.read_inBytes read
    rw [inBytes_cons_of_isAscii (isAscii_of_starts starts)] at taken ⊢
    exact .number starts taken

/-- What a token leaves of a text of bytes is a text of bytes. -/
theorem isByte {cs rest : List Char} {t : Token} (h : Takes .utf8 cs t rest)
    (bytes : ∀ c ∈ cs, IsByte c) : ∀ c ∈ rest, IsByte c := by
  cases h with
  | mark => exact (List.forall_mem_cons.1 bytes).2
  | word => exact (List.forall_mem_append.1 bytes).2
  | string quoted => exact (quoted.isByte (List.forall_mem_cons.1 bytes).2).2
  | number _ read => exact Number.isByte_of_read read bytes

/-- If bytes begin with a token and go on with those of characters, all of them are those of characters
that begin with the token. -/
theorem exists_inBytes {xs rest : List Char} {t : Token} (h : Takes .utf8 xs t (Json.inBytes rest))
    (bytes : ∀ c ∈ xs, IsByte c) : ∃ cs, xs = Json.inBytes cs ∧ Takes .text cs t rest := by
  generalize left : Json.inBytes rest = tail at h
  cases h with
  | mark mark =>
    subst left
    exact ⟨_, (inBytes_cons_of_isAscii mark.isAscii rest).symm, .mark mark⟩
  | word word =>
    subst left
    exact ⟨_, (inBytes_append_of_isAscii word.isAscii rest).symm, .word word⟩
  | string quoted whole =>
    subst left
    obtain ⟨content, -⟩ := quoted.isByte (List.forall_mem_cons.1 bytes).2
    obtain rfl := Encoding.eq_inBytes_of_string? content whole
    obtain ⟨cs, rfl, inside⟩ := quoted.exists_inBytes
    refine ⟨'"' :: cs, (inBytes_cons_of_isAscii (by decide) cs).symm, .string inside ?_⟩
    exact congrArg some String.ofList_toList
  | @number c xs _ n starts read =>
    subst left
    have first := List.forall_mem_singleton.2 (isAscii_of_starts starts)
    obtain ⟨cs, same, taken⟩ := Number.exists_of_read_inBytes read
    obtain ⟨ds, rfl, rfl⟩ := exists_of_append_eq_inBytes first same
    exact ⟨c :: ds, same, .number starts taken⟩

end Takes

/-- The text is cut into the tokens `ts`, all of which can be read. -/
inductive Cuts (e : Encoding) : (cs : List Char) → (ts : List Token) → Prop where
  | done : Cuts e [] []
  | gap {c : Char} {cs : List Char} {ts : List Token} :
    isGap c = true → Cuts e cs ts → Cuts e (c :: cs) ts
  | token {cs rest : List Char} {t : Token} {ts : List Token} :
    Takes e cs t rest → Cuts e rest ts → Cuts e cs (t :: ts)

/-- A scan passes over a blank, takes a token, or finds one that cannot be read. -/
theorem scanFrom_cons_cases (e : Encoding) (fuel : Nat) (c : Char) (cs : List Char) :
    (isGap c = true ∧ scanFrom e (fuel + 1) (c :: cs) = scanFrom e fuel cs) ∨
      (∃ t rest, Takes e (c :: cs) t rest ∧
        scanFrom e (fuel + 1) (c :: cs) = t :: scanFrom e fuel rest) ∨
      ∃ t ts, ¬ t.IsRead ∧ scanFrom e (fuel + 1) (c :: cs) = t :: ts := by
  have took {t : Token} {rest : List Char} (h : Takes e (c :: cs) t rest) :
      ∃ t rest, Takes e (c :: cs) t rest ∧
        scanFrom e (fuel + 1) (c :: cs) = t :: scanFrom e fuel rest :=
    ⟨t, rest, h, h.scanFrom fuel⟩
  by_cases gap : isGap c = true
  · exact .inl ⟨gap, by rw [scanFrom, if_pos gap]⟩
  right
  by_cases marked : ∃ t, Mark c t
  · obtain ⟨t, mark⟩ := marked
    exact .inl (took (.mark mark))
  by_cases worded : ∃ w t, Word (c :: w) t
  · obtain ⟨w, t, word⟩ := worded
    cases taken : readWord w cs with
    | ok rest =>
      obtain rfl := readWord_eq_ok_iff.1 taken
      exact .inl (took (.word word))
    | error f => exact .inr ⟨.badScalar f (some f), [], id, scanFrom_word_error word taken fuel⟩
  by_cases quote : c = '"'
  · subst quote
    have step := scanFrom_quote e fuel cs
    cases taken : readString e (cs.length + 1) cs with
    | ok read =>
      cases whole : e.string? read.1 with
      | some text => exact .inl (took (.string (quoted_of_readString taken) whole))
      | none =>
        simp only [taken, whole] at step
        exact .inr ⟨_, _, id, step⟩
    | error cause =>
      rw [taken] at step
      obtain ⟨p, ts, shape⟩ := failed_eq_cons .badString cause (skipString e (cs.length + 1) cs)
        (scanFrom e fuel)
      exact .inr ⟨_, ts, id, step.trans shape⟩
  by_cases starts : c = '-' ∨ c.isDigit = true
  · have step := scanFrom_number starts (e := e) fuel cs
    cases taken : Number.read (c :: cs) with
    | ok read => exact .inl (took (.number starts taken))
    | error cause =>
      rw [taken] at step
      obtain ⟨p, ts, shape⟩ := failed_eq_cons .badScalar cause (Number.skip (c :: cs))
        (scanFrom e fuel)
      exact .inr ⟨_, ts, id, step.trans shape⟩
  · have mark {d : Char} {t : Token} (mark : Mark d t) : c ≠ d := fun same => marked ⟨t, same ▸ mark⟩
    have word {d : Char} {w : List Char} {t : Token} (word : Word (d :: w) t) : c ≠ d :=
      fun same => worded ⟨w, t, same ▸ word⟩
    have stray : scanFrom e (fuel + 1) (c :: cs) = [.stray] := by
      rw [scanFrom, if_neg gap, if_neg (mark .openArray), if_neg (mark .closeArray),
        if_neg (mark .openObject), if_neg (mark .closeObject), if_neg (mark .comma),
        if_neg (mark .colon), if_neg quote, if_neg (word .null), if_neg (word .truth),
        if_neg (word .falsity), if_neg (by simpa using starts)]
    exact .inr ⟨.stray, [], id, stray⟩

/-- A scan finds the tokens into which the text is cut. -/
theorem scanFrom_of_cuts {e : Encoding} {cs : List Char} {ts : List Token} (h : Cuts e cs ts) {fuel : Nat}
    (enough : cs.length ≤ fuel) : scanFrom e fuel cs = ts := by
  induction h generalizing fuel with
  | done => cases fuel <;> rfl
  | gap gap _ ih =>
    obtain ⟨fuel, rfl⟩ : ∃ n, fuel = n + 1 := ⟨fuel - 1, by simp at enough; omega⟩
    rw [scanFrom, if_pos gap]
    exact ih (Nat.le_of_succ_le_succ enough)
  | token takes _ ih =>
    have shorter := takes.length_lt
    obtain ⟨fuel, rfl⟩ : ∃ n, fuel = n + 1 := ⟨fuel - 1, by omega⟩
    rw [takes.scanFrom, ih (by omega)]

/-- If all tokens that a scan finds can be read, the text is cut into them. -/
theorem cuts_of_scanFrom {e : Encoding} {fuel : Nat} {cs : List Char}
    (read : ∀ t ∈ scanFrom e fuel cs, t.IsRead) (enough : cs.length ≤ fuel) :
    Cuts e cs (scanFrom e fuel cs) := by
  induction fuel generalizing cs with
  | zero =>
    obtain rfl : cs = [] := List.eq_nil_of_length_eq_zero (Nat.le_zero.1 enough)
    exact .done
  | succ fuel ih =>
    cases cs with
    | nil => exact .done
    | cons c cs =>
      have room : cs.length ≤ fuel := Nat.le_of_succ_le_succ enough
      rcases scanFrom_cons_cases e fuel c cs with
        ⟨gap, same⟩ | ⟨t, rest, takes, same⟩ | ⟨t, ts, unread, same⟩
      · rw [same] at read ⊢
        exact .gap gap (ih read room)
      · have shorter := takes.length_lt
        rw [List.length_cons] at shorter
        rw [same] at read ⊢
        exact .token takes (ih (List.forall_mem_cons.1 read).2 (by omega))
      · rw [same] at read
        exact absurd (List.forall_mem_cons.1 read).1 unread

namespace Cuts

/-- If characters are cut into tokens, so are their bytes. -/
theorem inBytes {cs : List Char} {ts : List Token} (h : Cuts .text cs ts) :
    Cuts .utf8 (inBytes cs) ts := by
  induction h with
  | done => exact .done
  | gap gap _ ih =>
    rw [inBytes_cons_of_isAscii (isAscii_of_isGap gap)]
    exact .gap gap ih
  | token takes _ ih => exact .token takes.inBytes ih

/-- If bytes are cut into tokens, they are those of characters that are cut into the same tokens. -/
theorem exists_inBytes {xs : List Char} {ts : List Token} (h : Cuts .utf8 xs ts)
    (bytes : ∀ c ∈ xs, IsByte c) : ∃ cs, xs = Json.inBytes cs ∧ Cuts .text cs ts := by
  induction h with
  | done => exact ⟨[], rfl, .done⟩
  | gap gap _ ih =>
    obtain ⟨cs, rfl, cuts⟩ := ih (List.forall_mem_cons.1 bytes).2
    exact ⟨_, (inBytes_cons_of_isAscii (isAscii_of_isGap gap) cs).symm, .gap gap cuts⟩
  | token takes _ ih =>
    obtain ⟨rest, rfl, cuts⟩ := ih (takes.isByte bytes)
    obtain ⟨cs, rfl, front⟩ := takes.exists_inBytes bytes
    exact ⟨cs, rfl, .token front cuts⟩

end Cuts

end ConsumerContract.Json.Token
