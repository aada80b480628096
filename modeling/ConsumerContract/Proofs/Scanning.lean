import ConsumerContract.Json.Printer
import ConsumerContract.Json.Token
import ConsumerContract.Proofs.JsonValues
import ConsumerContract.Proofs.Numerals

/-!
# The tokens of a written value

Both layouts of a value scan into the same tokens, `Json.tokens`: every escape is read as the character
that it stands for, and the text of each token ends where the next begins. `Token.Scans` says so for a
piece of text, and pieces are put together by `Token.Scans.append`.
-/

namespace ConsumerContract.Json

/-! ### Strings -/

namespace Token

theorem hexValue?_digitChar {d : Nat} (h : d < 16) : hexValue? (Nat.digitChar d) = some d := by
  have all : ∀ d < 16, hexValue? (Nat.digitChar d) = some d := by decide
  exact all d h

/-- A control character is read from its four digits. -/
theorem readUnicode_control {e : Encoding} {c : Char} (control : c.toNat < 0x20) (rest : List Char) :
    readUnicode e ('0' :: '0' :: Nat.digitChar (c.toNat / 16) :: Nat.digitChar (c.toNat % 16) :: rest) =
      .ok (c, rest) := by
  have zero : hexValue? '0' = some 0 := by decide
  have high : hexValue? (Nat.digitChar (c.toNat / 16)) = some (c.toNat / 16) :=
    hexValue?_digitChar (by omega)
  have low : hexValue? (Nat.digitChar (c.toNat % 16)) = some (c.toNat % 16) :=
    hexValue?_digitChar (by omega)
  have value : ((0 * 16 + 0) * 16 + c.toNat / 16) * 16 + c.toNat % 16 = c.toNat := by omega
  have noTrailing : isTrailing c.toNat = false := by
    unfold isTrailing
    simp
    omega
  have noLeading : isLeading c.toNat = false := by
    unfold isLeading
    simp
    omega
  rw [readUnicode, readHex]
  simp only [zero, high, low, value, noTrailing, noLeading, Char.ofNat_toNat]
  rfl

/-- A character stands in a string as a short escape, as its code or as itself. -/
theorem stringChar_cases (c : Char) :
    (∃ e, stringChar c = ['\\', e] ∧ shortEscape? e = some c) ∨
      (c.toNat < 0x20 ∧ stringChar c =
        ['\\', 'u', '0', '0', Nat.digitChar (c.toNat / 16), Nat.digitChar (c.toNat % 16)]) ∨
      (c ≠ '"' ∧ c ≠ '\\' ∧ ¬ c.toNat < 0x20 ∧ stringChar c = [c]) := by
  by_cases short : c ∈ ['"', '\\', '\x08', '\x0c', '\n', '\r', '\t']
  · left
    simp only [List.mem_cons, List.not_mem_nil, or_false] at short
    rcases short with rfl | rfl | rfl | rfl | rfl | rfl | rfl <;> exact ⟨_, rfl, rfl⟩
  · right
    simp only [List.mem_cons, List.not_mem_nil, or_false, not_or] at short
    obtain ⟨quote, backslash, back, form, line, carriage, tab⟩ := short
    by_cases control : c.toNat < 0x20
    · left
      refine ⟨control, ?_⟩
      simp [stringChar, quote, backslash, back, form, line, carriage, tab, control]
    · right
      refine ⟨quote, backslash, control, ?_⟩
      simp [stringChar, quote, backslash, back, form, line, carriage, tab, control]

/-- A character of a string is read from its escape, or from itself. -/
theorem readString_stringChar (fuel : Nat) (c : Char) (rest : List Char) :
    readString .text (fuel + 1) (stringChar c ++ rest) =
      (readString .text fuel rest).map fun (s, tail) => (c :: s, tail) := by
  have escaped {cs : List Char} (read : readEscape .text cs = .ok (c, rest)) :
      readString .text (fuel + 1) ('\\' :: cs) =
        (readString .text fuel rest).map fun (s, tail) => (c :: s, tail) := by
    rw [readString, if_neg (by decide), if_pos rfl, read]
    rfl
  rcases stringChar_cases c with ⟨e, shape, short⟩ | ⟨control, shape⟩ | ⟨quote, backslash, plain, shape⟩
  · rw [shape]
    have read : readEscape .text (e :: rest) = .ok (c, rest) := by
      rw [readEscape, short]
    exact escaped read
  · rw [shape]
    exact escaped (readUnicode_control control rest)
  · rw [shape, List.cons_append, List.nil_append, readString, if_neg quote, if_neg backslash,
      if_neg plain]

theorem length_stringChar_pos (c : Char) : 0 < (stringChar c).length := by
  rcases stringChar_cases c with ⟨_, shape, _⟩ | ⟨_, shape⟩ | ⟨_, _, _, shape⟩
  all_goals
    rw [shape]
    exact Nat.zero_lt_succ _

/-- A text is no longer than what stands for it between quotes. -/
theorem length_le_stringChars (s : List Char) : s.length ≤ (s.flatMap stringChar).length := by
  induction s with
  | nil => exact Nat.le_refl 0
  | cons c cs ih =>
    have positive := length_stringChar_pos c
    rw [List.flatMap_cons, List.length_append, List.length_cons]
    omega

/-- A string is read up to its closing quote. -/
theorem readString_stringChars {fuel : Nat} (s rest : List Char) (enough : s.length < fuel) :
    readString .text fuel (s.flatMap stringChar ++ '"' :: rest) = .ok (s, rest) := by
  induction s generalizing fuel with
  | nil =>
    obtain ⟨fuel, rfl⟩ : ∃ n, fuel = n + 1 := ⟨fuel - 1, by simp at enough; omega⟩
    rfl
  | cons c cs ih =>
    obtain ⟨fuel, rfl⟩ : ∃ n, fuel = n + 1 := ⟨fuel - 1, by simp at enough; omega⟩
    rw [List.flatMap_cons, List.append_assoc, readString_stringChar, ih (by simpa using enough)]
    rfl

end Token

/-! ### Tokens -/

mutual

/-- The tokens of a value. -/
def tokens : Json → List Token
  | .null => [.null]
  | .bool b => [.bool b]
  | .num n => [.number n]
  | .str s => [.string s]
  | .arr items => .openArray :: tokensItems items ++ [.closeArray]
  | .obj members => .openObject :: tokensMembers members ++ [.closeObject]

/-- The tokens of items, with commas between them. -/
def tokensItems : List Json → List Token
  | [] => []
  | [v] => v.tokens
  | v :: rest => v.tokens ++ .comma :: tokensItems rest

/-- The tokens of members, with commas between them. -/
def tokensMembers : List (String × Json) → List Token
  | [] => []
  | [(k, v)] => .string k :: .colon :: v.tokens
  | (k, v) :: rest => .string k :: .colon :: (v.tokens ++ .comma :: tokensMembers rest)

end

/-- A number, if the value is one, is an integer of 64 bits. -/
def HasPlainNumber : Json → Prop
  | .num n => n.IsPlain
  | _ => True

namespace Token

/-- The text `cs` scans into `ts` when `rest` follows it. The fuel of a scan is never used up, as each
token takes one of it and at least one character. -/
def Scans (cs : List Char) (ts : List Token) (rest : List Char) : Prop :=
  ∀ fuel, (cs ++ rest).length ≤ fuel →
    ∃ left, rest.length ≤ left ∧ scanFrom .text fuel (cs ++ rest) = ts ++ scanFrom .text left rest

/-- What scans as some tokens before the end scans as them alone. -/
theorem scan_of_scans {cs : List Char} {ts : List Token} (h : Scans cs ts []) : scan cs = ts := by
  obtain ⟨left, _, same⟩ := h cs.length (by simp)
  have done : scanFrom .text left [] = [] := by cases left <;> rfl
  rw [done, List.append_nil, List.append_nil] at same
  exact same

/-- A character that starts a number starts nothing else. -/
theorem scanFrom_number {e : Encoding} {c : Char} (starts : c = '-' ∨ c.isDigit = true) (fuel : Nat)
    (cs : List Char) :
    scanFrom e (fuel + 1) (c :: cs) =
      match Number.read (c :: cs) with
      | .ok (n, rest) => .number n :: scanFrom e fuel rest
      | .error cause => failed .badScalar cause (Number.skip (c :: cs)) (scanFrom e fuel) := by
  have other {d : Char} (h : d.isDigit = false) (minus : d ≠ '-') : c ≠ d := by
    rintro rfl
    rcases starts with same | digit
    · exact minus same
    · rw [h] at digit
      cases digit
  have noGap : isGap c = false := by
    have space := other (d := ' ') (by decide) (by decide)
    have line := other (d := '\n') (by decide) (by decide)
    have tab := other (d := '\t') (by decide) (by decide)
    have back := other (d := '\r') (by decide) (by decide)
    simp [isGap, space, line, tab, back]
  have begins : (decide (c = '-') || c.isDigit) = true := by
    rcases starts with rfl | digit
    · rfl
    · rw [digit, Bool.or_true]
  rw [scanFrom, if_neg (by rw [noGap]; decide), if_neg (other (by decide) (by decide)),
    if_neg (other (by decide) (by decide)), if_neg (other (by decide) (by decide)),
    if_neg (other (by decide) (by decide)), if_neg (other (by decide) (by decide)),
    if_neg (other (by decide) (by decide)), if_neg (other (by decide) (by decide)),
    if_neg (other (by decide) (by decide)), if_neg (other (by decide) (by decide)),
    if_neg (other (by decide) (by decide))]
  exact if_pos begins

namespace Scans

theorem nil (rest : List Char) : Scans [] [] rest := by
  intro fuel enough
  exact ⟨fuel, enough, rfl⟩

/-- Pieces of text scan one after the other. -/
theorem append {as bs : List Char} {ts us : List Token} {rest : List Char}
    (ha : Scans as ts (bs ++ rest)) (hb : Scans bs us rest) : Scans (as ++ bs) (ts ++ us) rest := by
  intro fuel enough
  rw [List.append_assoc] at enough ⊢
  obtain ⟨middle, hm, first⟩ := ha fuel enough
  obtain ⟨left, hl, second⟩ := hb middle hm
  refine ⟨left, hl, ?_⟩
  rw [first, second, List.append_assoc]

/-- One token, whose text is `c :: cs`. -/
theorem one {c : Char} {cs : List Char} {ts : List Token} {rest : List Char}
    (step : ∀ fuel, (cs ++ rest).length ≤ fuel →
      scanFrom .text (fuel + 1) (c :: (cs ++ rest)) = ts ++ scanFrom .text fuel rest) :
    Scans (c :: cs) ts rest := by
  intro fuel enough
  obtain ⟨fuel, rfl⟩ : ∃ n, fuel = n + 1 := ⟨fuel - 1, by simp at enough; omega⟩
  have room : (cs ++ rest).length ≤ fuel := by simpa using enough
  refine ⟨fuel, ?_, step fuel room⟩
  rw [List.length_append] at room
  omega

/-- A mark of one character. -/
theorem cons {c : Char} {cs : List Char} {t : Token} {ts : List Token} {rest : List Char}
    (mark : ∀ fuel tail, scanFrom .text (fuel + 1) (c :: tail) = t :: scanFrom .text fuel tail)
    (h : Scans cs ts rest) : Scans (c :: cs) (t :: ts) rest := by
  have first : Scans [c] [t] (cs ++ rest) := one fun fuel _ => mark fuel _
  exact first.append h

theorem openArray {e : Encoding} (fuel : Nat) (tail : List Char) :
    scanFrom e (fuel + 1) ('[' :: tail) = .openArray :: scanFrom e fuel tail :=
  rfl

theorem closeArray {e : Encoding} (fuel : Nat) (tail : List Char) :
    scanFrom e (fuel + 1) (']' :: tail) = .closeArray :: scanFrom e fuel tail :=
  rfl

theorem openObject {e : Encoding} (fuel : Nat) (tail : List Char) :
    scanFrom e (fuel + 1) ('\x7b' :: tail) = .openObject :: scanFrom e fuel tail :=
  rfl

theorem closeObject {e : Encoding} (fuel : Nat) (tail : List Char) :
    scanFrom e (fuel + 1) ('\x7d' :: tail) = .closeObject :: scanFrom e fuel tail :=
  rfl

theorem comma {e : Encoding} (fuel : Nat) (tail : List Char) :
    scanFrom e (fuel + 1) (',' :: tail) = .comma :: scanFrom e fuel tail :=
  rfl

theorem colon {e : Encoding} (fuel : Nat) (tail : List Char) :
    scanFrom e (fuel + 1) (':' :: tail) = .colon :: scanFrom e fuel tail :=
  rfl

/-- Blanks leave no trace. -/
theorem gap {gaps : List Char} (h : ∀ c ∈ gaps, isGap c = true) (rest : List Char) :
    Scans gaps [] rest := by
  induction gaps with
  | nil => exact nil rest
  | cons c cs ih =>
    have first : Scans [c] [] (cs ++ rest) := by
      apply one
      intro fuel _
      rw [List.nil_append, scanFrom, if_pos (h c (by simp))]
      rfl
    have others : Scans cs [] rest := ih fun d hd => h d (List.mem_cons_of_mem _ hd)
    exact first.append others

theorem space (rest : List Char) : Scans [' '] [] rest :=
  gap (List.forall_mem_singleton.2 rfl) rest

theorem newLine (level : Nat) (rest : List Char) : Scans (newLine level) [] rest := by
  apply gap
  intro c hc
  unfold Json.newLine at hc
  rcases List.mem_cons.1 hc with rfl | hc
  · rfl
  · rw [(List.mem_replicate.1 hc).2]
    rfl

theorem null (rest : List Char) : Scans ['n', 'u', 'l', 'l'] [.null] rest :=
  one fun _ _ => rfl

theorem bool (b : Bool) (rest : List Char) : Scans (boolChars b) [.bool b] rest := by
  cases b with
  | false => exact one fun _ _ => rfl
  | true => exact one fun _ _ => rfl

theorem quote {e : Encoding} {cs s rest : List Char} {text : String} (fuel : Nat)
    (read : readString e (cs.length + 1) cs = .ok (s, rest)) (whole : e.string? s = some text) :
    scanFrom e (fuel + 1) ('"' :: cs) = .string text :: scanFrom e fuel rest := by
  have opened : isGap '"' = false := by decide
  simp [scanFrom, opened, read, whole]

theorem string (s : String) (rest : List Char) : Scans (stringChars s) [.string s] rest := by
  have shape : stringChars s = '"' :: (s.toList.flatMap stringChar ++ ['"']) := rfl
  rw [shape]
  apply one
  intro fuel _
  have enough := length_le_stringChars s.toList
  have close : s.toList.flatMap stringChar ++ ['"'] ++ rest =
      s.toList.flatMap stringChar ++ '"' :: rest := List.append_assoc ..
  rw [close, quote fuel (readString_stringChars s.toList rest ?_) (congrArg some String.ofList_toList)]
  · rfl
  · rw [List.length_append]
    omega

/-- A number is scanned if nothing of a number follows it. -/
theorem number {n : Number} (plain : n.IsPlain) {rest : List Char} (ends : EndsNumber rest) :
    Scans n.chars [.number n] rest := by
  cases n with
  | float x => exact plain.elim
  | int n =>
    have read := Number.read_decimalInt plain ends
    obtain ⟨c, cs, shape, starts⟩ := Text.decimalInt_eq_cons n
    have chars : (Number.int n).chars = c :: cs := shape
    rw [shape, List.cons_append] at read
    rw [chars]
    apply one
    intro fuel _
    rw [scanFrom_number starts, read]
    rfl

end Scans

end Token

/-! ### Values -/

open Token (Scans)

theorem endsNumber_comma (cs : List Char) : EndsNumber (',' :: cs) :=
  endsNumber_cons (by decide) (by decide) (by decide) (by decide) cs

theorem endsNumber_bracket (cs : List Char) : EndsNumber (']' :: cs) :=
  endsNumber_cons (by decide) (by decide) (by decide) (by decide) cs

theorem endsNumber_brace (cs : List Char) : EndsNumber ('\x7d' :: cs) :=
  endsNumber_cons (by decide) (by decide) (by decide) (by decide) cs

theorem endsNumber_newLine (level : Nat) (cs rest : List Char) :
    EndsNumber (newLine level ++ cs ++ rest) :=
  endsNumber_cons (by decide) (by decide) (by decide) (by decide) _

mutual

/-- The text of a value scans into its tokens. -/
theorem scans_chars : (v : Json) → v.Everywhere HasPlainNumber → {rest : List Char} →
    EndsNumber rest → Scans v.chars v.tokens rest
  | .null, _, rest, _ => .null rest
  | .bool b, _, rest, _ => .bool b rest
  | .num _, plain, _, ends => .number plain ends
  | .str s, _, rest, _ => .string s rest
  | .arr items, plain, rest, _ => by
    unfold chars tokens
    have close : Scans [']'] [.closeArray] rest := .cons Scans.closeArray (.nil rest)
    have inside := scansItems_chars items plain.2 (endsNumber_bracket rest)
    exact .append (.cons Scans.openArray inside) close
  | .obj members, plain, rest, _ => by
    unfold chars tokens
    have close : Scans ['\x7d'] [.closeObject] rest := .cons Scans.closeObject (.nil rest)
    have inside := scansMembers_chars members plain.2 (endsNumber_brace rest)
    exact .append (.cons Scans.openObject inside) close

theorem scansItems_chars : (items : List Json) → EveryItem HasPlainNumber items →
    {rest : List Char} → EndsNumber rest → Scans (charsItems items) (tokensItems items) rest
  | [], _, rest, _ => .nil rest
  | [v], plain, _, ends => scans_chars v plain.1 ends
  | v :: w :: more, plain, rest, ends => by
    unfold charsItems tokensItems
    have later := scansItems_chars (w :: more) plain.2 ends
    exact .append (scans_chars v plain.1 (endsNumber_comma _)) (.cons Scans.comma later)

theorem scansMembers_chars : (members : List (String × Json)) → EveryMember HasPlainNumber members →
    {rest : List Char} → EndsNumber rest →
    Scans (charsMembers members) (tokensMembers members) rest
  | [], _, rest, _ => .nil rest
  | [(k, v)], plain, _, ends => by
    unfold charsMembers tokensMembers
    exact .append (.string k _) (.cons Scans.colon (scans_chars v plain.1 ends))
  | (k, v) :: e :: more, plain, rest, ends => by
    unfold charsMembers tokensMembers
    have later := scansMembers_chars (e :: more) plain.2 ends
    have value := scans_chars v plain.1 (endsNumber_comma (charsMembers (e :: more) ++ rest))
    exact .append (.string k _) (.cons Scans.colon (.append value (.cons Scans.comma later)))

end

mutual

/-- The indented text of a value scans into the same tokens. -/
theorem scans_prettyChars (level : Nat) : (v : Json) → v.Everywhere HasPlainNumber →
    {rest : List Char} → EndsNumber rest → Scans (v.prettyChars level) v.tokens rest
  | .null, _, rest, _ => .null rest
  | .bool b, _, rest, _ => .bool b rest
  | .num _, plain, _, ends => .number plain ends
  | .str s, _, rest, _ => .string s rest
  | .arr [], _, rest, _ => .cons Scans.openArray (.cons Scans.closeArray (.nil rest))
  | .arr (v :: more), plain, rest, _ => by
    unfold prettyChars tokens
    have close : Scans (newLine level ++ [']']) [.closeArray] rest :=
      .append (.newLine level _) (.cons Scans.closeArray (.nil rest))
    have inside := scansItems_prettyChars (level + 1) (v :: more) plain.2
      (endsNumber_newLine level [']'] rest)
    rw [List.append_assoc]
    exact .append (.cons Scans.openArray inside) close
  | .obj [], _, rest, _ => .cons Scans.openObject (.cons Scans.closeObject (.nil rest))
  | .obj (e :: more), plain, rest, _ => by
    unfold prettyChars tokens
    have close : Scans (newLine level ++ ['\x7d']) [.closeObject] rest :=
      .append (.newLine level _) (.cons Scans.closeObject (.nil rest))
    have inside := scansMembers_prettyChars (level + 1) (e :: more) plain.2
      (endsNumber_newLine level ['\x7d'] rest)
    rw [List.append_assoc]
    exact .append (.cons Scans.openObject inside) close

theorem scansItems_prettyChars (level : Nat) : (items : List Json) →
    EveryItem HasPlainNumber items → {rest : List Char} → EndsNumber rest →
    Scans (prettyItems level items) (tokensItems items) rest
  | [], _, rest, _ => .nil rest
  | [v], plain, _, ends => by
    unfold prettyItems tokensItems
    exact .append (.newLine level _) (scans_prettyChars level v plain.1 ends)
  | v :: w :: more, plain, rest, ends => by
    unfold prettyItems tokensItems
    have later := scansItems_prettyChars level (w :: more) plain.2 ends
    have value := scans_prettyChars level v plain.1
      (endsNumber_comma (prettyItems level (w :: more) ++ rest))
    exact .append (.append (.newLine level _) value) (.cons Scans.comma later)

theorem scansMembers_prettyChars (level : Nat) : (members : List (String × Json)) →
    EveryMember HasPlainNumber members → {rest : List Char} → EndsNumber rest →
    Scans (prettyMembers level members) (tokensMembers members) rest
  | [], _, rest, _ => .nil rest
  | [(k, v)], plain, _, ends => by
    unfold prettyMembers tokensMembers
    have value : Scans (' ' :: v.prettyChars level) v.tokens _ :=
      .append (.space _) (scans_prettyChars level v plain.1 ends)
    exact .append (.append (.newLine level _) (.string k _)) (.cons Scans.colon value)
  | (k, v) :: e :: more, plain, rest, ends => by
    unfold prettyMembers tokensMembers
    have later := scansMembers_prettyChars level (e :: more) plain.2 ends
    have value := scans_prettyChars level v plain.1
      (endsNumber_comma (prettyMembers level (e :: more) ++ rest))
    have after : Scans (' ' :: (v.prettyChars level ++ ',' :: prettyMembers level (e :: more)))
        (v.tokens ++ .comma :: tokensMembers (e :: more)) rest :=
      .append (.space _) (.append value (.cons Scans.comma later))
    exact .append (.append (.newLine level _) (.string k _)) (.cons Scans.colon after)

end

/-- Both layouts have the tokens of the value. -/
theorem scan_compact {v : Json} (plain : v.Everywhere HasPlainNumber) :
    Token.scan v.compact.toList = v.tokens := by
  unfold compact
  rw [String.toList_ofList]
  exact Token.scan_of_scans (scans_chars v plain endsNumber_nil)

/-- The text of a value in lines is scanned as its tokens. -/
theorem scan_pretty {v : Json} (plain : v.Everywhere HasPlainNumber) :
    Token.scan v.pretty.toList = v.tokens := by
  unfold pretty
  rw [String.toList_ofList]
  exact Token.scan_of_scans (scans_prettyChars 0 v plain endsNumber_nil)

end ConsumerContract.Json
