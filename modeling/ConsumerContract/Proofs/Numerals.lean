import ConsumerContract.Json.Number

/-!
# Integers in text, read back

Decimal digits never start with a zero except for zero itself, so a number that was written as an
integer of 64 bits is read as this integer, provided that the text does not go on with a digit, a point
or an exponent: `Number.read_decimalInt`.
-/

namespace ConsumerContract

namespace Text

theorem isDigit_of_mem_decimalDigits {i : Nat} {c : Char} (h : c ∈ decimalDigits i) :
    c.isDigit = true :=
  Nat.isDigit_of_mem_toDigits (by decide) (by decide) h

theorem ne_of_mem_decimalDigits {i : Nat} {c d : Char} (h : c ∈ decimalDigits i)
    (noDigit : d.isDigit = false) : c ≠ d := by
  rintro rfl
  have digit := isDigit_of_mem_decimalDigits h
  rw [noDigit] at digit
  cases digit

theorem decimalDigits_eq_cons (i : Nat) : ∃ c cs, decimalDigits i = c :: cs :=
  List.exists_cons_of_ne_nil Nat.toDigits_ne_nil

/-- The value of the decimal digits of a number is the number. -/
theorem digitsValue_decimalDigits (i : Nat) : Binary64.digitsValue 0 (decimalDigits i) = i :=
  Nat.ofDigitChars_ten_toDigits

/-- Only zero is written with a zero in front. -/
theorem decimalDigits_pos {n : Nat} (h : 0 < n) :
    ∃ c cs, decimalDigits n = c :: cs ∧ c ≠ '0' := by
  by_cases small : n < 10
  · have nonzero : ∀ d < 10, 0 < d → Nat.digitChar d ≠ '0' := by decide
    refine ⟨n.digitChar, [], ?_, nonzero n small h⟩
    exact Nat.toDigits_of_lt_base small
  · obtain ⟨c, cs, front, nonzero⟩ := decimalDigits_pos (n := n / 10) (by omega)
    refine ⟨c, cs ++ [(n % 10).digitChar], ?_, nonzero⟩
    have split : decimalDigits n = decimalDigits (n / 10) ++ [(n % 10).digitChar] :=
      Nat.toDigits_of_base_le (by decide) (by omega)
    rw [split, front, List.cons_append]
termination_by n

/-- An integer starts with a minus sign or a digit. -/
theorem decimalInt_eq_cons (n : Int) :
    ∃ c cs, decimalInt n = c :: cs ∧ (c = '-' ∨ c.isDigit = true) := by
  cases n with
  | ofNat k =>
    obtain ⟨c, cs, shape⟩ := decimalDigits_eq_cons k
    have digit : c.isDigit = true := isDigit_of_mem_decimalDigits (i := k) (by simp [shape])
    exact ⟨c, cs, shape, .inr digit⟩
  | negSucc k => exact ⟨'-', decimalDigits (k + 1), rfl, .inl rfl⟩

end Text

namespace Json

/-- The number is one that is written without point and exponent, and read back the same. -/
def Number.IsPlain : Number → Prop
  | .int n => -(Binary64.signBit : Int) ≤ n ∧ n ≤ maxSignificand
  | .float _ => False

/-- A number may end here: what follows is no part of it. -/
def EndsNumber (rest : List Char) : Prop :=
  ∀ c cs, rest = c :: cs → c.isDigit = false ∧ c ≠ '.' ∧ c ≠ 'e' ∧ c ≠ 'E'

theorem endsNumber_nil : EndsNumber [] := by
  intro c cs h
  cases h

theorem endsNumber_cons {c : Char} (digit : c.isDigit = false) (point : c ≠ '.') (small : c ≠ 'e')
    (great : c ≠ 'E') (cs : List Char) : EndsNumber (c :: cs) := by
  intro d ds h
  obtain ⟨rfl, _⟩ := List.cons.inj h
  exact ⟨digit, point, small, great⟩

namespace Number

theorem head_isDigit {rest : List Char} (h : EndsNumber rest) :
    rest.head?.any Char.isDigit = false := by
  cases rest with
  | nil => rfl
  | cons c cs => exact (h c cs rfl).1

theorem takeWhile_isDigit {rest : List Char} (h : EndsNumber rest) :
    rest.takeWhile Char.isDigit = [] := by
  cases rest with
  | nil => rfl
  | cons c cs => simp [(h c cs rfl).1]

theorem dropWhile_isDigit {rest : List Char} (h : EndsNumber rest) :
    rest.dropWhile Char.isDigit = rest := by
  cases rest with
  | nil => rfl
  | cons c cs => simp [(h c cs rfl).1]

theorem le_digitsValue (acc : Nat) (digits : List Char) :
    acc ≤ Binary64.digitsValue acc digits := by
  unfold Binary64.digitsValue
  induction digits generalizing acc with
  | nil => exact Nat.le_refl acc
  | cons c cs ih =>
    have later := ih (10 * acc + Text.digitValue c)
    rw [List.foldl_cons]
    omega

/-- Digits whose value is kept are all taken. -/
theorem fitDigits_append {acc : Nat} {digits rest : List Char}
    (isDigits : ∀ c ∈ digits, c.isDigit = true)
    (fits : Binary64.digitsValue acc digits ≤ maxSignificand) (ends : EndsNumber rest) :
    fitDigits acc (digits ++ rest) = (Binary64.digitsValue acc digits, digits.length, rest) := by
  induction digits generalizing acc with
  | nil =>
    cases rest with
    | nil => rfl
    | cons c cs =>
      have noDigit := (ends c cs rfl).1
      simp [fitDigits, noDigit, Binary64.digitsValue]
  | cons c cs ih =>
    have digit : c.isDigit = true := isDigits c (by simp)
    have step : Binary64.digitsValue acc (c :: cs) =
        Binary64.digitsValue (10 * acc + Text.digitValue c) cs := rfl
    rw [step] at fits ⊢
    have now : 10 * acc + Text.digitValue c ≤ maxSignificand :=
      Nat.le_trans (le_digitsValue _ cs) fits
    have later := ih (fun d hd => isDigits d (List.mem_cons_of_mem _ hd)) fits
    rw [List.cons_append, fitDigits]
    simp [digit, now, later]

/-- A whole number that ends is an integer. -/
theorem readAfterWhole_ends (negative : Bool) (n : Nat) {rest : List Char}
    (ends : EndsNumber rest) :
    readAfterWhole negative n 0 rest = .ok (ofInteger negative n, rest) := by
  cases rest with
  | nil => rfl
  | cons c cs =>
    obtain ⟨_, point, small, great⟩ := ends c cs rfl
    rw [readAfterWhole]
    · simp [small, great]
    · intro tail same
      exact point (List.cons.inj same).1

/-- The decimal digits of a number that fits are read as this number. -/
theorem readMagnitude_decimalDigits (negative : Bool) {n : Nat} (fits : n ≤ maxSignificand)
    {rest : List Char} (ends : EndsNumber rest) :
    readMagnitude negative (Text.decimalDigits n ++ rest) =
      .ok (ofInteger negative n, rest) := by
  rcases Nat.eq_zero_or_pos n with rfl | positive
  · have zero : Text.decimalDigits 0 = ['0'] := Nat.toDigits_zero 10
    rw [zero, List.cons_append, List.nil_append, readMagnitude, head_isDigit ends]
    exact readAfterWhole_ends negative 0 ends
  · obtain ⟨c, cs, shape, nonzero⟩ := Text.decimalDigits_pos positive
    have digits : ∀ d ∈ c :: cs, d.isDigit = true := by
      intro d hd
      rw [← shape] at hd
      exact Text.isDigit_of_mem_decimalDigits hd
    have value : Binary64.digitsValue (Text.digitValue c) cs = n := by
      have whole := Text.digitsValue_decimalDigits n
      rw [shape] at whole
      simpa [Binary64.digitsValue] using whole
    have taken : fitDigits (Text.digitValue c) (cs ++ rest) = (n, cs.length, rest) := by
      have := fitDigits_append (fun d hd => digits d (List.mem_cons_of_mem _ hd))
        (by rw [value]; exact fits) ends
      rwa [value] at this
    rw [shape, List.cons_append, readMagnitude]
    · simp only [digits c (by simp), taken, takeWhile_isDigit ends, dropWhile_isDigit ends]
      exact readAfterWhole_ends negative n ends
    · exact nonzero

/-- An integer of 64 bits is read back as it was written. -/
theorem read_decimalInt {n : Int} (plain : IsPlain (.int n)) {rest : List Char}
    (ends : EndsNumber rest) : read (Text.decimalInt n ++ rest) = .ok (.int n, rest) := by
  obtain ⟨low, high⟩ := plain
  cases n with
  | ofNat k =>
    have fits : k ≤ maxSignificand := Int.ofNat_le.1 high
    obtain ⟨c, cs, shape⟩ := Text.decimalDigits_eq_cons k
    have unsigned : c ≠ '-' :=
      Text.ne_of_mem_decimalDigits (i := k) (by simp [shape]) (by decide)
    have whole := readMagnitude_decimalDigits false fits ends
    rw [shape, List.cons_append] at whole
    rw [Text.decimalInt, shape, List.cons_append, read, whole]
    · rfl
    · intro tail same
      exact unsigned (List.cons.inj same).1
  | negSucc k =>
    have bound : k + 1 ≤ Binary64.signBit := by omega
    have fits : k + 1 ≤ maxSignificand := by
      have : Binary64.signBit ≤ maxSignificand := by decide
      omega
    have whole := readMagnitude_decimalDigits true fits ends
    rw [Text.decimalInt, List.cons_append, read, whole, ofInteger]
    simp only [Nat.succ_pos, bound, and_self, if_true]
    rfl

end Number

end Json

namespace Text

open Binary64 (digitsValue)

/-! ### Integers of 64 bits -/

/-- The text is `n` in decimal digits. There may be zeros in front. -/
structure SpellsNatural (cs : List Char) (n : Nat) : Prop where
  some : cs ≠ []
  digits : ∀ c ∈ cs, c.isDigit = true
  value : digitsValue 0 cs = n

/-- The text is `n` in decimal digits, with or without a `+`. -/
inductive SpellsUnsigned : List Char → Nat → Prop
  | plain {cs n} : SpellsNatural cs n → SpellsUnsigned cs n
  | plus {cs n} : SpellsNatural cs n → SpellsUnsigned ('+' :: cs) n

/-- The text is `n` in decimal digits, with or without a sign. -/
inductive SpellsInteger : List Char → Int → Prop
  | unsigned {cs} {n : Nat} : SpellsUnsigned cs n → SpellsInteger cs n
  | minus {cs} {n : Nat} : SpellsNatural cs n → SpellsInteger ('-' :: cs) (-n)

/-- The decimal digits of a number spell it. -/
theorem spellsNatural_decimalDigits (n : Nat) : SpellsNatural (decimalDigits n) n where
  some := Nat.toDigits_ne_nil
  digits _ hc := isDigit_of_mem_decimalDigits hc
  value := digitsValue_decimalDigits n

/-- An integer in decimal spells it. -/
theorem spellsInteger_decimalInt (n : Int) : SpellsInteger (decimalInt n) n := by
  cases n with
  | ofNat n => exact .unsigned (.plain (spellsNatural_decimalDigits n))
  | negSucc n => exact .minus (spellsNatural_decimalDigits (n + 1))

theorem SpellsUnsigned.chars {cs : List Char} {n : Nat} (h : SpellsUnsigned cs n) :
    ∀ c ∈ cs, c = '+' ∨ c.isDigit = true := by
  intro c hc
  cases h with
  | plain spelled => exact .inr (spelled.digits c hc)
  | plus spelled => exact (List.mem_cons.1 hc).imp_right (spelled.digits c)

theorem SpellsInteger.chars {cs : List Char} {n : Int} (h : SpellsInteger cs n) :
    ∀ c ∈ cs, c = '-' ∨ c = '+' ∨ c.isDigit = true := by
  intro c hc
  cases h with
  | unsigned spelled => exact .inr (spelled.chars c hc)
  | minus spelled => exact (List.mem_cons.1 hc).imp_right fun later => .inr (spelled.digits c later)

/-- Digits are read one after the other, as long as their value stays within the limit. -/
theorem readDigits_eq_ok_iff {limit acc n : Nat} {beyond : NumeralFault} {cs : List Char}
    (within : acc ≤ limit) : readDigits limit beyond acc cs = .ok n ↔
      (∀ c ∈ cs, c.isDigit = true) ∧ digitsValue acc cs = n ∧ n ≤ limit := by
  induction cs generalizing acc with
  | nil =>
    have value : digitsValue acc [] = acc := rfl
    rw [readDigits, value, Except.ok.injEq]
    constructor
    · rintro rfl
      exact ⟨List.forall_mem_nil _, rfl, within⟩
    · exact fun h => h.2.1
  | cons c cs ih =>
    have value : digitsValue acc (c :: cs) = digitsValue (10 * acc + digitValue c) cs := rfl
    have grows := Json.Number.le_digitsValue (10 * acc + digitValue c) cs
    rw [readDigits, value, List.forall_mem_cons, and_assoc]
    by_cases digit : c.isDigit = true
    · by_cases fits : 10 * acc + digitValue c ≤ limit
      · simp [digit, fits, ih fits]
      · simp only [digit, fits, if_true, if_false, reduceCtorEq, false_iff]
        omega
    · simp [digit]

/-- Exactly the digits of the numbers up to the limit are read. -/
theorem readNatural_eq_ok_iff {limit n : Nat} {beyond : NumeralFault} {cs : List Char} :
    readNatural limit beyond cs = .ok n ↔ SpellsNatural cs n ∧ n ≤ limit := by
  cases cs with
  | nil =>
    constructor
    · intro h
      cases h
    · exact fun h => absurd rfl h.1.some
  | cons c cs =>
    rw [readNatural, readDigits_eq_ok_iff (Nat.zero_le limit)]
    · constructor
      · rintro ⟨digits, value, fits⟩
        exact ⟨⟨List.cons_ne_nil c cs, digits, value⟩, fits⟩
      · rintro ⟨spelled, fits⟩
        exact ⟨spelled.digits, spelled.value, fits⟩
    · exact List.cons_ne_nil c cs

/-- No digits begin with a sign. -/
theorem not_spellsNatural_cons {c : Char} {cs : List Char} {n : Nat} (sign : c.isDigit = false) :
    ¬ SpellsNatural (c :: cs) n := by
  intro spelled
  have digit := spelled.digits c List.mem_cons_self
  rw [sign] at digit
  cases digit

/-- A `+` stands before digits. -/
theorem spellsUnsigned_plus_iff {cs : List Char} {n : Nat} :
    SpellsUnsigned ('+' :: cs) n ↔ SpellsNatural cs n := by
  constructor
  · intro spelled
    cases spelled with
    | plain spelled => exact absurd spelled (not_spellsNatural_cons (by decide))
    | plus spelled => exact spelled
  · exact .plus

theorem spellsUnsigned_iff {cs : List Char} {n : Nat} (noPlus : ∀ rest, cs ≠ '+' :: rest) :
    SpellsUnsigned cs n ↔ SpellsNatural cs n := by
  constructor
  · intro spelled
    cases spelled with
    | plain spelled => exact spelled
    | plus spelled => exact absurd rfl (noPlus _)
  · exact .plain

/-- A text spells one number at most. -/
theorem SpellsUnsigned.unique {cs : List Char} {n m : Nat} (h : SpellsUnsigned cs n)
    (other : SpellsUnsigned cs m) : n = m := by
  cases h with
  | plain spelled =>
    cases other with
    | plain other => exact spelled.value.symm.trans other.value
    | plus => exact absurd spelled (not_spellsNatural_cons (by decide))
  | plus spelled => exact spelled.value.symm.trans (spellsUnsigned_plus_iff.1 other).value

/-- A `-` stands before the digits of the opposite number. -/
theorem spellsInteger_minus_iff {cs : List Char} {m : Int} :
    SpellsInteger ('-' :: cs) m ↔ ∃ n : Nat, SpellsNatural cs n ∧ m = -n := by
  constructor
  · intro spelled
    cases spelled with
    | unsigned spelled =>
      rw [spellsUnsigned_iff (by simp)] at spelled
      exact absurd spelled (not_spellsNatural_cons (by decide))
    | minus spelled => exact ⟨_, spelled, rfl⟩
  · rintro ⟨n, spelled, rfl⟩
    exact .minus spelled

theorem spellsInteger_iff {cs : List Char} {m : Int} (noMinus : ∀ rest, cs ≠ '-' :: rest) :
    SpellsInteger cs m ↔ ∃ n : Nat, SpellsUnsigned cs n ∧ m = n := by
  constructor
  · intro spelled
    cases spelled with
    | unsigned spelled => exact ⟨_, spelled, rfl⟩
    | minus spelled => exact absurd rfl (noMinus _)
  · rintro ⟨n, spelled, rfl⟩
    exact .unsigned spelled

/-- Exactly the texts of the numbers up to the limit are read. -/
theorem readUnsigned_eq_ok_iff {limit n : Nat} {cs : List Char} :
    readUnsigned limit cs = .ok n ↔ SpellsUnsigned cs n ∧ n ≤ limit := by
  unfold readUnsigned
  split
  next =>
    rw [spellsUnsigned_iff (by simp)]
    simp only [reduceCtorEq, false_iff]
    exact fun h => h.1.some rfl
  next => rw [readNatural_eq_ok_iff, spellsUnsigned_plus_iff]
  next some noPlus => rw [readNatural_eq_ok_iff, spellsUnsigned_iff noPlus]

/-- Exactly the texts of the numbers below 2⁶⁴ are read. -/
theorem readUInt64_eq_ok_iff {cs : List Char} {n : UInt64} :
    readUInt64 cs = .ok n ↔ SpellsUnsigned cs n.toNat := by
  rw [readUInt64, Json.map_eq_ok_iff]
  simp only [readUnsigned_eq_ok_iff]
  constructor
  · rintro ⟨k, ⟨spelled, fits⟩, rfl⟩
    have below : k < UInt64.size := Nat.lt_of_le_of_lt fits (by decide)
    rwa [UInt64.toNat_ofNat_of_lt' below]
  · intro spelled
    exact ⟨n.toNat, ⟨spelled, Nat.le_pred_of_lt n.toNat_lt⟩, UInt64.ofNat_toNat⟩

/-- What a word of 64 bits with a sign stands for, in a range of integers that it counts. -/
theorem ofInt_eq_iff {limit k : Nat} {m : Int} {n : Int64}
    (range : k ≤ limit ↔ -9223372036854775808 ≤ m ∧ m < 9223372036854775808) :
    (k ≤ limit ∧ Int64.ofInt m = n) ↔ n.toInt = m := by
  constructor
  · rintro ⟨fits, rfl⟩
    obtain ⟨low, high⟩ := range.1 fits
    exact Int64.toInt_ofInt_of_le low high
  · intro same
    have fits : k ≤ limit := range.2 (same ▸ ⟨n.le_toInt, n.toInt_lt⟩)
    exact ⟨fits, by rw [← same, Int64.ofInt_toInt]⟩

/-- Exactly the texts of the numbers from -2⁶³ to 2⁶³ - 1 are read. -/
theorem readInt64_eq_ok_iff {cs : List Char} {n : Int64} :
    readInt64 cs = .ok n ↔ SpellsInteger cs n.toInt := by
  unfold readInt64
  split
  next cs =>
    rw [Json.map_eq_ok_iff, spellsInteger_minus_iff]
    simp only [readNatural_eq_ok_iff, and_assoc]
    exact exists_congr fun k => and_congr_right fun _ => ofInt_eq_iff (by omega)
  next cs noMinus =>
    rw [Json.map_eq_ok_iff, spellsInteger_iff noMinus]
    simp only [readUnsigned_eq_ok_iff, and_assoc]
    exact exists_congr fun k => and_congr_right fun _ => ofInt_eq_iff (by omega)

end Text

end ConsumerContract
