import ConsumerContract.Proofs.ByteForms
import ConsumerContract.Proofs.Numerals

/-!
# Numbers by their bytes

A number is made of ASCII characters, so reading one looks no further than the first character that is not
ASCII. `Along a b` relates two texts that are the same up to there and then go on with `a` and `b`: a number
is read alike from both, and what is left of them is related again (`Number.read_along`). Therefore a number
is read from characters as from their bytes (`Number.read_inBytes`), and where bytes follow a number, it
stands before those of characters too (`Number.exists_of_read_inBytes`).
-/

namespace ConsumerContract.Json

theorem isAscii_of_isDigit {c : Char} (h : c.isDigit = true) : IsAscii c := by
  have bounds : 48 ≤ c.toNat ∧ c.toNat ≤ 57 := by
    simpa [Char.isDigit, UInt32.le_iff_toNat_le] using h
  unfold IsAscii
  omega

theorem isDigit_of_not_isAscii {c : Char} (h : ¬ IsAscii c) : c.isDigit = false :=
  Bool.eq_false_iff.2 fun digit => h (isAscii_of_isDigit digit)

theorem ne_of_not_isAscii {c d : Char} (h : ¬ IsAscii c) (ascii : IsAscii d) : c ≠ d := by
  rintro rfl
  exact h ascii

/-! ### Texts that are the same in their ASCII part -/

/-- Neither text goes on with an ASCII character, and if one is at its end, so is the other. -/
inductive Halt : List Char → List Char → Prop where
  | done : Halt [] []
  | other {c d : Char} {cs ds : List Char} : ¬ IsAscii c → ¬ IsAscii d → Halt (c :: cs) (d :: ds)

/-- The same ASCII characters stand before `a` and before `b`. -/
inductive Along (a b : List Char) : List Char → List Char → Prop where
  | halt : Along a b a b
  | step {c : Char} {xs ys : List Char} : IsAscii c → Along a b xs ys → Along a b (c :: xs) (c :: ys)

namespace Along

variable {a b xs ys : List Char}

/-- Two such texts are at their end, or at their last, or begin with the same character. -/
theorem cases_front (ends : Halt a b) (h : Along a b xs ys) :
    (xs = [] ∧ ys = []) ∨
      (∃ c cs d ds, xs = c :: cs ∧ ys = d :: ds ∧ ¬ IsAscii c ∧ ¬ IsAscii d) ∨
      ∃ c cs ds, xs = c :: cs ∧ ys = c :: ds ∧ IsAscii c ∧ Along a b cs ds := by
  cases h with
  | halt =>
    cases ends with
    | done => exact .inl ⟨rfl, rfl⟩
    | other hc hd => exact .inr (.inl ⟨_, _, _, _, rfl, rfl, hc, hd⟩)
  | step ascii rest => exact .inr (.inr ⟨_, _, _, rfl, rfl, ascii, rest⟩)

/-- Two such texts end together. -/
theorem eq_nil_iff (ends : Halt a b) (h : Along a b xs ys) : xs = [] ↔ ys = [] := by
  rcases h.cases_front ends with ⟨rfl, rfl⟩ | ⟨c, cs, d, ds, rfl, rfl, -, -⟩ | ⟨c, cs, ds, rfl, rfl, -, -⟩
  · simp
  · simp
  · simp

/-- Two such texts are one front, in ASCII, before `a` and before `b`. -/
theorem exists_append (h : Along a b xs ys) :
    ∃ front, (∀ c ∈ front, IsAscii c) ∧ xs = front ++ a ∧ ys = front ++ b := by
  induction h with
  | halt => exact ⟨[], List.forall_mem_nil _, rfl, rfl⟩
  | step ascii _ ih =>
    obtain ⟨front, all, rfl, rfl⟩ := ih
    exact ⟨_ :: front, List.forall_mem_cons.2 ⟨ascii, all⟩, rfl, rfl⟩

theorem of_append {front : List Char} (all : ∀ c ∈ front, IsAscii c) :
    Along a b (front ++ a) (front ++ b) := by
  induction front with
  | nil => exact .halt
  | cons c rest ih =>
    obtain ⟨ascii, others⟩ := List.forall_mem_cons.1 all
    exact .step ascii (ih others)

/-! ### Digits -/

/-- Two such texts begin with a digit together. -/
theorem head_isDigit (ends : Halt a b) (h : Along a b xs ys) :
    ys.head?.any Char.isDigit = xs.head?.any Char.isDigit := by
  rcases h.cases_front ends with ⟨rfl, rfl⟩ | ⟨c, cs, d, ds, rfl, rfl, hc, hd⟩ | ⟨c, cs, ds, rfl, rfl, -, -⟩
  · rfl
  · simp [isDigit_of_not_isAscii hc, isDigit_of_not_isAscii hd]
  · rfl

theorem takeWhile_isDigit (ends : Halt a b) (h : Along a b xs ys) :
    ys.takeWhile Char.isDigit = xs.takeWhile Char.isDigit := by
  induction h with
  | halt =>
    cases ends with
    | done => rfl
    | other hc hd => simp [isDigit_of_not_isAscii hc, isDigit_of_not_isAscii hd]
  | step _ _ ih => rw [List.takeWhile_cons, List.takeWhile_cons, ih]

theorem dropWhile_isDigit (ends : Halt a b) (h : Along a b xs ys) :
    Along a b (xs.dropWhile Char.isDigit) (ys.dropWhile Char.isDigit) := by
  induction h with
  | halt =>
    cases ends with
    | done => exact .halt
    | other hc hd =>
      simp only [List.dropWhile_cons, isDigit_of_not_isAscii hc, isDigit_of_not_isAscii hd]
      exact .halt
  | @step c xs ys ascii rest ih =>
    rw [List.dropWhile_cons, List.dropWhile_cons]
    split
    · exact ih
    · exact .step ascii rest

/-- As many digits fit. -/
theorem fitDigits (ends : Halt a b) (h : Along a b xs ys) (acc : Nat) :
    ∃ value count rest rest', Number.fitDigits acc xs = (value, count, rest) ∧
      Number.fitDigits acc ys = (value, count, rest') ∧ Along a b rest rest' ∧
      rest.length ≤ xs.length := by
  induction h generalizing acc with
  | halt =>
    cases ends with
    | done => exact ⟨acc, 0, [], [], rfl, rfl, .halt, Nat.le_refl _⟩
    | other hc hd =>
      refine ⟨acc, 0, _, _, ?_, ?_, .halt, Nat.le_refl _⟩
      · simp [Number.fitDigits, isDigit_of_not_isAscii hc]
      · simp [Number.fitDigits, isDigit_of_not_isAscii hd]
  | @step c xs ys ascii rest ih =>
    by_cases fits : (c.isDigit && decide (10 * acc + Text.digitValue c ≤ Number.maxSignificand)) = true
    · obtain ⟨value, count, left, left', hx, hy, later, short⟩ := ih (10 * acc + Text.digitValue c)
      refine ⟨value, count + 1, left, left', ?_, ?_, later, Nat.le_succ_of_le short⟩
      · rw [Number.fitDigits, if_pos fits, hx]
      · rw [Number.fitDigits, if_pos fits, hy]
    · refine ⟨acc, 0, _, _, ?_, ?_, .step ascii rest, Nat.le_refl _⟩
      · rw [Number.fitDigits, if_neg fits]
      · rw [Number.fitDigits, if_neg fits]

end Along

namespace Number

/-- If the first reads a number and leaves `rest`, this is of length `most` at most, and the second reads the
number too and leaves a text that is along `rest`. -/
def Agree (a b : List Char) (most : Nat) (x y : Except Failure (Number × List Char)) : Prop :=
  ∀ n rest, x = .ok (n, rest) →
    rest.length ≤ most ∧ ∃ rest', y = .ok (n, rest') ∧ Along a b rest rest'

variable {a b xs ys : List Char} {most : Nat}

/-- A bound on what is left may be raised. -/
theorem Agree.mono {x y : Except Failure (Number × List Char)} {more : Nat} (h : Agree a b most x y)
    (le : most ≤ more) : Agree a b more x y := by
  intro n rest reads
  obtain ⟨short, along⟩ := h n rest reads
  exact ⟨Nat.le_trans short le, along⟩

theorem agree_error (f : Failure) (y : Except Failure (Number × List Char)) :
    Agree a b most (.error f) y := by
  intro n rest h
  cases h

theorem agree_ok (h : Along a b xs ys) (short : xs.length ≤ most) (n : Number) :
    Agree a b most (.ok (n, xs)) (.ok (n, ys)) := by
  rintro _ _ ⟨⟩
  exact ⟨short, ys, rfl, h⟩

theorem agree_map (h : Along a b xs ys) (short : xs.length ≤ most) (x : Except Failure Number) :
    Agree a b most (x.map (·, xs)) (x.map (·, ys)) := by
  cases x with
  | error f => exact agree_error f _
  | ok n => exact agree_ok h short n

theorem exponentSign_of_ne {c : Char} (plus : c ≠ '+') (minus : c ≠ '-') (cs : List Char) :
    exponentSign (c :: cs) = (false, c :: cs) := by
  rw [exponentSign]
  · rintro rest ⟨⟩
    exact plus rfl
  · rintro rest ⟨⟩
    exact minus rfl

/-- The sign of an exponent is read alike from both texts. -/
theorem exponentSign_along (ends : Halt a b) (h : Along a b xs ys) :
    ∃ down cs ds, exponentSign xs = (down, cs) ∧ exponentSign ys = (down, ds) ∧ Along a b cs ds ∧
      cs.length ≤ xs.length := by
  rcases h.cases_front ends with ⟨rfl, rfl⟩ | ⟨c, cs, d, ds, rfl, rfl, hc, hd⟩ | ⟨c, cs, ds, rfl, rfl, -, rest⟩
  · exact ⟨false, [], [], rfl, rfl, h, Nat.le_refl _⟩
  · have plus : IsAscii '+' := by decide
    have minus : IsAscii '-' := by decide
    exact ⟨false, _, _,
      exponentSign_of_ne (ne_of_not_isAscii hc plus) (ne_of_not_isAscii hc minus) cs,
      exponentSign_of_ne (ne_of_not_isAscii hd plus) (ne_of_not_isAscii hd minus) ds, h, Nat.le_refl _⟩
  · by_cases plus : c = '+'
    · subst plus
      exact ⟨false, cs, ds, rfl, rfl, rest, Nat.le_succ _⟩
    by_cases minus : c = '-'
    · subst minus
      exact ⟨true, cs, ds, rfl, rfl, rest, Nat.le_succ _⟩
    · exact ⟨false, _, _, exponentSign_of_ne plus minus cs, exponentSign_of_ne plus minus ds, h,
        Nat.le_refl _⟩

/-- An exponent is read alike from both texts. -/
theorem readExponent_along (ends : Halt a b) (h : Along a b xs ys) (negative : Bool)
    (significand : Nat) (exponent : Int) :
    Agree a b xs.length (readExponent negative significand exponent xs)
      (readExponent negative significand exponent ys) := by
  obtain ⟨down, cs, ds, hx, hy, digits, short⟩ := exponentSign_along ends h
  have value := digits.takeWhile_isDigit ends
  have left := digits.dropWhile_isDigit ends
  have shorter := Nat.le_trans (List.dropWhile_sublist Char.isDigit).length_le short
  unfold readExponent
  simp only [hx, hy]
  rcases digits.cases_front ends with
    ⟨rfl, rfl⟩ | ⟨c, cs, d, ds, rfl, rfl, hc, -⟩ | ⟨c, cs, ds, rfl, rfl, -, -⟩
  · exact agree_error _ _
  · simp only [isDigit_of_not_isAscii hc]
    exact agree_error _ _
  · simp only [value]
    split
    · exact agree_error _ _
    split
    · split
      · exact agree_error _ _
      · exact agree_ok left shorter _
    · exact agree_map left shorter _

theorem readFloatEnd_along (ends : Halt a b) (h : Along a b xs ys) (negative : Bool)
    (significand : Nat) (exponent : Int) :
    Agree a b xs.length (readFloatEnd negative significand exponent xs)
      (readFloatEnd negative significand exponent ys) := by
  unfold readFloatEnd
  rcases h.cases_front ends with
    ⟨rfl, rfl⟩ | ⟨c, cs, d, ds, rfl, rfl, hc, hd⟩ | ⟨c, cs, ds, rfl, rfl, -, rest⟩
  · exact agree_map h (Nat.le_refl _) _
  · have small : IsAscii 'e' := by decide
    have great : IsAscii 'E' := by decide
    have noExponent {c : Char} (other : ¬ IsAscii c) : ¬ (c = 'e' ∨ c = 'E') :=
      not_or.2 ⟨ne_of_not_isAscii other small, ne_of_not_isAscii other great⟩
    simp only [noExponent hc, noExponent hd, if_false]
    exact agree_map h (Nat.le_refl _) _
  · simp only
    split
    · exact (readExponent_along ends rest negative significand exponent).mono (Nat.le_succ _)
    · exact agree_map h (Nat.le_refl _) _

theorem readPlaces_of_ne {cs rest : List Char} {significand value count : Nat}
    (fits : fitDigits significand cs = (value, count, rest)) (more : count = 0 → rest ≠ [])
    (negative : Bool) (exponent : Int) :
    readPlaces negative significand exponent cs =
      if count = 0 ∧ !(rest.head?.any Char.isDigit) then .error .malformed
      else readFloatEnd negative value (exponent - count) (rest.dropWhile Char.isDigit) := by
  unfold readPlaces
  rw [fits]
  split
  next same =>
    obtain ⟨-, rfl, rfl⟩ : value = _ ∧ count = 0 ∧ rest = [] := by simpa using same
    exact absurd rfl (more rfl)
  next same =>
    obtain ⟨rfl, rfl, rfl⟩ := by simpa using same
    rfl

theorem readPlaces_along (ends : Halt a b) (h : Along a b xs ys) (negative : Bool)
    (significand : Nat) (exponent : Int) :
    Agree a b xs.length (readPlaces negative significand exponent xs)
      (readPlaces negative significand exponent ys) := by
  obtain ⟨value, count, rest, rest', hx, hy, later, short⟩ := h.fitDigits ends significand
  have float := readFloatEnd_along ends (later.dropWhile_isDigit ends) negative value (exponent - count)
  by_cases last : count = 0 ∧ rest = []
  · obtain ⟨rfl, rfl⟩ := last
    unfold readPlaces
    rw [hx]
    exact agree_error _ _
  · have more : count = 0 → rest ≠ [] := fun none same => last ⟨none, same⟩
    have more' : count = 0 → rest' ≠ [] := fun none same => more none (later.eq_nil_iff ends |>.2 same)
    rw [readPlaces_of_ne hx more, readPlaces_of_ne hy more', later.head_isDigit ends]
    split
    · exact agree_error _ _
    · exact float.mono (Nat.le_trans (List.dropWhile_sublist _).length_le short)

theorem readAfterWhole_of_ne {c : Char} (point : c ≠ '.') (negative : Bool) (significand dropped : Nat)
    (cs : List Char) :
    readAfterWhole negative significand dropped (c :: cs) =
      if (c == 'e' || c == 'E') || decide (0 < dropped) then
        readFloatEnd negative significand dropped (c :: cs)
      else .ok (ofInteger negative significand, c :: cs) := by
  rw [readAfterWhole]
  · rfl
  · rintro rest ⟨⟩
    exact point rfl

theorem readAfterWhole_along (ends : Halt a b) (h : Along a b xs ys) (negative : Bool)
    (significand dropped : Nat) :
    Agree a b xs.length (readAfterWhole negative significand dropped xs)
      (readAfterWhole negative significand dropped ys) := by
  have float := readFloatEnd_along ends h negative significand dropped
  have integer : Agree a b xs.length (.ok (ofInteger negative significand, xs))
    (.ok (ofInteger negative significand, ys)) := agree_ok h (Nat.le_refl _) _
  rcases h.cases_front ends with
    ⟨rfl, rfl⟩ | ⟨c, cs, d, ds, rfl, rfl, hc, hd⟩ | ⟨c, cs, ds, rfl, rfl, -, rest⟩
  · simp only [readAfterWhole, List.head?_nil, Option.any_none, Bool.false_or]
    split
    · exact float
    · exact integer
  · have noExponent {c : Char} (other : ¬ IsAscii c) : (c == 'e' || c == 'E') = false := by
      have small : c ≠ 'e' := ne_of_not_isAscii other (by decide)
      have great : c ≠ 'E' := ne_of_not_isAscii other (by decide)
      simp [small, great]
    rw [readAfterWhole_of_ne (ne_of_not_isAscii hc (by decide)),
      readAfterWhole_of_ne (ne_of_not_isAscii hd (by decide)), noExponent hc, noExponent hd]
    split
    · exact float
    · exact integer
  · by_cases point : c = '.'
    · subst point
      exact (readPlaces_along ends rest negative significand dropped).mono (Nat.le_succ _)
    · rw [readAfterWhole_of_ne point, readAfterWhole_of_ne point]
      split
      · exact float
      · exact integer

theorem readMagnitude_of_ne {c : Char} (zero : c ≠ '0') (negative : Bool) (cs : List Char) :
    readMagnitude negative (c :: cs) =
      if !c.isDigit then .error .malformed
      else
        let (value, _, tail) := fitDigits (Text.digitValue c) cs
        readAfterWhole negative value (tail.takeWhile Char.isDigit).length
          (tail.dropWhile Char.isDigit) := by
  rw [readMagnitude]
  exact zero

theorem readMagnitude_along (ends : Halt a b) (h : Along a b xs ys) (negative : Bool) :
    Agree a b (xs.length - 1) (readMagnitude negative xs) (readMagnitude negative ys) := by
  rcases h.cases_front ends with
    ⟨rfl, rfl⟩ | ⟨c, cs, d, ds, rfl, rfl, hc, hd⟩ | ⟨c, cs, ds, rfl, rfl, -, rest⟩
  · exact agree_error _ _
  · rw [readMagnitude_of_ne (ne_of_not_isAscii hc (by decide)), isDigit_of_not_isAscii hc]
    exact agree_error _ _
  · by_cases zero : c = '0'
    · subst zero
      rw [readMagnitude, readMagnitude, rest.head_isDigit ends]
      split
      · exact agree_error _ _
      · exact readAfterWhole_along ends rest negative 0 0
    · obtain ⟨value, count, left, left', hx, hy, later, short⟩ := rest.fitDigits ends (Text.digitValue c)
      rw [readMagnitude_of_ne zero, readMagnitude_of_ne zero, hx, hy]
      split
      · exact agree_error _ _
      · simp only [later.takeWhile_isDigit ends]
        have whole := readAfterWhole_along ends (later.dropWhile_isDigit ends) negative value
        exact (whole _).mono (Nat.le_trans (List.dropWhile_sublist _).length_le short)

theorem read_of_ne {c : Char} (minus : c ≠ '-') (cs : List Char) :
    read (c :: cs) = readMagnitude false (c :: cs) := by
  rw [read]
  rintro rest ⟨⟩
  exact minus rfl

/-- A number is read alike from two texts that are the same up to their first other characters. -/
theorem read_along (ends : Halt a b) (h : Along a b xs ys) : Agree a b (xs.length - 1) (read xs) (read ys) := by
  have unsigned := readMagnitude_along ends h false
  rcases h.cases_front ends with
    ⟨rfl, rfl⟩ | ⟨c, cs, d, ds, rfl, rfl, hc, hd⟩ | ⟨c, cs, ds, rfl, rfl, -, rest⟩
  · exact unsigned
  · rw [read_of_ne (ne_of_not_isAscii hc (by decide)), read_of_ne (ne_of_not_isAscii hd (by decide))]
    exact unsigned
  · by_cases minus : c = '-'
    · subst minus
      exact (readMagnitude_along ends rest true).mono (Nat.sub_le ..)
    · rw [read_of_ne minus, read_of_ne minus]
      exact unsigned

end Number

/-! ### Characters and their bytes -/

/-- The text does not go on with an ASCII character. -/
def EndsAscii (a : List Char) : Prop :=
  ∀ c cs, a = c :: cs → ¬ IsAscii c

/-- A text up to its first character that is not ASCII, and from there. -/
theorem exists_front (xs : List Char) :
    ∃ front a, xs = front ++ a ∧ (∀ c ∈ front, IsAscii c) ∧ EndsAscii a := by
  induction xs with
  | nil => exact ⟨[], [], rfl, List.forall_mem_nil _, by rintro c cs ⟨⟩⟩
  | cons c rest ih =>
    by_cases ascii : IsAscii c
    · obtain ⟨front, a, rfl, all, other⟩ := ih
      exact ⟨c :: front, a, rfl, List.forall_mem_cons.2 ⟨ascii, all⟩, other⟩
    · refine ⟨[], c :: rest, rfl, List.forall_mem_nil _, ?_⟩
      rintro d ds ⟨⟩
      exact ascii

theorem Halt.symm {a b : List Char} (h : Halt a b) : Halt b a := by
  cases h with
  | done => exact .done
  | other hc hd => exact .other hd hc

namespace EndsAscii

/-- A text that is at the end of its ASCII part halts beside itself. -/
theorem halt {a : List Char} (h : EndsAscii a) : Halt a a := by
  cases a with
  | nil => exact .done
  | cons c cs => exact .other (h c cs rfl) (h c cs rfl)

/-- The bytes of characters halt where these do. -/
theorem halt_inBytes {a : List Char} (h : EndsAscii a) : Halt a (inBytes a) := by
  cases a with
  | nil => exact .done
  | cons c cs =>
    have hc := h c cs rfl
    obtain ⟨b, bs, shape, first, -⟩ := Encoding.write_of_not_isAscii hc
    rw [inBytes_cons, shape]
    exact .other hc (Nat.not_lt.2 (Nat.le_trans (by decide) first))

/-- Bytes that do not begin with ASCII are those of a text that does not. -/
theorem of_inBytes {a : List Char} (h : EndsAscii (inBytes a)) : EndsAscii a := by
  rintro c cs rfl ascii
  exact h c (inBytes cs) (inBytes_cons_of_isAscii ascii cs) ascii

end EndsAscii

/-- What stands after ASCII characters in the bytes of a text are bytes of a text. -/
theorem exists_of_append_eq_inBytes {front a cs : List Char} (all : ∀ c ∈ front, IsAscii c)
    (h : front ++ a = inBytes cs) : ∃ ds, cs = front ++ ds ∧ a = inBytes ds := by
  induction front generalizing cs with
  | nil => exact ⟨cs, rfl, h⟩
  | cons c front ih =>
    obtain ⟨ascii, others⟩ := List.forall_mem_cons.1 all
    cases cs with
    | nil => cases h
    | cons d ds =>
      have cut : Encoding.utf8.write c ++ (front ++ a) = Encoding.utf8.write d ++ inBytes ds := by
        rw [Encoding.write_of_isAscii ascii, ← inBytes_cons]
        exact h
      obtain ⟨rfl, rest⟩ := Encoding.write_append_inj cut
      obtain ⟨es, rfl, same⟩ := ih others rest
      exact ⟨es, rfl, same⟩

namespace Number

/-- A number leaves some of the ASCII characters before `a`, and the same of those before `b`. -/
theorem read_append {front a b rest : List Char} {n : Number} (all : ∀ c ∈ front, IsAscii c)
    (ends : Halt a b) (h : read (front ++ a) = .ok (n, rest)) :
    ∃ left, (∀ c ∈ left, IsAscii c) ∧ rest = left ++ a ∧ read (front ++ b) = .ok (n, left ++ b) := by
  obtain ⟨-, rest', reads, later⟩ := read_along ends (.of_append all) n rest h
  obtain ⟨left, leftAll, rfl, rfl⟩ := later.exists_append
  exact ⟨left, leftAll, rfl, reads⟩

/-- A number takes a character at least. -/
theorem length_read {xs rest : List Char} {n : Number} (h : read xs = .ok (n, rest)) :
    rest.length ≤ xs.length - 1 := by
  obtain ⟨front, a, rfl, all, other⟩ := exists_front xs
  exact (read_along other.halt (.of_append all) n _ h).1

/-- What a number leaves of a text of bytes is a text of bytes. -/
theorem isByte_of_read {xs rest : List Char} {n : Number} (h : read xs = .ok (n, rest))
    (bytes : ∀ c ∈ xs, IsByte c) : ∀ c ∈ rest, IsByte c := by
  obtain ⟨front, a, rfl, all, other⟩ := exists_front xs
  obtain ⟨left, leftAll, rfl, -⟩ := read_append all other.halt h
  have small : ∀ c ∈ left, IsByte c := fun c hc => Nat.lt_trans (leftAll c hc) (by decide)
  exact List.forall_mem_append.2 ⟨small, (List.forall_mem_append.1 bytes).2⟩

/-- A number is read from bytes as from the characters. -/
theorem read_inBytes {cs rest : List Char} {n : Number} (h : read cs = .ok (n, rest)) :
    read (inBytes cs) = .ok (n, inBytes rest) := by
  obtain ⟨front, a, rfl, all, other⟩ := exists_front cs
  obtain ⟨left, leftAll, rfl, reads⟩ := read_append all other.halt_inBytes h
  rw [inBytes_append_of_isAscii all, inBytes_append_of_isAscii leftAll]
  exact reads

/-- Where a number is read from bytes and those of characters are left, it is one of characters. -/
theorem exists_of_read_inBytes {xs rest : List Char} {n : Number}
    (h : read xs = .ok (n, inBytes rest)) : ∃ cs, xs = inBytes cs ∧ read cs = .ok (n, rest) := by
  obtain ⟨front, a, rfl, all, other⟩ := exists_front xs
  -- Read beside itself, the text shows that what stands after its ASCII front are bytes of characters.
  obtain ⟨left, leftAll, tail, -⟩ := read_append all other.halt h
  obtain ⟨ds, rfl, rfl⟩ := exists_of_append_eq_inBytes leftAll tail.symm
  obtain ⟨left', leftAll', same, reads⟩ := read_append all other.of_inBytes.halt_inBytes.symm h
  obtain rfl : left = left' := List.append_cancel_right (tail.symm.trans same)
  exact ⟨front ++ ds, (inBytes_append_of_isAscii all ds).symm, reads⟩

end Number

end ConsumerContract.Json
