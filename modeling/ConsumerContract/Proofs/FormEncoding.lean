import ConsumerContract.Json.Token
import ConsumerContract.Text.FormEncoding
import ConsumerContract.Text.Utf8

/-!
# Form encoding is read back

Repairing bytes leaves alone those that are the UTF-8 form of a text (`readBytes_utf8`). `formBytes` reads
form encoding: `+` is a space, `%` with two hexadecimal digits is a byte, and any other character its own
bytes. So `formDecode` gives back what was encoded (`formDecode_formEncode`). Only a few characters occur in
form encoding, none of them a separator of queries (`not_mem_formEncode`).
-/

namespace ConsumerContract.Text

/-! ### UTF-8 -/

/-- The first byte of a character of two bytes. -/
theorem begin?_two {v : Nat} (least : 0x80 ≤ v) (most : v ≤ 0x7ff) :
    begin? (v / 64 % 32 + 192) = some ⟨1, 0x80, 0xbf, v / 64⟩ := by
  have bits : (v / 64 % 32 + 192) % 0x20 = v / 64 := by omega
  rw [begin?, if_pos (by omega), bits]

/-- The first byte of a character of three bytes: the second is within its bounds, since the form is no
longer than it needs to be and no surrogate is a character. -/
theorem begin?_three {v : Nat} (least : 0x800 ≤ v) (most : v ≤ 0xffff) (valid : v < 0xd800 ∨ 0xdfff < v) :
    ∃ low high, begin? (v / 4096 % 16 + 224) = some ⟨2, low, high, v / 4096⟩ ∧
      low ≤ v / 64 % 64 + 128 ∧ v / 64 % 64 + 128 ≤ high := by
  have bits : (v / 4096 % 16 + 224) % 0x10 = v / 4096 := by omega
  rw [begin?, if_neg (by omega), bits]
  by_cases first : v / 4096 % 16 + 224 = 0xe0
  · exact ⟨_, _, by rw [if_pos first], by omega, by omega⟩
  by_cases surrogate : v / 4096 % 16 + 224 = 0xed
  · exact ⟨_, _, by rw [if_neg first, if_pos surrogate], by omega, by omega⟩
  · exact ⟨_, _, by rw [if_neg first, if_neg surrogate, if_pos (by omega)], by omega, by omega⟩

/-- The first byte of a character of four bytes: the second is within its bounds, since there is no character
beyond the last. -/
theorem begin?_four {v : Nat} (least : 0x10000 ≤ v) (most : v < 0x110000) :
    ∃ low high, begin? (v / 262144 % 8 + 240) = some ⟨3, low, high, v / 262144⟩ ∧
      low ≤ v / 4096 % 64 + 128 ∧ v / 4096 % 64 + 128 ≤ high := by
  have bits : (v / 262144 % 8 + 240) % 8 = v / 262144 := by omega
  rw [begin?, if_neg (by omega), if_neg (by omega), if_neg (by omega), if_neg (by omega), bits]
  by_cases first : v / 262144 % 8 + 240 = 0xf0
  · exact ⟨_, _, by rw [if_pos first], by omega, by omega⟩
  by_cases middle : 0xf1 ≤ v / 262144 % 8 + 240 ∧ v / 262144 % 8 + 240 ≤ 0xf3
  · exact ⟨_, _, by rw [if_neg first, if_pos middle], by omega, by omega⟩
  · exact ⟨_, _, by rw [if_neg first, if_neg middle, if_pos (by omega)], by omega, by omega⟩

/-- A byte that begins a character of several bytes is kept until the next ones come. -/
theorem readBytes_first {n : Nat} {begun : Begun} (high : 0x80 ≤ n) (small : n < 256)
    (h : begin? n = some begun) (rest : List UInt8) :
    readBytes none (UInt8.ofNat n :: rest) = readBytes (some begun) rest := by
  rw [readBytes, readByte, UInt8.toNat_ofNat_of_lt' small, readFresh, if_neg (Nat.not_lt.2 high), h]
  rfl

/-- A later byte has six bits of the character. -/
theorem readBytes_later {n low high bits : Nat} (missing : Nat) (least : low ≤ n % 64 + 128)
    (most : n % 64 + 128 ≤ high) (rest : List UInt8) :
    readBytes (some ⟨missing + 1, low, high, bits⟩) (UInt8.ofNat (n % 64 + 128) :: rest) =
      if missing = 0 then Char.ofNat (64 * bits + n % 64) :: readBytes none rest
      else readBytes (some ⟨missing, 0x80, 0xbf, 64 * bits + n % 64⟩) rest := by
  have small : n % 64 + 128 < 256 := by omega
  have six : (n % 64 + 128) % 0x40 = n % 64 := by omega
  rw [readBytes, readByte, UInt8.toNat_ofNat_of_lt' small, if_pos ⟨least, most⟩, six]
  cases missing with
  | zero => rfl
  | succ more =>
    have middle : ¬ more + 1 + 1 ≤ 1 := by omega
    rw [if_neg middle, if_neg (Nat.succ_ne_zero more)]
    rfl

/-- The bytes of a character are read as that character. -/
theorem readBytes_utf8EncodeChar (c : Char) (rest : List UInt8) :
    readBytes none (String.utf8EncodeChar c ++ rest) = c :: readBytes none rest := by
  have valid : c.val.toNat < 0xd800 ∨ 0xdfff < c.val.toNat ∧ c.val.toNat < 0x110000 := c.valid
  have whole : Char.ofNat c.val.toNat = c := Char.ofNat_toNat c
  unfold String.utf8EncodeChar
  generalize c.val.toNat = v at valid whole ⊢
  dsimp only
  split
  next ascii =>
    have small : v < 256 := by omega
    rw [List.singleton_append, readBytes, readByte, readFresh, UInt8.toNat_ofNat_of_lt' small,
      if_pos (by omega), whole]
    rfl
  split
  next =>
    have bits : 64 * (v / 64) + v % 64 = v := by omega
    have begun := begin?_two (v := v) (by omega) (by omega)
    simp only [List.cons_append, List.nil_append]
    rw [readBytes_first (by omega) (by omega) begun, readBytes_later 0 (by omega) (by omega), if_pos rfl,
      bits, whole]
  split
  next =>
    have bits : 64 * (64 * (v / 4096) + v / 64 % 64) + v % 64 = v := by omega
    obtain ⟨low, high, begun, least, most⟩ := begin?_three (v := v) (by omega) (by omega) (by omega)
    simp only [List.cons_append, List.nil_append]
    rw [readBytes_first (by omega) (by omega) begun, readBytes_later 1 least most,
      if_neg (by decide), readBytes_later 0 (by omega) (by omega), if_pos rfl, bits, whole]
  next =>
    have bits : 64 * (64 * (64 * (v / 262144) + v / 4096 % 64) + v / 64 % 64) + v % 64 = v := by omega
    obtain ⟨low, high, begun, least, most⟩ := begin?_four (v := v) (by omega) (by omega)
    simp only [List.cons_append, List.nil_append]
    rw [readBytes_first (by omega) (by omega) begun, readBytes_later 2 least most,
      if_neg (by decide), readBytes_later 1 (by omega) (by omega), if_neg (by decide),
      readBytes_later 0 (by omega) (by omega), if_pos rfl, bits, whole]

/-- The UTF-8 form of a text needs no repair. -/
theorem readBytes_utf8 (cs : List Char) : readBytes none (cs.flatMap String.utf8EncodeChar) = cs := by
  induction cs with
  | nil => rfl
  | cons c rest ih => rw [List.flatMap_cons, readBytes_utf8EncodeChar, ih]

/-! ### Form encoding -/

/-- The bytes that form encoding stands for. -/
def formBytes : List Char → List UInt8
  | [] => []
  | '+' :: rest => 0x20 :: formBytes rest
  | '%' :: a :: b :: rest =>
    match Json.Token.hexValue? a, Json.Token.hexValue? b with
    | some high, some low => UInt8.ofNat (16 * high + low) :: formBytes rest
    | _, _ => 0x25 :: formBytes (a :: b :: rest)
  | c :: rest => String.utf8EncodeChar c ++ formBytes rest

/-- The text that form encoding stands for. -/
def formDecode (cs : List Char) : List Char :=
  readBytes none (formBytes cs)

/-- A character of form encoding. -/
def IsFormChar (c : Char) : Prop :=
  c.isAlphanum = true ∨ c ∈ ['*', '-', '.', '_', '+', '%']

instance (c : Char) : Decidable (IsFormChar c) :=
  inferInstanceAs (Decidable (_ ∨ _))

/-- A byte that stands for itself is its own UTF-8 form, and none of the characters that do not stand for
themselves. -/
theorem formPlain_spec (b : UInt8) (plain : isFormPlain b = true) :
    IsFormChar (Char.ofNat b.toNat) ∧ Char.ofNat b.toNat ≠ '+' ∧ Char.ofNat b.toNat ≠ '%' ∧
      String.utf8EncodeChar (Char.ofNat b.toNat) = [b] := by
  have all : ∀ n < 256, isFormPlain (UInt8.ofNat n) = true →
      IsFormChar (Char.ofNat n) ∧ Char.ofNat n ≠ '+' ∧ Char.ofNat n ≠ '%' ∧
        String.utf8EncodeChar (Char.ofNat n) = [UInt8.ofNat n] := by
    decide +kernel
  have here := all b.toNat b.toNat_lt
  rw [UInt8.ofNat_toNat] at here
  exact here plain

theorem hexValue?_hexDigit {d : Nat} (h : d < 16) : Json.Token.hexValue? (hexDigit d) = some d := by
  have all : ∀ d < 16, Json.Token.hexValue? (hexDigit d) = some d := by decide
  exact all d h

theorem isFormChar_hexDigit {d : Nat} (h : d < 16) : IsFormChar (hexDigit d) := by
  have all : ∀ d < 16, (hexDigit d).isAlphanum = true := by decide
  exact .inl (all d h)

/-- A byte is read back from its form encoding. -/
theorem formBytes_formByte (b : UInt8) (rest : List Char) :
    formBytes (formByte b ++ rest) = b :: formBytes rest := by
  rw [formByte]
  split
  next plain =>
    obtain ⟨-, noSpace, noPercent, bytes⟩ := formPlain_spec b plain
    rw [List.singleton_append, formBytes, bytes]
    · rfl
    · exact noSpace
    · exact fun a b rest same => absurd same noPercent
  split
  next space => rw [List.singleton_append, formBytes, space]
  next =>
    have small := b.toNat_lt
    have high := hexValue?_hexDigit (d := b.toNat / 16) (by omega)
    have low := hexValue?_hexDigit (d := b.toNat % 16) (by omega)
    have value : 16 * (b.toNat / 16) + b.toNat % 16 = b.toNat := by omega
    simp only [List.cons_append, List.nil_append]
    rw [formBytes, high, low]
    simp only [value, UInt8.ofNat_toNat]

/-- Bytes that were encoded for a form are read back. -/
theorem formBytes_flatMap (bytes : List UInt8) : formBytes (bytes.flatMap formByte) = bytes := by
  induction bytes with
  | nil => rfl
  | cons b rest ih => rw [List.flatMap_cons, formBytes_formByte, ih]

/-- Form encoding stands for the text that was encoded. -/
theorem formDecode_formEncode (cs : List Char) : formDecode (formEncode cs) = cs := by
  rw [formDecode, formEncode, formBytes_flatMap, readBytes_utf8]

theorem isFormChar_of_mem_formByte {b : UInt8} {c : Char} (h : c ∈ formByte b) : IsFormChar c := by
  have small := b.toNat_lt
  rw [formByte] at h
  split at h
  next plain =>
    obtain rfl := List.mem_singleton.1 h
    exact (formPlain_spec b plain).1
  split at h
  next =>
    obtain rfl := List.mem_singleton.1 h
    exact .inr (by decide)
  next =>
    simp only [List.mem_cons, List.not_mem_nil, or_false] at h
    rcases h with rfl | rfl | rfl
    · exact .inr (by decide)
    · exact isFormChar_hexDigit (by omega)
    · exact isFormChar_hexDigit (by omega)

/-- What is encoded for a form holds plain characters only. -/
theorem isFormChar_of_mem_formEncode {cs : List Char} {c : Char} (h : c ∈ formEncode cs) : IsFormChar c := by
  obtain ⟨b, _, here⟩ := List.mem_flatMap.1 h
  exact isFormChar_of_mem_formByte here

/-- No separator of a query occurs in form encoding. -/
theorem not_mem_formEncode {separator : Char} (h : separator = '&' ∨ separator = '=') (cs : List Char) :
    separator ∉ formEncode cs := by
  intro mem
  have plain := isFormChar_of_mem_formEncode mem
  rcases h with rfl | rfl <;> exact absurd plain (by decide)

end ConsumerContract.Text
