import ConsumerContract.Json.Token
import ConsumerContract.Proofs.FormEncoding
import ConsumerContract.Text.CodePoints

/-!
# Characters by their bytes

`inBytes cs` is what the scanner is given when the characters `cs` come by their bytes. An ASCII character
is given as itself. Any other character begins with one that is no continuation byte and goes on with
continuation bytes (`write_cases`), so what is written can be cut into characters in one way only
(`write_append_inj`), and it is read back as the string of these characters and of no others.
-/

namespace ConsumerContract.Json

/-- A character of one byte. -/
def IsAscii (c : Char) : Prop :=
  c.toNat < 0x80

instance (c : Char) : Decidable (IsAscii c) :=
  inferInstanceAs (Decidable (c.toNat < 0x80))

/-- A character that stands for a byte. -/
def IsByte (c : Char) : Prop :=
  c.toNat < 0x100

/-- A character that stands for a byte with which no character begins. -/
def Continues (c : Char) : Prop :=
  0x80 ≤ c.toNat ∧ c.toNat < 0xc0

/-- What stands for the bytes of `cs`. -/
def inBytes (cs : List Char) : List Char :=
  cs.flatMap Encoding.utf8.write

namespace Encoding

theorem toNat_ofByte (b : UInt8) : (ofByte b).toNat = b.toNat := by
  have small := b.toNat_lt
  have valid : b.toNat.isValidChar := .inl (by omega)
  exact Text.toNat_ofNat valid

theorem isByte_ofByte (b : UInt8) : IsByte (ofByte b) := by
  unfold IsByte
  rw [toNat_ofByte]
  exact b.toNat_lt

theorem toUInt8_ofByte (b : UInt8) : (ofByte b).toUInt8 = b := by
  apply UInt8.toNat_inj.1
  have small := b.toNat_lt
  have same := toNat_ofByte b
  rw [Char.toUInt8, UInt32.toNat_toUInt8]
  change (ofByte b).toNat % 256 = b.toNat
  omega

/-- A character that stands for a byte is that of its byte. -/
theorem ofByte_toUInt8 {c : Char} (h : IsByte c) : ofByte c.toUInt8 = c := by
  have same : c.toUInt8.toNat = c.toNat := by
    rw [Char.toUInt8, UInt32.toNat_toUInt8]
    exact Nat.mod_eq_of_lt h
  rw [ofByte, same, Char.ofNat_toNat]

theorem map_toUInt8_ofByte (bytes : List UInt8) : (bytes.map ofByte).map Char.toUInt8 = bytes := by
  rw [List.map_map]
  exact (List.map_congr_left fun b _ => toUInt8_ofByte b).trans (List.map_id bytes)

theorem map_ofByte_toUInt8 {cs : List Char} (h : ∀ c ∈ cs, IsByte c) :
    (cs.map Char.toUInt8).map ofByte = cs := by
  rw [List.map_map]
  exact (List.map_congr_left fun c hc => ofByte_toUInt8 (h c hc)).trans (List.map_id cs)

/-! ### One character -/

/-- A character of ASCII is one byte. -/
theorem write_of_isAscii {c : Char} (h : IsAscii c) : Encoding.utf8.write c = [c] := by
  have one : c.utf8Size = 1 := by
    rw [Char.utf8Size_eq_one_iff, UInt32.le_iff_toNat_le]
    exact Nat.le_of_lt_succ h
  have byte : IsByte c := Nat.lt_trans h (by decide)
  rw [write, String.utf8EncodeChar_eq_singleton one]
  exact congrArg (fun d => [d]) (ofByte_toUInt8 byte)

/-- A character that is not ASCII has a first byte with which it begins, and more to continue it. -/
theorem utf8EncodeChar_of_not_isAscii {c : Char} (h : ¬ IsAscii c) :
    ∃ b bs, String.utf8EncodeChar c = b :: bs ∧ 0xc0 ≤ b.toNat ∧
      ∀ d ∈ bs, 0x80 ≤ d.toNat ∧ d.toNat < 0xc0 := by
  have high : ¬ c.val.toNat ≤ 0x7f := fun low => h (Nat.lt_succ_of_le low)
  have valid : c.val.toNat < 0x110000 := by
    have range : c.val.toNat < 0xd800 ∨ 0xdfff < c.val.toNat ∧ c.val.toNat < 0x110000 := c.valid
    omega
  have first {n : Nat} (least : 0xc0 ≤ n) (most : n < 0x100) : 0xc0 ≤ (UInt8.ofNat n).toNat := by
    rw [UInt8.toNat_ofNat_of_lt' most]
    exact least
  have later (n : Nat) :
      0x80 ≤ (UInt8.ofNat (n % 64 + 128)).toNat ∧ (UInt8.ofNat (n % 64 + 128)).toNat < 0xc0 := by
    have small : n % 64 + 128 < 0x100 := by omega
    rw [UInt8.toNat_ofNat_of_lt' small]
    omega
  unfold String.utf8EncodeChar
  dsimp only
  generalize c.val.toNat = v at high valid ⊢
  rw [if_neg high]
  split
  next =>
    refine ⟨_, _, rfl, first (by omega) (by omega), ?_⟩
    exact List.forall_mem_singleton.2 (later v)
  split
  next =>
    refine ⟨_, _, rfl, first (by omega) (by omega), ?_⟩
    exact List.forall_mem_cons.2 ⟨later (v / 64), List.forall_mem_singleton.2 (later v)⟩
  next =>
    refine ⟨_, _, rfl, first (by omega) (by omega), ?_⟩
    exact List.forall_mem_cons.2 ⟨later (v / 4096),
      List.forall_mem_cons.2 ⟨later (v / 64), List.forall_mem_singleton.2 (later v)⟩⟩

/-- Any other character is a byte that begins a sequence, and bytes that continue it. -/
theorem write_of_not_isAscii {c : Char} (h : ¬ IsAscii c) :
    ∃ b bs, Encoding.utf8.write c = b :: bs ∧ 0xc0 ≤ b.toNat ∧ ∀ d ∈ bs, Continues d := by
  obtain ⟨b, bs, shape, first, later⟩ := utf8EncodeChar_of_not_isAscii h
  refine ⟨ofByte b, bs.map ofByte, ?_, ?_, ?_⟩
  · rw [write, shape, List.map_cons]
  · rw [toNat_ofByte]
    exact first
  · rw [List.forall_mem_map]
    intro d hd
    unfold Continues
    rw [toNat_ofByte]
    exact later d hd

/-- A character is written in the bytes that UTF-8 has for it. -/
theorem map_toUInt8_write (c : Char) :
    (Encoding.utf8.write c).map Char.toUInt8 = String.utf8EncodeChar c :=
  map_toUInt8_ofByte _

/-- The bytes of a character tell where they end, so what begins two texts of bytes alike is one
character. -/
theorem write_append_inj {c d : Char} {u v : List Char}
    (h : Encoding.utf8.write c ++ u = Encoding.utf8.write d ++ v) : c = d ∧ u = v := by
  have bytes := congrArg (fun cs => Text.readBytes none (cs.map Char.toUInt8)) h
  simp only [List.map_append, map_toUInt8_write, Text.readBytes_utf8EncodeChar] at bytes
  obtain ⟨rfl, -⟩ := List.cons.inj bytes
  exact ⟨rfl, List.append_cancel_left h⟩

theorem not_isAscii_of_mem_write {c : Char} (h : ¬ IsAscii c) :
    ∀ d ∈ Encoding.utf8.write c, ¬ IsAscii d := by
  obtain ⟨b, bs, shape, first, later⟩ := write_of_not_isAscii h
  rw [shape]
  refine List.forall_mem_cons.2 ⟨?_, fun d hd => Nat.not_lt.2 (later d hd).1⟩
  exact Nat.not_lt.2 (Nat.le_trans (by decide) first)

/-- No character begins with a continuation byte. -/
theorem write_append_ne {c d : Char} {u v : List Char} (h : Continues d) :
    Encoding.utf8.write c ++ u ≠ d :: v := by
  intro same
  obtain ⟨least, most⟩ := h
  by_cases ascii : IsAscii c
  · rw [write_of_isAscii ascii] at same
    obtain ⟨rfl, -⟩ := List.cons.inj same
    exact Nat.not_lt.2 least ascii
  · obtain ⟨b, bs, shape, first, -⟩ := write_of_not_isAscii ascii
    rw [shape] at same
    obtain ⟨rfl, -⟩ := List.cons.inj same
    exact Nat.not_lt.2 first most

theorem write_append_ne_nil {c : Char} {u : List Char} : Encoding.utf8.write c ++ u ≠ [] := by
  intro same
  have none : String.utf8EncodeChar c = [] := List.map_eq_nil_iff.1 (List.append_eq_nil_iff.1 same).1
  exact String.utf8EncodeChar_ne_nil none

end Encoding

/-! ### Texts -/

@[simp] theorem inBytes_nil : inBytes [] = [] :=
  rfl

theorem inBytes_cons (c : Char) (cs : List Char) :
    inBytes (c :: cs) = Encoding.utf8.write c ++ inBytes cs :=
  List.flatMap_cons

theorem inBytes_append (cs ds : List Char) : inBytes (cs ++ ds) = inBytes cs ++ inBytes ds :=
  List.flatMap_append

theorem inBytes_cons_of_isAscii {c : Char} (h : IsAscii c) (cs : List Char) :
    inBytes (c :: cs) = c :: inBytes cs := by
  rw [inBytes_cons, Encoding.write_of_isAscii h]
  rfl

/-- What is ASCII stands in the bytes as it stands in the text. -/
theorem inBytes_append_of_isAscii {cs : List Char} (h : ∀ c ∈ cs, IsAscii c) (ds : List Char) :
    inBytes (cs ++ ds) = cs ++ inBytes ds := by
  induction cs with
  | nil => rfl
  | cons c rest ih =>
    obtain ⟨first, others⟩ := List.forall_mem_cons.1 h
    rw [List.cons_append, inBytes_cons_of_isAscii first, ih others]
    rfl

/-- The bytes of a text are those of its characters in UTF-8. -/
theorem map_toUInt8_inBytes (cs : List Char) :
    (inBytes cs).map Char.toUInt8 = cs.flatMap String.utf8EncodeChar := by
  rw [inBytes, List.map_flatMap]
  simp only [Encoding.map_toUInt8_write]

/-! ### Strings -/

namespace Encoding

/-- The bytes of a string are this string. -/
theorem string?_inBytes (cs : List Char) :
    Encoding.utf8.string? (inBytes cs) = some (String.ofList cs) := by
  have bytes : ((inBytes cs).map Char.toUInt8).toByteArray = cs.utf8Encode := by
    rw [map_toUInt8_inBytes]
    rfl
  rw [string?, String.fromUTF8?, bytes, dif_pos ByteArray.isValidUTF8_utf8Encode]
  rfl

/-- Bytes that are a string are those of its characters. -/
theorem eq_inBytes_of_string? {u : List Char} {s : String} (bytes : ∀ c ∈ u, IsByte c)
    (h : Encoding.utf8.string? u = some s) : u = inBytes s.toList := by
  rw [string?, String.fromUTF8?] at h
  split at h
  next valid =>
    have same : (u.map Char.toUInt8).toByteArray = s.toList.utf8Encode := by
      rw [String.utf8Encode_toList, ← Option.some.inj h]
      rfl
    have whole := List.toByteArray_inj.1 same
    calc
      u = (u.map Char.toUInt8).map ofByte := (map_ofByte_toUInt8 bytes).symm
      _ = (s.toList.flatMap String.utf8EncodeChar).map ofByte := by rw [whole]
      _ = inBytes s.toList := by rw [List.map_flatMap]; rfl
  next => cases h

end Encoding

/-! ### Byte arrays -/

/-- The bytes of a string are those of its characters. -/
theorem map_ofByte_toUTF8 (text : String) :
    text.toUTF8.data.toList.map Encoding.ofByte = inBytes text.toList := by
  have bytes : text.toUTF8.data.toList = text.toList.flatMap String.utf8EncodeChar := by
    rw [String.toUTF8_eq_toByteArray, ← String.utf8Encode_toList]
    exact List.toList_data_toByteArray
  rw [bytes, List.map_flatMap]
  rfl

/-- Bytes that are those of some characters are a string in UTF-8. -/
theorem eq_toUTF8_of_map_ofByte {bytes : ByteArray} {cs : List Char}
    (h : bytes.data.toList.map Encoding.ofByte = inBytes cs) : bytes = (String.ofList cs).toUTF8 := by
  have same : bytes.data.toList = cs.flatMap String.utf8EncodeChar := by
    rw [← map_toUInt8_inBytes, ← h, Encoding.map_toUInt8_ofByte]
  apply ByteArray.ext
  apply Array.toList_inj.1
  rw [same, String.toUTF8_eq_toByteArray, String.toByteArray_ofList]
  exact List.toList_data_toByteArray.symm

end ConsumerContract.Json
