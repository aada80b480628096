import ConsumerContract.Proofs.ByteScanning
import ConsumerContract.Proofs.TokenReading

/-!
# Texts of objects

All tokens of a value can be read, so a text that is read as the value is one that is cut into them
(`decodeText_eq_ok_iff`), and what holds of cutting holds of reading: the same is read from a text and from
its bytes, and nothing from bytes that are those of no text (`decodeBytes_eq_ok_iff`). A written value is read
as it is, with any blanks around it. Hence the answer to whether something is the text of an object
(`isObject_written`).
-/

namespace ConsumerContract.Json

/-! ### Texts and bytes -/

mutual

/-- All tokens of a value can be read. -/
theorem isRead_tokens : (v : Json) → ∀ t ∈ v.tokens, t.IsRead
  | .null | .bool _ | .num _ | .str _ => by
    unfold tokens
    exact List.forall_mem_singleton.2 trivial
  | .arr items => by
    unfold tokens
    have close : ∀ t ∈ [Token.closeArray], t.IsRead := List.forall_mem_singleton.2 trivial
    exact List.forall_mem_append.2 ⟨List.forall_mem_cons.2 ⟨trivial, isRead_tokensItems items⟩, close⟩
  | .obj members => by
    unfold tokens
    have close : ∀ t ∈ [Token.closeObject], t.IsRead := List.forall_mem_singleton.2 trivial
    exact List.forall_mem_append.2 ⟨List.forall_mem_cons.2 ⟨trivial, isRead_tokensMembers members⟩, close⟩

theorem isRead_tokensItems : (items : List Json) → ∀ t ∈ tokensItems items, t.IsRead
  | [] => List.forall_mem_nil _
  | [v] => isRead_tokens v
  | v :: w :: more => by
    unfold tokensItems
    have later := isRead_tokensItems (w :: more)
    exact List.forall_mem_append.2 ⟨isRead_tokens v, List.forall_mem_cons.2 ⟨trivial, later⟩⟩

theorem isRead_tokensMembers : (members : List (String × Json)) → ∀ t ∈ tokensMembers members, t.IsRead
  | [] => List.forall_mem_nil _
  | [(_, v)] => List.forall_mem_cons.2 ⟨trivial, List.forall_mem_cons.2 ⟨trivial, isRead_tokens v⟩⟩
  | (_, v) :: e :: more => by
    unfold tokensMembers
    have later := isRead_tokensMembers (e :: more)
    have comma : ∀ t ∈ Token.comma :: tokensMembers (e :: more), t.IsRead :=
      List.forall_mem_cons.2 ⟨trivial, later⟩
    have value := List.forall_mem_append.2 ⟨isRead_tokens v, comma⟩
    exact List.forall_mem_cons.2 ⟨trivial, List.forall_mem_cons.2 ⟨trivial, value⟩⟩

end

open Token (Cuts)

/-- A text is scanned as the tokens of a value exactly if it is cut into them. -/
theorem scanFrom_eq_tokens_iff {e : Encoding} {cs : List Char} {fuel : Nat} {v : Json}
    (enough : cs.length ≤ fuel) : Token.scanFrom e fuel cs = v.tokens ↔ Cuts e cs v.tokens := by
  constructor
  · intro h
    rw [← h]
    refine Token.cuts_of_scanFrom ?_ enough
    rw [h]
    exact isRead_tokens v
  · intro h
    exact Token.scanFrom_of_cuts h enough

/-- A value is read from the texts that are cut into its tokens. -/
theorem decodeText_eq_ok_iff {text : String} {v : Json} :
    decodeText Source.read text = .ok v ↔ Cuts .text text.toList v.tokens ∧ v.depth ≤ Source.maxDepth := by
  rw [decodeText, decodeTokens_eq_ok_iff, Token.scan, scanFrom_eq_tokens_iff (Nat.le_refl _)]

/-- A value is read from the bytes of the texts from which it is read, and from no others. -/
theorem decodeBytes_eq_ok_iff {bytes : ByteArray} {v : Json} :
    decodeBytes Source.read bytes = .ok v ↔
      ∃ text : String, bytes = text.toUTF8 ∧ decodeText Source.read text = .ok v := by
  have enough : (bytes.data.toList.map Encoding.ofByte).length ≤ bytes.size := by
    rw [List.length_map, Array.length_toList]
    exact Nat.le_refl _
  simp only [decodeText_eq_ok_iff]
  rw [decodeBytes, decodeTokens_eq_ok_iff, Token.scanBytes, scanFrom_eq_tokens_iff enough]
  constructor
  · rintro ⟨cuts, shallow⟩
    have small : ∀ c ∈ bytes.data.toList.map Encoding.ofByte, IsByte c :=
      List.forall_mem_map.2 fun b _ => Encoding.isByte_ofByte b
    obtain ⟨cs, same, cuts⟩ := cuts.exists_inBytes small
    refine ⟨String.ofList cs, eq_toUTF8_of_map_ofByte same, ?_, shallow⟩
    rwa [String.toList_ofList]
  · rintro ⟨text, rfl, cuts, shallow⟩
    rw [map_ofByte_toUTF8]
    exact ⟨cuts.inBytes, shallow⟩

/-! ### Objects -/

/-- An object is read exactly if a value is read that is one. -/
theorem readsObject_iff {x : Except Failure Json} :
    readsObject x = true ↔ ∃ v, x = .ok v ∧ v.isObject = true := by
  cases x <;> simp [readsObject]

/-- The bytes are those of the text of an object exactly if they are those of a text, and this is the text
of an object. -/
theorem isObjectBytes_iff {bytes : ByteArray} :
    isObjectBytes bytes = true ↔ ∃ text : String, bytes = text.toUTF8 ∧ isObjectText text = true := by
  simp only [isObjectBytes, isObjectText, readsObject_iff, decodeBytes_eq_ok_iff]
  constructor
  · rintro ⟨v, ⟨text, same, reads⟩, object⟩
    exact ⟨text, same, v, reads, object⟩
  · rintro ⟨text, same, v, reads, object⟩
    exact ⟨v, ⟨text, same, reads⟩, object⟩

/-- Only blanks. -/
def IsGap (text : String) : Prop :=
  ∀ c ∈ text.toList, Token.isGap c = true

instance (text : String) : Decidable (IsGap text) :=
  decidable_of_iff (text.toList.all Token.isGap = true) List.all_eq_true

theorem endsNumber_of_isGap {text : String} (h : IsGap text) : EndsNumber text.toList := by
  intro c cs shape
  have gap : Token.isGap c = true := h c (by rw [shape]; exact List.mem_cons_self)
  unfold Token.isGap at gap
  simp only [Bool.or_eq_true, beq_iff_eq] at gap
  rcases gap with ((rfl | rfl) | rfl) | rfl <;> decide

/-- A written value is read, whatever blanks stand around it. -/
theorem decodeText_surrounded {α : Type} (decode : Source → Except Failure α) {v : Json}
    {before after : String} (plain : v.Everywhere HasPlainNumber) (shallow : v.depth ≤ Source.maxDepth)
    (front : IsGap before) (back : IsGap after) :
    decodeText decode (before ++ v.compact ++ after) = decode (Source.ofJson v) := by
  apply decodeText_of_scan decode _ shallow
  have chars : (before ++ v.compact ++ after).toList =
      before.toList ++ (v.chars ++ after.toList) := by
    rw [String.toList_append, String.toList_append, compact, String.toList_ofList, List.append_assoc]
  have blank : Token.Scans after.toList [] [] := .gap back []
  have value : Token.Scans v.chars v.tokens (after.toList ++ []) := by
    rw [List.append_nil]
    exact scans_chars v plain (endsNumber_of_isGap back)
  have whole := (Token.Scans.gap front _).append (value.append blank)
  rw [List.append_nil, List.nil_append] at whole
  rw [chars]
  exact Token.scan_of_scans whole

/-- What is taken for the text of an object: among the values with integers, written with any blanks
around them, the objects; among bytes, those of such a text. -/
theorem isObject_written :
    (∀ (v : Json) (before after : String), v.Everywhere HasPlainNumber → v.depth ≤ Source.maxDepth →
        IsGap before → IsGap after → isObjectText (before ++ v.compact ++ after) = v.isObject) ∧
      (∀ text : String, isObjectBytes text.toUTF8 = isObjectText text) ∧
      ∀ bytes : ByteArray, ¬ bytes.IsValidUTF8 → isObjectBytes bytes = false := by
  refine ⟨?_, ?_, ?_⟩
  · intro v before after plain shallow front back
    rw [isObjectText, decodeText_surrounded _ plain shallow front back, Source.read_ofJson]
    rfl
  · intro text
    rw [Bool.eq_iff_iff, isObjectBytes_iff]
    constructor
    · rintro ⟨other, same, object⟩
      rw [String.toUTF8_eq_toByteArray, String.toUTF8_eq_toByteArray] at same
      rwa [String.toByteArray_inj.1 same]
    · intro object
      exact ⟨text, rfl, object⟩
  · intro bytes invalid
    rw [Bool.eq_false_iff]
    intro object
    obtain ⟨text, rfl, -⟩ := isObjectBytes_iff.1 object
    exact invalid text.isValidUTF8

namespace NestedText

/-- A value with characters that are escaped and characters of several bytes. -/
def value : Json :=
  .obj [("naïve \"k\"", .arr [.int (-7), .str "\x01\\é😀", .obj []]), ("", .null)]

/-- The text of an object whose key is no UTF-8. -/
def latin : ByteArray :=
  ⟨#[0x7b, 0x22, 0xff, 0x22, 0x3a, 0x31, 0x7d]⟩

theorem isObject_written_nested :
    isObjectText (" \n" ++ value.compact ++ "\t\r") = true ∧
      isObjectBytes (" \n" ++ value.compact ++ "\t\r").toUTF8 = true ∧ isObjectBytes latin = false := by
  have plain : value.Everywhere HasPlainNumber := by
    have seven : (Number.int (-7)).IsPlain := ⟨by decide, by decide⟩
    simp [value, int, Everywhere, EveryItem, EveryMember, HasPlainNumber, seven]
  have invalid : ¬ latin.IsValidUTF8 := by decide +kernel
  obtain ⟨written, alike, refused⟩ := isObject_written
  have object := written value " \n" "\t\r" plain (by decide) (by decide) (by decide)
  exact ⟨object, (alike _).trans object, refused latin invalid⟩

end NestedText

end ConsumerContract.Json
