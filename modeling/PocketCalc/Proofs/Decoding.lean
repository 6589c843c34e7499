import PocketCalc.Session

/-!
# The bytes of a text

A list of bytes decodes to a text when it is the UTF-8 encoding of it. A byte below `0x80` is never
part of a longer encoding, so bytes may be cut before and after it: the parts decode on their own,
or the whole does not decode.
-/
namespace PocketCalc.Session

/-- The bytes of a text in UTF-8. -/
def encode (text : Text) : List UInt8 :=
  text.flatMap String.utf8EncodeChar

theorem encode_nil : encode [] = [] := rfl

theorem encode_cons (character : Char) (text : Text) :
    encode (character :: text) = String.utf8EncodeChar character ++ encode text := rfl

theorem encode_append (first second : Text) :
    encode (first ++ second) = encode first ++ encode second :=
  List.flatMap_append

theorem toByteArray_injective {first second : List UInt8}
    (same : first.toByteArray = second.toByteArray) : first = second := by
  have data := congrArg ByteArray.data same
  rw [List.data_toByteArray, List.data_toByteArray] at data
  exact List.toArray_inj data

theorem isValidUTF8_iff (bytes : List UInt8) :
    bytes.toByteArray.IsValidUTF8 ↔ ∃ text, encode text = bytes := by
  constructor
  · rintro ⟨text, same⟩
    exact ⟨text, (toByteArray_injective same).symm⟩
  · rintro ⟨text, rfl⟩
    exact ⟨text, rfl⟩

theorem decode?_eq_some_iff {bytes : List UInt8} {text : Text} :
    decode? bytes = some text ↔ encode text = bytes := by
  unfold decode? String.fromUTF8?
  constructor
  · intro decoded
    split at decoded
    next valid =>
      obtain rfl := Option.some.inj decoded
      have encoded : (String.fromUTF8 bytes.toByteArray valid).toList.utf8Encode =
          bytes.toByteArray := String.utf8Encode_toList
      exact toByteArray_injective encoded
    · cases decoded
  · rintro rfl
    rw [dif_pos ((isValidUTF8_iff _).mpr ⟨text, rfl⟩)]
    have string : String.fromUTF8 (encode text).toByteArray
        ((isValidUTF8_iff _).mpr ⟨text, rfl⟩) = String.ofList text := by
      rw [← String.toByteArray_inj, String.toByteArray_ofList]
      rfl
    rw [string]
    simp

theorem decode?_encode (text : Text) : decode? (encode text) = some text :=
  decode?_eq_some_iff.mpr rfl

theorem map_decode?_encode (texts : List Text) :
    (texts.map encode).map decode? = texts.map some := by
  rw [List.map_map]
  exact List.map_congr_left fun text _ => decode?_encode text

theorem isSome_decode? (bytes : List UInt8) :
    (decode? bytes).isSome ↔ bytes.toByteArray.IsValidUTF8 := by
  simp [Option.isSome_iff_exists, decode?_eq_some_iff, isValidUTF8_iff]

/-- Every byte of an encoding that is longer than one byte is `0x80` or more. -/
theorem le_of_mem_utf8EncodeChar {character : Char} (long : ¬ character.val.toNat ≤ 0x7F) :
    ∀ byte ∈ String.utf8EncodeChar character, 0x80 ≤ byte.toNat := by
  unfold String.utf8EncodeChar
  dsimp only
  rw [if_neg long]
  repeat' split
  all_goals
    simp only [List.forall_mem_cons, List.not_mem_nil, false_implies, implies_true, and_true,
      UInt8.toNat_ofNat']
    omega

/-- A byte below `0x80` in the encoding of a character is the whole encoding. -/
theorem utf8EncodeChar_of_mem {character : Char} {byte : UInt8}
    (member : byte ∈ String.utf8EncodeChar character) (ascii : byte < 0x80) :
    String.utf8EncodeChar character = [byte] := by
  by_cases short : character.val.toNat ≤ 0x7F
  · unfold String.utf8EncodeChar at member ⊢
    dsimp only at member ⊢
    rw [if_pos short] at member ⊢
    rw [List.mem_singleton.mp member]
  · have large := le_of_mem_utf8EncodeChar short byte member
    have small : byte.toNat < 0x80 := ascii
    omega

theorem exists_of_encode_eq {text : Text} {front back : List UInt8} {byte : UInt8}
    (ascii : byte < 0x80) (encoded : encode text = front ++ byte :: back) :
    ∃ before character after, text = before ++ character :: after ∧ encode before = front ∧
      String.utf8EncodeChar character = [byte] ∧ encode after = back := by
  induction text generalizing front with
  | nil => simp [encode_nil] at encoded
  | cons first rest ih =>
    -- The byte is one of the first character, or it is met in the rest.
    have later {front' : List UInt8} (cut : front = String.utf8EncodeChar first ++ front')
        (tail : encode rest = front' ++ byte :: back) :
        ∃ before character after, first :: rest = before ++ character :: after ∧
          encode before = front ∧ String.utf8EncodeChar character = [byte] ∧
          encode after = back := by
      obtain ⟨before, character, after, rfl, start, single, finish⟩ := ih tail
      refine ⟨first :: before, character, after, rfl, ?_, single, finish⟩
      rw [encode_cons, start, cut]
    rw [encode_cons] at encoded
    rcases List.append_eq_append_iff.mp encoded with ⟨front', cut, tail⟩ | ⟨bytes, cut, tail⟩
    · exact later cut tail
    · cases bytes with
      | nil =>
        apply @later []
        · simpa using cut.symm
        · exact tail.symm
      | cons next others =>
        obtain ⟨rfl, rfl⟩ := List.cons.inj tail
        have single : String.utf8EncodeChar first = [byte] :=
          utf8EncodeChar_of_mem (by simp [cut]) ascii
        rw [single] at cut
        obtain ⟨rfl, rfl⟩ : front = [] ∧ others = [] := by
          cases front with
          | nil => exact ⟨rfl, (List.cons.inj cut).2.symm⟩
          | cons => simp at cut
        exact ⟨[], first, rest, rfl, rfl, single, rfl⟩

/-- Bytes around a character of one byte decode on their own, or not at all. -/
theorem decode?_append_cons {character : Char} {byte : UInt8}
    (single : String.utf8EncodeChar character = [byte]) (ascii : byte < 0x80)
    (front back : List UInt8) :
    decode? (front ++ byte :: back) =
      (decode? front).bind fun before =>
        (decode? back).map fun after => before ++ character :: after := by
  apply Option.ext
  intro text
  simp only [decode?_eq_some_iff, Option.bind_eq_some_iff, Option.map_eq_some_iff]
  constructor
  · intro encoded
    obtain ⟨before, met, after, rfl, start, same, finish⟩ := exists_of_encode_eq ascii encoded
    refine ⟨before, start, after, finish, ?_⟩
    have both : decode? (encode [met]) = decode? (encode [character]) := by
      simp [encode, same, single]
    rw [decode?_encode, decode?_encode] at both
    cases both
    rfl
  · rintro ⟨before, rfl, after, rfl, rfl⟩
    rw [encode_append, encode_cons, single]
    rfl

end PocketCalc.Session
