import Mathlib.Data.List.Basic

/-!
# Lossy decoding

Bytes read as UTF-8, with U+FFFD in the place of what is not: one for each longest piece that begins
like a character and does not go on like one.
-/

namespace Utf8

def continues (b : UInt8) : Bool := 0x80 ≤ b && b ≤ 0xBF

/-- Whether `b` may follow the first byte of a character of three or four bytes. -/
def mayFollow (first b : UInt8) : Bool :=
  if first = 0xE0 then 0xA0 ≤ b && b ≤ 0xBF
  else if first = 0xED then 0x80 ≤ b && b ≤ 0x9F
  else if first = 0xF0 then 0x90 ≤ b && b ≤ 0xBF
  else if first = 0xF4 then 0x80 ≤ b && b ≤ 0x8F
  else 0xE1 ≤ first && first ≤ 0xF3 && continues b

/-- How many bytes of a text that does not begin with a character one U+FFFD stands for. -/
def badLength : List UInt8 → Nat
  | first :: second :: third :: _ =>
    if mayFollow first second then if 0xF0 ≤ first && continues third then 3 else 2 else 1
  | [first, second] => if mayFollow first second then 2 else 1
  | _ => 1

theorem badLength_pos (bytes : List UInt8) : 0 < badLength bytes := by
  unfold badLength
  split
  · split
    · split <;> omega
    · omega
  · split <;> omega
  · omega

def decode : List UInt8 → List Char
  | [] => []
  | b :: bs =>
    match (b :: bs).toByteArray.utf8DecodeChar? 0 with
    | some c => c :: decode ((b :: bs).drop c.utf8Size)
    | none => '\uFFFD' :: decode ((b :: bs).drop (badLength (b :: bs)))
termination_by bytes => bytes.length
decreasing_by
  · have hpos := c.utf8Size_pos
    rw [List.length_drop, List.length_cons]
    omega
  · have hpos := badLength_pos (b :: bs)
    rw [List.length_drop, List.length_cons]
    omega

/-- What is read has no more characters than there are bytes. -/
theorem length_decode_le (bytes : List UInt8) : (decode bytes).length ≤ bytes.length := by
  fun_induction decode bytes with
  | case1 => exact Nat.le_refl _
  | case2 b bs c _ ih =>
      have hpos := c.utf8Size_pos
      rw [List.length_drop, List.length_cons] at ih
      rw [List.length_cons, List.length_cons]
      omega
  | case3 b bs _ ih =>
      have hpos := badLength_pos (b :: bs)
      rw [List.length_drop, List.length_cons] at ih
      rw [List.length_cons, List.length_cons]
      omega

/-- `String::from_utf8_lossy`. -/
def fromUtf8Lossy (bytes : List UInt8) : String := String.ofList (decode bytes)

def encode (text : List Char) : List UInt8 := text.flatMap String.utf8EncodeChar

/-- **Text survives.** -/
theorem decode_encode (text : List Char) : decode (encode text) = text := by
  induction text with
  | nil => simp [encode, decode]
  | cons c cs ih =>
      have hsplit : encode (c :: cs) = String.utf8EncodeChar c ++ encode cs := List.flatMap_cons
      have hlength : (String.utf8EncodeChar c).length = c.utf8Size := String.length_utf8EncodeChar c
      have hpos := c.utf8Size_pos
      obtain ⟨b, bs, hcons⟩ : ∃ b bs, encode (c :: cs) = b :: bs := by
        apply List.exists_cons_of_ne_nil
        intro hnil
        rw [hsplit, List.append_eq_nil_iff] at hnil
        rw [hnil.1, List.length_nil] at hlength
        omega
      have hhead : (b :: bs).toByteArray.utf8DecodeChar? 0 = some c := by
        rw [← hcons, hsplit, List.toByteArray_append]
        exact ByteArray.utf8DecodeChar?_utf8EncodeChar_append
      have hrest : (b :: bs).drop c.utf8Size = encode cs := by
        rw [← hcons, hsplit, ← hlength, List.drop_left]
      rw [hcons, decode, hhead]
      dsimp only
      rw [hrest, ih]

theorem fromUtf8Lossy_encode (s : String) : fromUtf8Lossy (encode s.toList) = s := by
  rw [fromUtf8Lossy, decode_encode, String.ofList_toList]

end Utf8
