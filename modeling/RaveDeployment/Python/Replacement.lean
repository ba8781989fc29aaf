import RaveDeployment.Python.Utf8

/-!
# UTF-8 with replacement

`data.decode(errors="replace")`. What is no part of a character is replaced piece by piece, a piece
being as long as it could have begun a character. A text that is encoded is read back
(`decodeReplace_encodeUtf8`), so that nothing is replaced in it.
-/

namespace Rave.Py

def secondByte (first second : UInt8) : Bool :=
  if first = 0xe0 then 0xa0 ≤ second && second ≤ 0xbf
  else if first = 0xed then 0x80 ≤ second && second ≤ 0x9f
  else if first = 0xf0 then 0x90 ≤ second && second ≤ 0xbf
  else if first = 0xf4 then 0x80 ≤ second && second ≤ 0x8f
  else 0x80 ≤ second && second ≤ 0xbf

/-- The length of the piece at the front that begins a character and does not complete it. -/
def brokenLength : List UInt8 → Nat
  | first :: second :: rest =>
    if 0xe0 ≤ first && first ≤ 0xef && secondByte first second then 2
    else if 0xf0 ≤ first && first ≤ 0xf4 && secondByte first second then
      match rest with
      | third :: _ => if 0x80 ≤ third && third ≤ 0xbf then 3 else 2
      | [] => 2
    else 1
  | _ => 1

/-- The loop of the decoder, for at most so many pieces. -/
def decodeReplaceFrom : Nat → List UInt8 → List Char
  | 0, _ => []
  | _ + 1, [] => []
  | n + 1, data =>
    match data.toByteArray.utf8DecodeChar? 0 with
    | some c => c :: decodeReplaceFrom n (data.drop c.utf8Size)
    | none => '\ufffd' :: decodeReplaceFrom n (data.drop (brokenLength data))

/-- `data.decode("utf-8", errors="replace")`. -/
def decodeReplace (data : List UInt8) : List Char :=
  decodeReplaceFrom data.length data

/-- Nothing is replaced in what was encoded. -/
theorem decodeReplaceFrom_encodeUtf8 (text : List Char) {n : Nat}
    (hn : (encodeUtf8 text).length ≤ n) : decodeReplaceFrom n (encodeUtf8 text) = text := by
  induction text generalizing n with
  | nil => cases n <;> rfl
  | cons c cs ih =>
    have hsize : (String.utf8EncodeChar c).length = c.utf8Size := String.length_utf8EncodeChar c
    have hpos := c.utf8Size_pos
    rw [encodeUtf8_cons, List.length_append, hsize] at hn
    -- the first byte is there, and the reader finds the whole character
    obtain ⟨b, bs, hcons⟩ : ∃ b bs, encodeUtf8 (c :: cs) = b :: bs := by
      apply List.exists_cons_of_ne_nil
      rw [encodeUtf8_cons]
      intro hnil
      rw [(List.append_eq_nil_iff.mp hnil).1, List.length_nil] at hsize
      omega
    have hread : (encodeUtf8 (c :: cs)).toByteArray.utf8DecodeChar? 0 = some c :=
      List.utf8DecodeChar?_utf8Encode_cons
    -- what follows that character is the rest of the text
    have hdrop : (encodeUtf8 (c :: cs)).drop c.utf8Size = encodeUtf8 cs := by
      rw [encodeUtf8_cons, ← hsize, List.drop_left]
    cases n with
    | zero => omega
    | succ n =>
      have hstep : decodeReplaceFrom (n + 1) (encodeUtf8 (c :: cs))
          = c :: decodeReplaceFrom n ((encodeUtf8 (c :: cs)).drop c.utf8Size) := by
        rw [hcons] at hread ⊢
        rw [decodeReplaceFrom]
        · rw [hread]
        · exact List.cons_ne_nil b bs
      rw [hstep, hdrop, ih (by omega)]

/-- **An encoded text is read back.** -/
theorem decodeReplace_encodeUtf8 (text : List Char) : decodeReplace (encodeUtf8 text) = text :=
  decodeReplaceFrom_encodeUtf8 text (Nat.le_refl _)

end Rave.Py
