import Dbx.Lib.Text

/-!
# UTF-8 in pieces

The encoding of a text, and what a cut through it looks like: a front of an encoding is the
encoding of a front of the text and the first bytes of the character after it
(`exists_cut`). The characters before a cut and the bytes behind them are determined by the
front alone (`cut_unique`), so a decoder can give out the one and keep the other.
-/
namespace Dbx.Lib.Utf8

open Dbx.Lib.Text List

def encode (t : Str) : List UInt8 := t.flatMap String.utf8EncodeChar

@[simp] theorem encode_nil : encode [] = [] := rfl

theorem encode_cons (c : Char) (t : Str) : encode (c :: t) = String.utf8EncodeChar c ++ encode t :=
  flatMap_cons

/-- The first bytes, but not all bytes, of a character. -/
def Incomplete (bytes : List UInt8) : Prop :=
  ∃ c suffix, suffix ≠ [] ∧ String.utf8EncodeChar c = bytes ++ suffix

theorem incomplete_nil : Incomplete [] :=
  ⟨'a', String.utf8EncodeChar 'a', String.utf8EncodeChar_ne_nil, rfl⟩

/-- Only the single byte of an ASCII character is below 128. -/
theorem ge_of_mem_encodeChar {c : Char} {byte : UInt8} (member : byte ∈ String.utf8EncodeChar c)
    (several : 1 < (String.utf8EncodeChar c).length) : 128 ≤ byte := by
  have high : ∀ n : Nat, 128 ≤ n → n < 256 → (128 : UInt8) ≤ UInt8.ofNat n := by
    intro n low small
    rw [UInt8.le_iff_toNat_le, UInt8.toNat_ofNat_of_lt' (by simpa using small)]
    simpa using low
  unfold String.utf8EncodeChar at member several
  dsimp only at member several
  split at member
  · rename_i small
    rw [if_pos small] at several
    simp at several
  repeat' split at member
  all_goals
    simp only [mem_cons, not_mem_nil, or_false] at member
    rcases member with rfl | rfl | rfl | rfl
  all_goals (apply high <;> omega)

theorem Incomplete.length_le {bytes : List UInt8} (h : Incomplete bytes) : bytes.length ≤ 3 := by
  obtain ⟨c, suffix, nonempty, whole⟩ := h
  have length := String.length_utf8EncodeChar c
  rw [whole, length_append] at length
  have := c.utf8Size_le_four
  have := length_pos_iff.mpr nonempty
  omega

theorem Incomplete.ge {bytes : List UInt8} (h : Incomplete bytes) {byte : UInt8}
    (member : byte ∈ bytes) : 128 ≤ byte := by
  obtain ⟨c, suffix, nonempty, whole⟩ := h
  apply @ge_of_mem_encodeChar c
  · rw [whole]
    exact mem_append_left _ member
  rw [whole, length_append]
  have := length_pos_iff.mpr nonempty
  have := length_pos_of_mem member
  omega

/-- The characters before a cut, the bytes behind them, and the text from there on. -/
theorem exists_cut {front back : List UInt8} {t : Str} (same : front ++ back = encode t) :
    ∃ before held after, t = before ++ after ∧ front = encode before ++ held ∧
      held ++ back = encode after ∧
      (held = [] ∨ ∃ c rest suffix, after = c :: rest ∧ suffix ≠ [] ∧
        String.utf8EncodeChar c = held ++ suffix) := by
  induction t generalizing front with
  | nil =>
    rw [encode_nil, append_eq_nil_iff] at same
    exact ⟨[], [], [], rfl, same.1, by simpa using same.2, .inl rfl⟩
  | cons c t ih =>
    rw [encode_cons] at same
    rcases append_eq_append_iff.mp same with ⟨suffix, inChar, rest⟩ | ⟨more, inFront, rest⟩
    · cases suffix with
      | nil =>
        refine ⟨[c], [], t, rfl, ?_, by simpa using rest, .inl rfl⟩
        simp [encode, inChar]
      | cons byte suffix =>
        refine ⟨[], front, c :: t, rfl, rfl, ?_, .inr ⟨c, t, byte :: suffix, rfl, by simp, inChar⟩⟩
        rw [same, encode_cons]
    · obtain ⟨before, held, after, rfl, cut, later, kind⟩ := ih rest.symm
      refine ⟨c :: before, held, after, rfl, ?_, later, kind⟩
      rw [inFront, cut, encode_cons, append_assoc]

/-- A character can be told from the bytes behind it. -/
theorem encodeChar_append_inj {c d : Char} {t u : List UInt8}
    (same : String.utf8EncodeChar c ++ t = String.utf8EncodeChar d ++ u) : c = d ∧ t = u := by
  have decodes : ∀ (c : Char) (t : List UInt8),
      (String.utf8EncodeChar c ++ t).toByteArray.utf8DecodeChar? 0 = some c := by
    intro c t
    rw [toByteArray_append]
    exact ByteArray.utf8DecodeChar?_utf8EncodeChar_append
  have first := decodes c t
  rw [same, decodes d u] at first
  obtain rfl := Option.some.inj first
  exact ⟨rfl, append_cancel_left same⟩

/-- The characters and the bytes behind them are determined by their front. -/
theorem cut_unique {t u : Str} {held held' : List UInt8} (incomplete : Incomplete held)
    (incomplete' : Incomplete held') (same : encode t ++ held = encode u ++ held') :
    t = u ∧ held = held' := by
  -- A held back part has no character in it.
  have noChar : ∀ {bytes : List UInt8} {c : Char} {rest : List UInt8}, Incomplete bytes →
      bytes ≠ String.utf8EncodeChar c ++ rest := by
    rintro _ c rest ⟨d, suffix, nonempty, whole⟩ rfl
    rw [append_assoc] at whole
    have same : String.utf8EncodeChar d ++ [] = String.utf8EncodeChar c ++ (rest ++ suffix) := by
      rw [append_nil, whole]
    have empty := (encodeChar_append_inj same).2
    exact nonempty (append_eq_nil_iff.mp empty.symm).2
  induction t generalizing u with
  | nil =>
    cases u with
    | nil => exact ⟨rfl, same⟩
    | cons d u =>
      rw [encode_nil, nil_append, encode_cons, append_assoc] at same
      exact absurd same (noChar incomplete)
  | cons c t ih =>
    rw [encode_cons, append_assoc] at same
    cases u with
    | nil =>
      exact absurd same.symm (noChar incomplete')
    | cons d u =>
      rw [encode_cons, append_assoc] at same
      obtain ⟨rfl, rest⟩ := encodeChar_append_inj same
      obtain ⟨rfl, rfl⟩ := ih rest
      exact ⟨rfl, rfl⟩

end Dbx.Lib.Utf8
