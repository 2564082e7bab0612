import Mathlib.Data.List.Basic
import Folio.Page.Bytes
import Folio.Text.Lines

/-!
# The lines of bytes

A line feed is one byte, and no other character has that byte in its encoding.  So the
lines of a text, encoded, are the lines of the bytes that encode it.  Bytes that end in a
line feed have the same lines whatever comes after them.
-/

namespace Folio

namespace Text

/-! ## Characters as bytes -/

theorem high_of_mem_utf8EncodeChar {c : Char} {b : UInt8} (wide : 127 < c.val.toNat)
    (mem : b ∈ String.utf8EncodeChar c) : 128 ≤ b.toNat := by
  simp only [String.utf8EncodeChar, if_neg (Nat.not_le.mpr wide)] at mem
  -- First bytes are marked by adding at least 192 and the others by adding 128.
  by_cases two : c.val.toNat ≤ 2047
  · simp only [if_pos two, List.mem_cons, List.not_mem_nil, or_false] at mem
    rcases mem with rfl | rfl <;> rw [UInt8.toNat_ofNat'] <;> omega
  by_cases three : c.val.toNat ≤ 65535
  · simp only [if_neg two, if_pos three, List.mem_cons, List.not_mem_nil, or_false] at mem
    rcases mem with rfl | rfl | rfl <;> rw [UInt8.toNat_ofNat'] <;> omega
  · simp only [if_neg two, if_neg three, List.mem_cons, List.not_mem_nil, or_false] at mem
    rcases mem with rfl | rfl | rfl | rfl <;> rw [UInt8.toNat_ofNat'] <;> omega

theorem eq_newline_of_mem_utf8EncodeChar {c : Char} (mem : 10 ∈ String.utf8EncodeChar c) : c = '\n' := by
  by_cases wide : 127 < c.val.toNat
  · exact absurd (high_of_mem_utf8EncodeChar wide mem) (by decide)
  · simp only [String.utf8EncodeChar, if_pos (Nat.not_lt.mp wide), List.mem_singleton] at mem
    have value : 10 = c.val.toNat % 2 ^ 8 := by
      rw [← UInt8.toNat_ofNat', ← mem]
      rfl
    refine Char.ext (UInt32.toNat_inj.mp ?_)
    rw [show '\n'.val.toNat = 10 from rfl]
    omega

end Text

namespace Page

variable {bytes front line other : List UInt8} {lines before after : List (List UInt8)}

/-! ## Cutting and joining -/

theorem byteLines_cons (b : UInt8) (bytes : List UInt8) :
    byteLines (b :: bytes) =
      if b = 10 then [b] :: byteLines bytes
      else (b :: (byteLines bytes).headD []) :: (byteLines bytes).tail := by
  rw [byteLines]
  cases byteLines bytes <;> rfl

theorem byteLines_eq_nil_iff : byteLines bytes = [] ↔ bytes = [] := by
  cases bytes with
  | nil => simp [byteLines]
  | cons b bytes =>
    rw [byteLines_cons]
    split <;> simp

theorem byteLines_append (ends : front.getLast? = some 10) (other : List UInt8) :
    byteLines (front ++ other) = byteLines front ++ byteLines other := by
  induction front with
  | nil => contradiction
  | cons b front ih =>
    rw [List.cons_append, byteLines_cons, byteLines_cons]
    cases front with
    | nil =>
      obtain rfl : b = 10 := by simpa using ends
      rfl
    | cons c front =>
      obtain ⟨line, lines, cut⟩ := List.exists_cons_of_ne_nil (mt byteLines_eq_nil_iff.mp (List.cons_ne_nil c front))
      rw [ih (by simpa using ends), cut]
      split <;> rfl

theorem byteLines_oneLine_append (present : line ≠ []) (oneLine : 10 ∉ line) (other : List UInt8) :
    byteLines (line ++ other) = (line ++ (byteLines other).headD []) :: (byteLines other).tail := by
  induction line with
  | nil => contradiction
  | cons b line ih =>
    simp only [List.mem_cons, not_or] at oneLine
    rw [List.cons_append, byteLines_cons, if_neg (Ne.symm oneLine.1)]
    cases line with
    | nil => rfl
    | cons c line =>
      rw [ih (by simp) oneLine.2]
      rfl

/-- What is cut off first is a line, and it is whole or the last. -/
theorem eq_append_of_byteLines_cons (cut : byteLines bytes = line :: lines) :
    ∃ rest, bytes = line ++ rest ∧ byteLines line = [line] ∧ byteLines rest = lines ∧
      (rest = [] ∨ line.getLast? = some 10) := by
  induction bytes generalizing line with
  | nil => contradiction
  | cons b bytes ih =>
    rw [byteLines_cons] at cut
    by_cases feed : b = 10
    · rw [if_pos feed, feed] at cut
      obtain ⟨rfl, rfl⟩ := List.cons.inj cut
      exact ⟨bytes, by rw [feed]; rfl, rfl, rfl, .inr rfl⟩
    · rw [if_neg feed] at cut
      cases more : byteLines bytes with
      | nil =>
        rw [more] at cut
        obtain ⟨rfl, rfl⟩ := List.cons.inj cut
        obtain rfl := byteLines_eq_nil_iff.mp more
        exact ⟨[], rfl, by simp [byteLines, feed], rfl, .inl rfl⟩
      | cons first below =>
        rw [more] at cut
        obtain ⟨rfl, rfl⟩ := List.cons.inj cut
        obtain ⟨rest, rfl, single, lower, whole⟩ := ih more
        refine ⟨rest, rfl, by simp [byteLines_cons, feed, single], lower, whole.imp_right fun ends => ?_⟩
        exact List.mem_getLast?_cons ends

theorem eq_append_of_byteLines_append (cut : byteLines bytes = before ++ after) :
    ∃ front rest, bytes = front ++ rest ∧ byteLines front = before ∧ byteLines rest = after ∧
      (rest = [] ∨ before = [] ∨ front.getLast? = some 10) := by
  induction before generalizing bytes with
  | nil => exact ⟨[], bytes, rfl, rfl, cut, .inr (.inl rfl)⟩
  | cons line before ih =>
    obtain ⟨below, rfl, single, lower, whole⟩ := eq_append_of_byteLines_cons cut
    obtain ⟨front, rest, rfl, upper, others, ends⟩ := ih lower
    refine ⟨line ++ front, rest, (List.append_assoc ..).symm, ?_, others, ?_⟩
    · obtain last | whole := whole
      · obtain ⟨rfl, rfl⟩ := List.append_eq_nil_iff.mp last
        rw [List.append_nil, single, ← upper]
        rfl
      · rw [byteLines_append whole, single, upper]
        rfl
    · obtain none | rfl | ends := ends
      · exact .inl none
      · obtain rfl := byteLines_eq_nil_iff.mp upper
        obtain last | whole := whole
        · exact .inl last
        · exact .inr (.inr (by simpa using whole))
      · exact .inr (.inr (by simp [ends]))

/-! ## The bytes of a text -/

theorem byteLines_flatMap (cs : List Char) :
    byteLines (cs.flatMap String.utf8EncodeChar) = (Text.linesOf cs).map (·.flatMap String.utf8EncodeChar) := by
  induction cs with
  | nil => rfl
  | cons c cs ih =>
    rw [List.flatMap_cons, Text.linesOf]
    split
    · rename_i newline
      subst newline
      rw [List.map_cons, ← ih]
      rfl
    · rename_i other
      have oneLine : 10 ∉ String.utf8EncodeChar c := fun mem => other (Text.eq_newline_of_mem_utf8EncodeChar mem)
      rw [byteLines_oneLine_append String.utf8EncodeChar_ne_nil oneLine, ih]
      cases Text.linesOf cs <;> simp

end Page

end Folio
