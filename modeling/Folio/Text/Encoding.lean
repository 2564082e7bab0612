/-!
# Text as bytes

Text is encoded in sequences of one to four bytes.  The first byte of a sequence says in
which ranges the bytes after it have to lie, so that each character has one encoding and
no surrogate has any.  Bytes that encode no text have a first flaw: a place up to which
they do, and what is wrong there.
-/

namespace Folio.Text

def encode (text : String) : List UInt8 :=
  text.toUTF8.data.toList

def decode? (bytes : List UInt8) : Option String :=
  String.fromUTF8? (ByteArray.mk bytes.toArray)

theorem encode_ofList (cs : List Char) : encode (String.ofList cs) = cs.flatMap String.utf8EncodeChar := by
  rw [encode, String.toUTF8_eq_toByteArray, String.toByteArray_ofList, List.utf8Encode]
  exact List.toList_data_toByteArray

theorem decode?_encode (text : String) : decode? (encode text) = some text := by
  have same : ByteArray.mk (encode text).toArray = text.toByteArray := rfl
  rw [decode?, same, String.fromUTF8?, dif_pos text.isValidUTF8]
  rfl

/-! ## Flaws -/

/-- Where bytes stop being text. -/
structure Flaw where
  /-- The number of bytes before the sequence that is no character. -/
  index : Nat
  /-- The number of bytes at fault; nothing if the sequence only lacks its end. -/
  size : Option Nat
  deriving DecidableEq, Repr

def Flaw.message (flaw : Flaw) : String :=
  match flaw.size with
  | some size =>
    "invalid utf-8 sequence of " ++ toString size ++ " bytes from index " ++ toString flaw.index
  | none => "incomplete utf-8 byte sequence from index " ++ toString flaw.index

def continuation : Nat × Nat := (0x80, 0xBF)

/-- The ranges of the bytes that follow a first byte, if it can be one. -/
def rangesAfter? (first : Nat) : Option (List (Nat × Nat)) :=
  if first ≤ 0x7F then some []
  else if first < 0xC2 then none
  else if first ≤ 0xDF then some [continuation]
  else if first = 0xE0 then some [(0xA0, 0xBF), continuation]
  else if first = 0xED then some [(0x80, 0x9F), continuation]
  else if first ≤ 0xEF then some [continuation, continuation]
  else if first = 0xF0 then some [(0x90, 0xBF), continuation, continuation]
  else if first ≤ 0xF3 then some [continuation, continuation, continuation]
  else if first = 0xF4 then some [(0x80, 0x8F), continuation, continuation]
  else none

/-- The first flaw of bytes that come after `index` complete bytes and `taken` bytes of a
sequence that goes on in these ranges. -/
def flawFrom (index taken : Nat) (ranges : List (Nat × Nat)) : List UInt8 → Option Flaw
  | [] => if ranges.isEmpty then none else some ⟨index, none⟩
  | b :: bs =>
    match ranges with
    | [] =>
      match rangesAfter? b.toNat with
      | some [] => flawFrom (index + 1) 0 [] bs
      | some wanted => flawFrom index 1 wanted bs
      | none => some ⟨index, some 1⟩
    | (low, high) :: more =>
      if low ≤ b.toNat ∧ b.toNat ≤ high then
        match more with
        | [] => flawFrom (index + taken + 1) 0 [] bs
        | wanted => flawFrom index (taken + 1) wanted bs
      else some ⟨index, some taken⟩

def flaw? (bytes : List UInt8) : Option Flaw :=
  flawFrom 0 0 [] bytes

end Folio.Text
