import Folio.Text.Encoding

/-!
# Where a text can be cut

A text is cut between two of its characters, so not after any number of its bytes.  Where a
limit falls inside a character, the text is cut before it: from the limit on the bytes are
gone through backwards to one that begins a character.

Main statements: `isBoundary_encode_iff` and `isSome_truncate?`.
-/

namespace Folio.Text

def goesOn (b : UInt8) : Bool :=
  continuation.1 ≤ b.toNat && b.toNat ≤ continuation.2

/-- A text of these bytes can be cut after so many of them: before all of them, after all of
them, or where the next byte begins a character. -/
def isBoundary (bytes : List UInt8) (index : Nat) : Bool :=
  index == 0 ||
    match bytes[index]? with
    | some b => !goesOn b
    | none => index == bytes.length

/-- The last place up to `index` where a text of these bytes can be cut. -/
def lastBoundary (bytes : List UInt8) : (index : Nat) → Nat
  | 0 => 0
  | index + 1 => if isBoundary bytes (index + 1) then index + 1 else lastBoundary bytes index

/-- The text up to where it is cut after so many bytes.  There is none where it cannot be cut,
nor where the bytes before the cut are no text. -/
def cutAt? (text : String) (index : Nat) : Option String :=
  if isBoundary (encode text) index then decode? ((encode text).take index) else none

/-- As much of the text as takes at most `limit` bytes; nothing if it cannot be cut where the
search for a boundary ends. -/
def truncate? (text : String) (limit : Nat) : Option String :=
  if text.utf8ByteSize ≤ limit then some text else cutAt? text (lastBoundary (encode text) limit)

/-! ## The bytes of a character -/

theorem goesOn_ofNat_iff (n : Nat) : goesOn (UInt8.ofNat n) ↔ 128 ≤ n % 256 ∧ n % 256 ≤ 191 := by
  rw [goesOn, UInt8.toNat_ofNat', Bool.and_eq_true, decide_eq_true_iff, decide_eq_true_iff]
  rfl

theorem goesOn_marked (n : Nat) : goesOn (UInt8.ofNat (n % 64 + 128)) := by
  rw [goesOn_ofNat_iff]
  omega

/-- All bytes of a character but the first go on a character. -/
theorem exists_utf8EncodeChar_eq_cons (c : Char) :
    ∃ first more, String.utf8EncodeChar c = first :: more ∧ ¬ goesOn first ∧ ∀ b ∈ more, goesOn b := by
  rw [String.utf8EncodeChar]
  by_cases one : c.val.toNat ≤ 127
  · refine ⟨_, _, if_pos one, ?_, List.forall_mem_nil _⟩
    rw [goesOn_ofNat_iff]
    omega
  -- The first of several bytes is marked by adding at least 192.
  by_cases two : c.val.toNat ≤ 2047
  · simp only [if_neg one, if_pos two]
    refine ⟨_, _, rfl, ?_, ?_⟩
    · rw [goesOn_ofNat_iff]
      omega
    · exact List.forall_mem_singleton.mpr (goesOn_marked _)
  by_cases three : c.val.toNat ≤ 65535
  · simp only [if_neg one, if_neg two, if_pos three]
    refine ⟨_, _, rfl, ?_, ?_⟩
    · rw [goesOn_ofNat_iff]
      omega
    · simp only [List.forall_mem_cons, goesOn_marked, true_and]
      exact List.forall_mem_nil _
  · simp only [if_neg one, if_neg two, if_neg three]
    refine ⟨_, _, rfl, ?_, ?_⟩
    · rw [goesOn_ofNat_iff]
      omega
    · simp only [List.forall_mem_cons, goesOn_marked, true_and]
      exact List.forall_mem_nil _

/-! ## Boundaries are between characters -/

theorem encode_eq (text : String) : encode text = text.toList.flatMap String.utf8EncodeChar := by
  rw [← encode_ofList, String.ofList_toList]

theorem encode_append (front back : String) : encode (front ++ back) = encode front ++ encode back := by
  simp only [encode_eq, String.toList_append, List.flatMap_append]

theorem length_encode (text : String) : (encode text).length = text.utf8ByteSize := by
  rfl

/-- Between two parts of a text is a boundary. -/
theorem isBoundary_append (front back : String) : isBoundary (encode (front ++ back)) front.utf8ByteSize := by
  rw [encode_append, ← length_encode, isBoundary, List.getElem?_append_right (Nat.le_refl _), Nat.sub_self]
  rw [encode_eq back]
  cases back.toList with
  | nil => simp
  | cons c cs =>
    obtain ⟨first, more, spelled, begins, -⟩ := exists_utf8EncodeChar_eq_cons c
    simp [spelled, begins]

/-- A boundary behind the first bytes is one of the bytes that follow them. -/
theorem isBoundary_of_append {front back : List UInt8} {index : Nat}
    (cut : isBoundary (front ++ back) (front.length + index)) : isBoundary back index := by
  cases index with
  | zero => rfl
  | succ index =>
    rw [isBoundary, List.getElem?_append_right (Nat.le_add_right _ _), Nat.add_sub_cancel_left] at cut
    rw [isBoundary]
    cases next : back[index + 1]? with
    | some b => simpa [next] using cut
    | none => simpa [next] using cut

/-- Inside a character is no boundary. -/
theorem not_isBoundary_inside {c : Char} {bytes : List UInt8} {index : Nat} (begun : 0 < index)
    (inside : index < (String.utf8EncodeChar c).length) :
    ¬ isBoundary (String.utf8EncodeChar c ++ bytes) index := by
  obtain ⟨first, more, spelled, -, others⟩ := exists_utf8EncodeChar_eq_cons c
  obtain ⟨index, rfl⟩ := Nat.exists_eq_succ_of_ne_zero (Nat.ne_of_gt begun)
  rw [spelled, List.length_cons] at inside
  have within : index < more.length := Nat.lt_of_succ_lt_succ inside
  have byte : (first :: more ++ bytes)[index + 1]? = some more[index] := by
    rw [List.cons_append, List.getElem?_cons_succ, List.getElem?_append_left within, List.getElem?_eq_getElem within]
  rw [spelled, isBoundary, byte]
  simp [others _ (List.getElem_mem within)]

/-- Before a boundary lies a part of the text. -/
theorem exists_append_of_isBoundary {cs : List Char} {index : Nat}
    (cut : isBoundary (cs.flatMap String.utf8EncodeChar) index) :
    ∃ front back, front ++ back = cs ∧ (front.flatMap String.utf8EncodeChar).length = index := by
  induction cs generalizing index with
  | nil =>
    refine ⟨[], [], rfl, ?_⟩
    simpa [isBoundary, eq_comm (a := index)] using cut
  | cons c cs ih =>
    rw [List.flatMap_cons] at cut
    by_cases start : index = 0
    · exact ⟨[], c :: cs, rfl, start.symm⟩
    · have behind : (String.utf8EncodeChar c).length ≤ index := by
        refine Nat.not_lt.mp fun inside => ?_
        exact not_isBoundary_inside (Nat.pos_of_ne_zero start) inside cut
      obtain ⟨more, rfl⟩ := Nat.exists_eq_add_of_le behind
      obtain ⟨front, back, rfl, size⟩ := ih (isBoundary_of_append cut)
      refine ⟨c :: front, back, rfl, ?_⟩
      rw [List.flatMap_cons, List.length_append, size]

/-- A text can be cut where one part of it ends and the other begins, and nowhere else. -/
theorem isBoundary_encode_iff {text : String} {index : Nat} :
    isBoundary (encode text) index ↔ ∃ front back, front ++ back = text ∧ front.utf8ByteSize = index := by
  constructor
  · intro cut
    rw [encode_eq] at cut
    obtain ⟨front, back, whole, size⟩ := exists_append_of_isBoundary cut
    refine ⟨String.ofList front, String.ofList back, ?_, ?_⟩
    · rw [← String.ofList_append, whole, String.ofList_toList]
    · rw [← length_encode, encode_ofList, size]
  · rintro ⟨front, back, rfl, rfl⟩
    exact isBoundary_append front back

theorem cutAt?_append (front back : String) : cutAt? (front ++ back) front.utf8ByteSize = some front := by
  rw [cutAt?, if_pos (isBoundary_append front back), encode_append, ← length_encode, List.take_left, decode?_encode]

/-! ## The last boundary -/

theorem isBoundary_lastBoundary (bytes : List UInt8) (index : Nat) : isBoundary bytes (lastBoundary bytes index) := by
  induction index with
  | zero => rfl
  | succ index ih =>
    rw [lastBoundary]
    split
    · assumption
    · exact ih

/-- At the last boundary a text can be cut. -/
theorem exists_cutAt?_lastBoundary (text : String) (limit : Nat) :
    ∃ front back, front ++ back = text ∧ cutAt? text (lastBoundary (encode text) limit) = some front ∧
      front.utf8ByteSize = lastBoundary (encode text) limit := by
  obtain ⟨front, back, whole, size⟩ := isBoundary_encode_iff.mp (isBoundary_lastBoundary (encode text) limit)
  refine ⟨front, back, whole, ?_, size⟩
  rw [← size, ← whole, cutAt?_append]

theorem isSome_truncate? (text : String) (limit : Nat) : (truncate? text limit).isSome := by
  rw [truncate?]
  split
  · rfl
  · obtain ⟨front, -, -, cut, -⟩ := exists_cutAt?_lastBoundary text limit
    rw [cut]
    rfl

/-- As much of the text as takes at most `limit` bytes. -/
def truncate (text : String) (limit : Nat) : String :=
  (truncate? text limit).get (isSome_truncate? text limit)

end Folio.Text
