import Folio.Proofs.Calendar.RoundTrip
import Folio.Settings.Validity

/-!
# Offsets in settings

A timezone is meant to be written as a sign, two digits of hours, a colon and two digits of minutes.
Every text of this form is read as the offset that it writes.  The reader takes more than that: any
number of colons and blanks between hours and minutes, anything after the minutes, and the minus sign
of typography; all that it asks for besides is a colon somewhere.

Main statement: `offset_iff_lenient`.
-/

namespace Folio

open Decimal (digitsValue)
open Text (isBlank trimChars)

namespace Calendar

variable {s rest : List Char} {n : ℕ} {offset : ℤ}

/-! ## Two digits -/

theorem exists_digit {c : Char} (digit : c.isDigit = true) : ∃ i < 10, c = Char.ofNat (48 + i) := by
  have range : 48 ≤ c.toNat ∧ c.toNat ≤ 57 := by
    simpa [Char.isDigit, UInt32.le_iff_toNat_le] using digit
  refine ⟨c.toNat - 48, by omega, ?_⟩
  rw [Nat.add_sub_cancel' range.1, Char.ofNat_toNat]

/-- Two digits are the two digits of the number that they write. -/
theorem exists_twoDigits {c d : Char} (tens : c.isDigit = true) (ones : d.isDigit = true) :
    digitsValue 0 [c, d] < 100 ∧ [c, d] = twoDigits (digitsValue 0 [c, d]) := by
  obtain ⟨i, i_lt, rfl⟩ := exists_digit tens
  obtain ⟨j, j_lt, rfl⟩ := exists_digit ones
  have all : ∀ i < 10, ∀ j < 10,
      digitsValue 0 [Char.ofNat (48 + i), Char.ofNat (48 + j)] < 100 ∧
        [Char.ofNat (48 + i), Char.ofNat (48 + j)] =
          twoDigits (digitsValue 0 [Char.ofNat (48 + i), Char.ofNat (48 + j)]) := by
    decide +kernel
  exact all i i_lt j j_lt

theorem takeFixed_eq_some_iff : takeFixed? 2 s = some (n, rest) ↔ n < 100 ∧ s = twoDigits n ++ rest := by
  constructor
  · intro read
    rw [takeFixed?, takeNumber?] at read
    generalize shown : (s.take 2).takeWhile Char.isDigit = digits at read
    split_ifs at read with none
    have isPrefix : digits <+: s := shown ▸ (List.takeWhile_prefix _).trans (List.take_prefix 2 s)
    have all : ∀ c ∈ digits, c.isDigit = true := fun c mem => List.mem_takeWhile_imp (shown ▸ mem)
    obtain ⟨after, rfl⟩ := isPrefix
    rw [List.drop_left] at read
    dsimp only at read
    split_ifs at read with width
    cases read
    have two : digits.length = 2 := by simpa using width
    obtain ⟨c, d, rfl⟩ := List.length_eq_two.1 two
    obtain ⟨small, spelled⟩ := exists_twoDigits (all c (by simp)) (all d (by simp))
    exact ⟨small, congrArg (· ++ rest) spelled⟩
  · rintro ⟨small, rfl⟩
    exact takeFixed_twoDigits small rest

/-! ## Offsets -/

/-- The signs that an offset may have, and whether they make it negative. -/
inductive IsSign : Char → Bool → Prop where
  | plus : IsSign '+' false
  | minus : IsSign '-' true
  /-- The minus sign of typography. -/
  | typographic : IsSign '\u2212' true

/-- The seconds of an offset of so many hours and minutes. -/
def signedSeconds (negative : Bool) (hours minutes : ℕ) : ℤ :=
  if negative then -(hours * 3600 + minutes * 60) else hours * 3600 + minutes * 60

/-- The form in which an offset is meant to be written: a sign, hours below 24 in two digits, a colon,
and minutes below 60 in two digits. -/
inductive OffsetText : List Char → ℤ → Prop where
  | intro (negative : Bool) {hours minutes : ℕ} (hours_lt : hours < 24) (minutes_lt : minutes < 60) :
      OffsetText ((if negative then '-' else '+') :: (twoDigits hours ++ ':' :: twoDigits minutes))
        (signedSeconds negative hours minutes)

theorem OffsetText.length (written : OffsetText s offset) : s.length = 6 := by
  obtain ⟨negative, hours_lt, minutes_lt⟩ := written
  have two {n : ℕ} (n_lt : n < 100) : (twoDigits n).length = 2 := length_padNat (by norm_num) n_lt
  simp [two (hours_lt.trans (by decide)), two (minutes_lt.trans (by decide))]

/-- The form in which an offset is read: any gap of colons and blanks stands for the colon, anything may
follow the minutes, and there is a colon in the one or the other. -/
inductive LenientOffset : List Char → ℤ → Prop where
  | intro {sign : Char} {negative : Bool} {hours minutes : ℕ} {gap tail : List Char} (isSign : IsSign sign negative)
      (hours_lt : hours < 24) (minutes_lt : minutes < 60) (lenient : ∀ c ∈ gap, c = ':' ∨ isBlank c = true)
      (colon : ':' ∈ gap ++ tail) :
      LenientOffset (sign :: (twoDigits hours ++ (gap ++ (twoDigits minutes ++ tail))))
        (signedSeconds negative hours minutes)

theorem OffsetText.lenient (written : OffsetText s offset) : LenientOffset s offset := by
  obtain ⟨negative, hours_lt, minutes_lt⟩ := written
  have isSign : IsSign (if negative then '-' else '+') negative := by
    cases negative
    · exact .plus
    · exact .minus
  have lenient := @LenientOffset.intro _ _ _ _ [':'] [] isSign hours_lt minutes_lt (by simp) (by simp)
  rwa [List.append_nil] at lenient

theorem skipColonsAndBlanks_gap {gap : List Char} (lenient : ∀ c ∈ gap, c = ':' ∨ isBlank c = true)
    (stops : ∀ c ∈ s.head?, c.isDigit = true) : skipColonsAndBlanks (gap ++ s) = some s := by
  refine congrArg some (Text.takeWhile_run (fun c mem => by simpa using lenient c mem) fun c first => ?_).2
  have digit := stops c first
  have noColon : c ≠ ':' := by
    rintro rfl
    contradiction
  simp [noColon, Text.isBlank_of_isDigit digit]

theorem isDigit_of_head?_twoDigits (n : ℕ) (s : List Char) : ∀ c ∈ (twoDigits n ++ s).head?, c.isDigit = true := by
  obtain ⟨d, more, spelled⟩ := List.exists_cons_of_ne_nil (padNat_ne_nil 2 n)
  intro c first
  rw [twoDigits, spelled] at first
  obtain rfl : d = c := by simpa using first
  exact isDigit_of_mem_padNat (spelled ▸ List.mem_cons_self)

/-- The offset that follows a sign. -/
theorem takeOffset_sign {sign : Char} {negative : Bool} (isSign : IsSign sign negative)
    (separator : List Char → Option (List Char)) (s : List Char) :
    takeOffset? separator (sign :: s) = (do
      let (hours, s) ← takeFixed? 2 s
      let s ← separator s
      let (minutes, s) ← takeFixed? 2 s
      if minutes < 60 then some (signedSeconds negative hours minutes, s) else none) := by
  cases isSign <;> rfl

theorem exists_sign {separator : List Char → Option (List Char)} (read : takeOffset? separator s = some (offset, rest)) :
    ∃ sign negative more, IsSign sign negative ∧ s = sign :: more := by
  simp only [takeOffset?, Option.bind_eq_bind] at read
  split at read
  · exact ⟨_, _, _, .plus, rfl⟩
  · exact ⟨_, _, _, .minus, rfl⟩
  · exact ⟨_, _, _, .typographic, rfl⟩
  · contradiction

theorem takeOffset_eq_some_iff :
    takeOffset? skipColonsAndBlanks s = some (offset, rest) ↔
      ∃ sign negative hours gap minutes, IsSign sign negative ∧ hours < 100 ∧ minutes < 60 ∧
        (∀ c ∈ gap, c = ':' ∨ isBlank c = true) ∧ offset = signedSeconds negative hours minutes ∧
        s = sign :: (twoDigits hours ++ (gap ++ (twoDigits minutes ++ rest))) := by
  constructor
  · intro read
    obtain ⟨sign, negative, more, isSign, rfl⟩ := exists_sign read
    rw [takeOffset_sign isSign] at read
    simp only [Option.bind_eq_bind, Option.bind_eq_some_iff, Prod.exists] at read
    obtain ⟨hours, afterHours, first, beforeMinutes, skipped, minutes, afterMinutes, second, shown⟩ := read
    split_ifs at shown with minutes_lt
    cases shown
    obtain ⟨hours_lt, rfl⟩ := takeFixed_eq_some_iff.1 first
    obtain ⟨-, rfl⟩ := takeFixed_eq_some_iff.1 second
    have split := List.takeWhile_append_dropWhile (p := fun c => c == ':' || isBlank c) (l := afterHours)
    rw [Option.some_inj.1 skipped] at split
    refine ⟨sign, negative, hours, _, minutes, isSign, hours_lt, minutes_lt, fun c mem => ?_, rfl, by rw [split]⟩
    simpa using List.mem_takeWhile_imp mem
  · rintro ⟨sign, negative, hours, gap, minutes, isSign, hours_lt, minutes_lt, lenient, rfl, rfl⟩
    rw [takeOffset_sign isSign, takeFixed_twoDigits hours_lt]
    simp only [Option.bind_eq_bind, Option.bind_some]
    rw [skipColonsAndBlanks_gap lenient (isDigit_of_head?_twoDigits minutes rest), Option.bind_some,
      takeFixed_twoDigits (by omega)]
    simp only [Option.bind_some, if_pos minutes_lt]

theorem natAbs_signedSeconds_lt {negative : Bool} {hours minutes : ℕ} (minutes_lt : minutes < 60) :
    (signedSeconds negative hours minutes).natAbs < 86400 ↔ hours < 24 := by
  cases negative <;> simp only [signedSeconds, if_true, Bool.false_eq_true, if_false] <;> omega

/-- A colon in the text stands in the gap or in the tail. -/
theorem colon_mem_iff {sign : Char} {negative : Bool} (isSign : IsSign sign negative) (hours minutes : ℕ)
    (gap tail : List Char) :
    ':' ∈ sign :: (twoDigits hours ++ (gap ++ (twoDigits minutes ++ tail))) ↔ ':' ∈ gap ++ tail := by
  have noDigit (n : ℕ) : ':' ∉ twoDigits n := fun mem => absurd (isDigit_of_mem_padNat mem) (by decide)
  have noSign : ':' ≠ sign := by cases isSign <;> decide
  simp [noDigit, noSign]

theorem readOffset_eq_some_iff : readOffset? s = some offset ↔ LenientOffset (trimChars s) offset := by
  rw [readOffset?]
  generalize trimChars s = text
  constructor
  · intro read
    split_ifs at read with colon
    split at read
    · rename_i seconds tail taken
      split_ifs at read with small
      cases read
      obtain ⟨sign, negative, hours, gap, minutes, isSign, -, minutes_lt, lenient, rfl, rfl⟩ :=
        takeOffset_eq_some_iff.1 taken
      have colon : ':' ∈ gap ++ tail := (colon_mem_iff isSign hours minutes gap tail).1 (by simpa using colon)
      exact .intro isSign ((natAbs_signedSeconds_lt minutes_lt).1 small) minutes_lt lenient colon
    · contradiction
  · rintro ⟨isSign, hours_lt, minutes_lt, lenient, colon⟩
    rw [if_pos (by simpa using (colon_mem_iff isSign _ _ _ _).2 colon),
      takeOffset_eq_some_iff.2 ⟨_, _, _, _, _, isSign, by omega, minutes_lt, lenient, rfl, rfl⟩]
    exact if_pos ((natAbs_signedSeconds_lt minutes_lt).2 hours_lt)

end Calendar

namespace Settings

open Calendar (LenientOffset OffsetText)

/-! ## Settings without an offset -/

/-- Settings whose timezone is no offset are refused, for the timezone if the directories are there. -/
theorem fault_of_no_offset {s : Settings} (absent : s.offset? = none) (tree : FileTree) (working : Place) :
    ∃ fault, s.fault? tree working = some fault ∧
      (s.contentFault? tree working = none → s.templatesFault? tree working = none →
        fault = .timezone s.site.timezone) := by
  have refused : s.timezoneFault? = some (.timezone s.site.timezone) := by
    rw [timezoneFault?, absent]
    rfl
  rw [fault?, refused]
  cases content : s.contentFault? tree working with
  | some fault => exact ⟨fault, rfl, fun none => nomatch none⟩
  | none =>
    cases templates : s.templatesFault? tree working with
    | some fault => exact ⟨fault, rfl, fun _ none => nomatch none⟩
    | none => exact ⟨_, rfl, fun _ _ => rfl⟩

/-! ## Main statement -/

/-- A timezone that is written as it should be is read as the offset that it writes.  What is read
besides are the texts of the lenient form, each as one offset.  With an offset the settings are not
refused for their timezone; without one they are refused, and universal time counts. -/
theorem offset_iff_lenient (s : Settings) :
    (∀ offset, OffsetText (trimChars s.site.timezone.toList) offset → s.offset? = some offset) ∧
      (∀ offset, s.offset? = some offset ↔ LenientOffset (trimChars s.site.timezone.toList) offset) ∧
      (∀ offset, s.offset? = some offset → s.offset = offset ∧ s.timezoneFault? = none) ∧
      ((∀ offset, ¬ LenientOffset (trimChars s.site.timezone.toList) offset) →
        s.offset? = none ∧ s.offset = 0 ∧ ∀ tree working, ∃ fault,
          s.validate tree working = .error (.of (.settings fault)) ∧
            (s.contentFault? tree working = none → s.templatesFault? tree working = none →
              fault = .timezone s.site.timezone)) := by
  have read (offset : ℤ) : s.offset? = some offset ↔ LenientOffset (trimChars s.site.timezone.toList) offset :=
    Calendar.readOffset_eq_some_iff
  refine ⟨fun offset written => (read offset).2 written.lenient, read, fun offset found => ?_, fun never => ?_⟩
  · rw [Settings.offset, timezoneFault?, found]
    exact ⟨rfl, rfl⟩
  · have absent : s.offset? = none :=
      Option.eq_none_iff_forall_ne_some.2 fun offset found => never offset ((read offset).1 found)
    refine ⟨absent, by rw [Settings.offset, absent, Option.getD_none], fun tree working => ?_⟩
    obtain ⟨fault, first, timezone⟩ := fault_of_no_offset absent tree working
    exact ⟨fault, by rw [validate, first], timezone⟩

/-- The settings of a site that says nothing but its timezone. -/
def ofTimezone (timezone : String) : Settings :=
  { Settings.default with site := { SiteSection.default with timezone } }

theorem offset_iff_lenient_west :
    OffsetText (trimChars " -05:30 ".toList) (-19800) ∧ (ofTimezone " -05:30 ").offset? = some (-19800) ∧
      (ofTimezone " -05:30 ").offset = -19800 := by
  obtain ⟨documented, -, kept, -⟩ := offset_iff_lenient (ofTimezone " -05:30 ")
  have written : OffsetText (trimChars " -05:30 ".toList) (-19800) :=
    .intro true (show 5 < 24 by decide) (show 30 < 60 by decide)
  have read := documented _ written
  exact ⟨written, read, (kept _ read).1⟩

/-- What follows the minutes is not looked at: an offset with seconds is read without them. -/
theorem offset_with_seconds :
    (ofTimezone "+09:00:00").offset? = some 32400 ∧ (ofTimezone "+09:00:00").timezoneFault? = none ∧
      ∀ offset, ¬ OffsetText (trimChars "+09:00:00".toList) offset := by
  refine ⟨by decide +kernel, by decide +kernel, fun offset written => ?_⟩
  have size : (trimChars "+09:00:00".toList).length = 9 := by decide +kernel
  rw [written.length] at size
  contradiction

end Settings

end Folio
