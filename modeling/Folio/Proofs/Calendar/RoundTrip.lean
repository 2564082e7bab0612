import Folio.Calendar.Reading
import Folio.Proofs.Calendar.DayNumber
import Folio.Proofs.Decimal.Numeral
import Folio.Proofs.Text.Run

/-!
# Timestamps read back

The text of a timestamp whose local year has four digits reads back as the timestamp,
offset and all; the text of any other timestamp is written in none of the accepted forms.
-/

namespace Folio.Calendar

open Folio.Decimal (digitsValue digitsValue_append digitsValue_zeros digitsValue_toDigits digitsValue_lt
  isDigit_of_mem_toDigits isDigit_of_mem_zeros)
open Folio.Text (isBlank isBlank_of_isDigit trimStartChars trimStartChars_cons trimChars takeWhile_run
  trimChars_eq_self)

/-! ## Numbers of a fixed width -/

theorem isDigit_of_mem_padNat {width n : ℕ} {c : Char} (mem : c ∈ padNat '0' width n) : c.isDigit = true := by
  obtain zero | digit := List.mem_append.1 mem
  · exact isDigit_of_mem_zeros zero
  · exact isDigit_of_mem_toDigits digit

theorem padNat_ne_nil (width n : ℕ) : padNat '0' width n ≠ [] := by
  simp [padNat, Nat.toDigits_ne_nil]

theorem length_padNat {width n : ℕ} (positive : 0 < width) (fits : n < 10 ^ width) :
    (padNat '0' width n).length = width := by
  have short := (Nat.length_toDigits_le_iff (by norm_num) positive).2 fits
  simp only [padNat, List.length_append, List.length_replicate]
  omega

theorem digitsValue_padNat (width n : ℕ) : digitsValue 0 (padNat '0' width n) = n := by
  simp only [padNat]
  rw [digitsValue_append, digitsValue_zeros, mul_zero, digitsValue_toDigits]

/-- Digits are read as far as the width allows. -/
theorem takeNumber_digits {width : ℕ} {s rest : List Char} (digits : ∀ c ∈ s, c.isDigit = true)
    (present : s ≠ []) (fits : s.length ≤ width)
    (stops : s.length = width ∨ ∀ c ∈ rest.head?, c.isDigit = false) :
    takeNumber? width (s ++ rest) = some (digitsValue 0 s, rest) := by
  have taken : ((s ++ rest).take width).takeWhile Char.isDigit = s := by
    rw [List.take_append, List.take_of_length_le fits]
    refine (takeWhile_run digits fun c first => ?_).1
    obtain rfl | stops := stops
    · simp at first
    · cases rest with
      | nil => simp at first
      | cons d rest =>
        obtain left | left := Nat.eq_zero_or_pos (width - s.length)
        · rw [left] at first
          simp at first
        · obtain ⟨k, left⟩ := Nat.exists_eq_add_of_le' left
          rw [left] at first
          exact stops c first
  simp only [takeNumber?, taken]
  rw [if_neg (by simp [present]), List.drop_left]

theorem takeNumber_padNat {width n : ℕ} (positive : 0 < width) (fits : n < 10 ^ width) (rest : List Char) :
    takeNumber? width (padNat '0' width n ++ rest) = some (n, rest) := by
  have length := length_padNat positive fits
  rw [takeNumber_digits (fun _ => isDigit_of_mem_padNat) (padNat_ne_nil width n) length.le (.inl length),
    digitsValue_padNat]

theorem takeFixed_padNat {width n : ℕ} (positive : 0 < width) (fits : n < 10 ^ width) (rest : List Char) :
    takeFixed? width (padNat '0' width n ++ rest) = some (n, rest) := by
  simp [takeFixed?, takeNumber_padNat positive fits, length_padNat positive fits]

theorem takeFixed_twoDigits {n : ℕ} (fits : n < 100) (rest : List Char) :
    takeFixed? 2 (twoDigits n ++ rest) = some (n, rest) :=
  takeFixed_padNat (by norm_num) fits rest

/-- No blank stands before the digits of a number. -/
theorem trimStartChars_padNat (width n : ℕ) (rest : List Char) :
    trimStartChars (padNat '0' width n ++ rest) = padNat '0' width n ++ rest := by
  obtain ⟨c, more, first⟩ := List.exists_cons_of_ne_nil (padNat_ne_nil width n)
  rw [first, List.cons_append]
  exact trimStartChars_cons (isBlank_of_isDigit (isDigit_of_mem_padNat (by rw [first]; simp))) _

/-! ## Fractions and offsets -/

theorem takeFraction_point {width n : ℕ} (positive : 0 < width) (fits : n < 10 ^ width) (width_le : width ≤ 9)
    {rest : List Char} (stops : ∀ c ∈ rest.head?, c.isDigit = false) :
    takeFraction? ('.' :: (padNat '0' width n ++ rest)) = some (n * 10 ^ (9 - width), rest) := by
  have length := length_padNat positive fits
  obtain ⟨front, -⟩ := takeWhile_run (s := padNat '0' width n) (fun _ => isDigit_of_mem_padNat) stops
  simp only [takeFraction?, front]
  rw [if_neg (by simp [padNat_ne_nil]), List.take_of_length_le (by omega), List.drop_left, digitsValue_padNat,
    length]
  rfl

/-- A fraction of a second reads back, whatever number of digits it needed. -/
theorem takeFraction_text {nanos : ℕ} (bounded : nanos < nanosPerSecond) {rest : List Char}
    (stops : ∀ c ∈ rest.head?, c.isDigit = false ∧ c ≠ '.') :
    takeFraction? (fractionText nanos ++ rest) = some (nanos, rest) := by
  have last : ∀ c ∈ rest.head?, c.isDigit = false := fun c first => (stops c first).1
  unfold nanosPerSecond at bounded
  unfold fractionText
  split_ifs with none millis micros
  · simp only [beq_iff_eq] at none
    rw [none, List.nil_append]
    unfold takeFraction?
    split
    · exact absurd rfl (stops '.' rfl).2
    · rfl
  · simp only [beq_iff_eq] at millis
    rw [List.cons_append, takeFraction_point (by norm_num) (by omega) (by norm_num) last]
    simp only [Option.some.injEq, Prod.mk.injEq, and_true]
    omega
  · simp only [beq_iff_eq] at micros
    rw [List.cons_append, takeFraction_point (by norm_num) (by omega) (by norm_num) last]
    simp only [Option.some.injEq, Prod.mk.injEq, and_true]
    omega
  · rw [List.cons_append, takeFraction_point (by norm_num) (by omega) (by norm_num) last]
    simp

theorem takeOffset_text {offset : ℤ} (bounded : offset.natAbs < 86400) (whole : offset % 60 = 0) :
    takeInternetOffset? (offsetText [':'] offset) = some (offset, []) := by
  -- The text rounds to minutes, which changes nothing in an offset of whole minutes.
  have hours : (offset.natAbs + 30) / 60 / 60 < 100 := by omega
  have minutes : (offset.natAbs + 30) / 60 % 60 < 100 := by omega
  have minutes_lt : (offset.natAbs + 30) / 60 % 60 < 60 := by omega
  have read := takeFixed_twoDigits minutes []
  rw [List.append_nil] at read
  unfold offsetText
  by_cases negative : offset < 0
  · simp only [negative, if_true, takeInternetOffset?, takeOffset?, List.cons_append, List.append_assoc,
      List.nil_append]
    simp only [takeFixed_twoDigits hours, skipMark, read, minutes_lt, Option.bind_eq_bind, Option.bind_some,
      beq_self_eq_true, if_true]
    refine congrArg some (Prod.ext ?_ rfl)
    show -(((offset.natAbs + 30) / 60 / 60 : ℕ) * 3600 + ((offset.natAbs + 30) / 60 % 60 : ℕ) * 60 : ℤ) = offset
    omega
  · simp only [negative, if_false, takeInternetOffset?, takeOffset?, List.cons_append, List.append_assoc,
      List.nil_append]
    simp only [takeFixed_twoDigits hours, skipMark, read, minutes_lt, Option.bind_eq_bind, Option.bind_some,
      beq_self_eq_true, if_true]
    refine congrArg some (Prod.ext ?_ rfl)
    show (((offset.natAbs + 30) / 60 / 60 : ℕ) * 3600 + ((offset.natAbs + 30) / 60 % 60 : ℕ) * 60 : ℤ) = offset
    omega

/-! ## Timestamps that are read -/

/-- What holds of every timestamp that is read: a clock shows it, at an offset of whole
minutes and less than a day, and its day is in range. -/
structure Timestamp.Written (t : Timestamp) : Prop where
  offset_lt : t.offset.natAbs < 86400
  offset_whole : t.offset % 60 = 0
  nanos_lt : t.nanos < 2 * nanosPerSecond
  leap : nanosPerSecond ≤ t.nanos → (t.seconds + t.offset) % 60 = 59
  day_ge : firstDay ≤ t.seconds / 86400
  day_le : t.seconds / 86400 ≤ lastDay

/-- What the readers see to while they collect the parts. -/
structure Parts.Sound (p : Parts) : Prop where
  offset_whole : p.offset % 60 = 0
  nanos_lt : p.nanos < nanosPerSecond

theorem Parts.Sound.written {p : Parts} (sound : p.Sound) {t : Timestamp} (shown : p.toTimestamp? = some t) :
    t.Written := by
  obtain ⟨whole, fraction⟩ := sound
  unfold Parts.toTimestamp? at shown
  cases found : Date.mk? p.year p.month p.day with
  | none =>
    rw [found] at shown
    contradiction
  | some date =>
    rw [found] at shown
    simp only [Local.toTimestamp?] at shown
    by_cases clock : (p.hour < 24 && p.minute < 60 && p.second ≤ 60 && p.offset.natAbs < 86400) = true
    · rw [if_pos clock] at shown
      simp only [Bool.and_eq_true, decide_eq_true_eq] at clock
      by_cases range : (firstDay ≤ (date.toDay * 86400 +
          ↑(p.hour * 3600 + p.minute * 60 + if p.second == 60 then 59 else p.second) - p.offset) / 86400 &&
          (date.toDay * 86400 + ↑(p.hour * 3600 + p.minute * 60 + if p.second == 60 then 59 else p.second) -
            p.offset) / 86400 ≤ lastDay) = true
      · rw [if_pos range] at shown
        simp only [Bool.and_eq_true, decide_eq_true_eq] at range
        obtain rfl := Option.some_inj.1 shown
        refine ⟨clock.2, whole, ?_, fun leap => ?_, range.1, range.2⟩
        · simp only [nanosPerSecond] at fraction ⊢
          split_ifs <;> omega
        · simp only [beq_iff_eq] at leap ⊢
          -- Only the second 60 makes a full second of nanoseconds, and is then stored as 59.
          split_ifs at leap ⊢ with last <;> omega
      · rw [if_neg range] at shown
        contradiction
    · rw [if_neg clock] at shown
      contradiction

theorem takeOffset_whole {separator : List Char → Option (List Char)} {s rest : List Char} {n : ℤ}
    (read : takeOffset? separator s = some (n, rest)) : n % 60 = 0 := by
  simp only [takeOffset?, Option.bind_eq_bind] at read
  split at read
  case h_4 => contradiction
  all_goals
    simp only [Option.bind_some, Option.bind_eq_some_iff] at read
    obtain ⟨⟨hours, _⟩, _, _, _, ⟨minutes, _⟩, _, shown⟩ := read
    split at shown
    · obtain ⟨rfl, -⟩ := Prod.mk.inj (Option.some_inj.1 shown)
      simp only [if_true, Bool.false_eq_true, if_false]
      omega
    · contradiction

theorem takeInternetOffset_whole {s rest : List Char} {n : ℤ}
    (read : takeInternetOffset? s = some (n, rest)) : n % 60 = 0 := by
  unfold takeInternetOffset? at read
  split at read
  · cases read
    rfl
  · cases read
    rfl
  · exact takeOffset_whole read

theorem takeFraction_lt {s rest : List Char} {n : ℕ} (read : takeFraction? s = some (n, rest)) :
    n < nanosPerSecond := by
  unfold takeFraction? at read
  split at read
  · rename_i digits
    simp only at read
    split_ifs at read
    obtain ⟨rfl, -⟩ := Prod.mk.inj (Option.some_inj.1 read)
    generalize shown : (digits.takeWhile Char.isDigit).take 9 = front
    have all : ∀ c ∈ front, c.isDigit = true := by
      intro c mem
      rw [← shown] at mem
      exact List.all_eq_true.1 List.all_takeWhile c (List.mem_of_mem_take mem)
    have short : front.length ≤ 9 := by
      rw [← shown, List.length_take]
      exact min_le_left _ _
    have value := digitsValue_lt all 0
    show digitsValue 0 front * 10 ^ (9 - front.length) < 1000000000
    calc
      digitsValue 0 front * 10 ^ (9 - front.length)
      _ < (0 + 1) * 10 ^ front.length * 10 ^ (9 - front.length) :=
        Nat.mul_lt_mul_of_pos_right value (by positivity)
      _ = 1000000000 := by
        rw [mul_assoc, ← pow_add, show front.length + (9 - front.length) = 9 by omega]
        norm_num
  · obtain ⟨rfl, -⟩ := Prod.mk.inj (Option.some_inj.1 read)
    decide

theorem Parts.Sound.take {field : FormField} {p q : Parts} {s rest : List Char} (sound : p.Sound)
    (read : field.take? p s = some (q, rest)) : q.Sound := by
  obtain ⟨whole, fraction⟩ := sound
  cases field <;> simp only [FormField.take?, Option.map_eq_some_iff, Option.some.injEq, Prod.mk.injEq] at read
  case offset =>
    obtain ⟨⟨n, r⟩, found, rfl, -⟩ := read
    exact ⟨takeOffset_whole found, fraction⟩
  case blanks =>
    obtain ⟨rfl, -⟩ := read
    exact ⟨whole, fraction⟩
  all_goals
    obtain ⟨_, _, rfl, -⟩ := read
    exact ⟨whole, fraction⟩

theorem Parts.Sound.takeForm {form : List FormField} {p q : Parts} {s rest : List Char} (sound : p.Sound)
    (read : takeForm? form p s = some (q, rest)) : q.Sound := by
  induction form generalizing p s with
  | nil =>
    cases read
    exact sound
  | cons field form ih =>
    rw [takeForm?] at read
    cases found : field.take? p s with
    | none =>
      rw [found] at read
      contradiction
    | some taken =>
      rw [found] at read
      exact ih (sound.take found) read

theorem written_of_readInternet {s : List Char} {t : Timestamp} (read : readInternet? s = some t) :
    t.Written := by
  unfold readInternet? at read
  obtain ⟨⟨year, _⟩, -, read⟩ := Option.bind_eq_some_iff.1 read
  obtain ⟨_, -, read⟩ := Option.bind_eq_some_iff.1 read
  obtain ⟨⟨month, _⟩, -, read⟩ := Option.bind_eq_some_iff.1 read
  obtain ⟨_, -, read⟩ := Option.bind_eq_some_iff.1 read
  obtain ⟨⟨day, _⟩, -, read⟩ := Option.bind_eq_some_iff.1 read
  simp only at read
  split at read
  · split at read
    · obtain ⟨_, -, read⟩ := Option.bind_eq_some_iff.1 read
      obtain ⟨⟨hour, _⟩, -, read⟩ := Option.bind_eq_some_iff.1 read
      obtain ⟨_, -, read⟩ := Option.bind_eq_some_iff.1 read
      obtain ⟨⟨minute, _⟩, -, read⟩ := Option.bind_eq_some_iff.1 read
      obtain ⟨_, -, read⟩ := Option.bind_eq_some_iff.1 read
      obtain ⟨⟨second, _⟩, -, read⟩ := Option.bind_eq_some_iff.1 read
      obtain ⟨⟨nanos, _⟩, fraction, read⟩ := Option.bind_eq_some_iff.1 read
      obtain ⟨⟨offset, _⟩, zone, read⟩ := Option.bind_eq_some_iff.1 read
      simp only at read
      split at read
      · exact Parts.Sound.written ⟨takeInternetOffset_whole zone, takeFraction_lt fraction⟩ read
      · contradiction
    · contradiction
  · contradiction

theorem written_of_readForm {form : List FormField} {s : List Char} {t : Timestamp}
    (read : readForm? form s = some t) : t.Written := by
  have start : Parts.none.Sound := ⟨rfl, by decide⟩
  unfold readForm? at read
  split at read
  · rename_i taken
    exact (start.takeForm taken).written read
  · contradiction

/-- Every timestamp that is read is one that a clock shows. -/
theorem written_of_readTimestamp {s : List Char} {t : Timestamp} (read : readTimestamp? s = some t) :
    t.Written := by
  simp only [readTimestamp?] at read
  split at read
  · rename_i found
    cases read
    exact written_of_readInternet found
  · obtain ⟨form, -, found⟩ := List.exists_of_findSome?_eq_some read
    exact written_of_readForm found

/-! ## Years of four digits -/

theorem mk_of_valid {d : Date} (valid : d.Valid) (first : firstYear ≤ d.year) (last : d.year ≤ lastYear) :
    Date.mk? d.year d.month d.day = some d := by
  have shown : (firstYear ≤ d.year && d.year ≤ lastYear && 1 ≤ d.day && d.day ≤ daysInMonth d.year d.month) =
      true := by
    simp only [Bool.and_eq_true, decide_eq_true_eq]
    exact ⟨⟨⟨first, last⟩, valid.day_pos⟩, valid.day_le⟩
  simp only [Date.mk?, if_pos shown]

/-- What calendar and clock show of a timestamp stands for the timestamp again. -/
theorem toTimestamp_toLocal {t : Timestamp} (written : t.Written) :
    t.toLocal.toTimestamp? t.offset = some t := by
  obtain ⟨seconds, nanos, offset⟩ := t
  obtain ⟨offset_lt, -, nanos_lt, leap, day_ge, day_le⟩ := written
  have day := (ofDay_spec ((seconds + offset) / 86400)).2
  simp only [Timestamp.toLocal, Timestamp.localDay, nanosPerSecond] at *
  generalize Date.ofDay ((seconds + offset) / 86400) = date at day
  have clock : (((seconds + offset) % 86400).toNat / 3600 < 24 && ((seconds + offset) % 86400).toNat / 60 % 60 < 60 &&
      ((seconds + offset) % 86400).toNat % 60 + nanos / 1000000000 ≤ 60 && offset.natAbs < 86400) = true := by
    simp only [Bool.and_eq_true, decide_eq_true_eq]
    omega
  -- A leap second is shown as 60 and stored as 59 and more than a second of nanoseconds.
  have last : (if (((seconds + offset) % 86400).toNat % 60 + nanos / 1000000000 == 60) = true then 59
      else ((seconds + offset) % 86400).toNat % 60 + nanos / 1000000000) = ((seconds + offset) % 86400).toNat % 60 := by
    simp only [beq_iff_eq]
    split_ifs <;> omega
  have more : nanos % 1000000000 + (if (((seconds + offset) % 86400).toNat % 60 + nanos / 1000000000 == 60) = true
      then 1000000000 else 0) = nanos := by
    simp only [beq_iff_eq]
    split_ifs <;> omega
  have same : date.toDay * 86400 + ((((seconds + offset) % 86400).toNat / 3600 * 3600 +
      ((seconds + offset) % 86400).toNat / 60 % 60 * 60 + ((seconds + offset) % 86400).toNat % 60 : ℕ) : ℤ) -
        offset = seconds := by
    rw [day]
    omega
  simp only [Local.toTimestamp?, nanosPerSecond, if_pos clock, last, more, same]
  rw [if_pos (by simp only [Bool.and_eq_true, decide_eq_true_eq]; exact ⟨day_ge, day_le⟩)]

theorem text_toList (t : Timestamp) :
    t.text.toList =
      yearText t.toLocal.date.year ++ '-' :: (twoDigits t.toLocal.date.month ++ '-' ::
        (twoDigits t.toLocal.date.day ++ 'T' :: (twoDigits t.toLocal.hour ++ ':' ::
          (twoDigits t.toLocal.minute ++ ':' :: (twoDigits t.toLocal.second ++
            (fractionText t.toLocal.nanos ++ offsetText [':'] t.offset)))))) := by
  simp only [Timestamp.text, Date.text, Local.clockText, String.toList_ofList, List.append_assoc, List.cons_append]

theorem offsetText_head (offset : ℤ) : ∀ c ∈ (offsetText [':'] offset).head?, c.isDigit = false ∧ c ≠ '.' := by
  intro c first
  obtain rfl := Option.some_inj.1 first
  split <;> decide

theorem bind_of_some {α β : Type} {x : Option α} {a : α} {f : α → Option β} {y : Option β} (read : x = some a)
    (next : f a = y) : x >>= f = y := by
  rw [read]
  exact next

theorem skipMark_self (c : Char) (s : List Char) : skipMark c (c :: s) = some s := by
  simp [skipMark]

theorem readInternet_parts {year month day hour minute second nanos : ℕ} {offset : ℤ} (year_lt : year < 10 ^ 4)
    (month_lt : month < 100) (day_lt : day < 100) (hour_lt : hour < 100) (minute_lt : minute < 100)
    (second_lt : second < 100) (nanos_lt : nanos < nanosPerSecond) (offset_lt : offset.natAbs < 86400)
    (offset_whole : offset % 60 = 0) :
    readInternet? (padNat '0' 4 year ++ '-' :: (twoDigits month ++ '-' :: (twoDigits day ++ 'T' ::
      (twoDigits hour ++ ':' :: (twoDigits minute ++ ':' :: (twoDigits second ++
        (fractionText nanos ++ offsetText [':'] offset))))))) =
      Parts.toTimestamp? ⟨year, month, day, hour, minute, second, nanos, offset⟩ := by
  have mark : ('T' == 'T' || 'T' == 't' || 'T' == ' ') = true := rfl
  unfold readInternet?
  refine bind_of_some (takeFixed_padNat (by norm_num) year_lt _) ?_
  refine bind_of_some (skipMark_self _ _) ?_
  refine bind_of_some (takeFixed_twoDigits month_lt _) ?_
  refine bind_of_some (skipMark_self _ _) ?_
  refine bind_of_some (takeFixed_twoDigits day_lt _) ?_
  refine (if_pos mark).trans ?_
  refine bind_of_some rfl ?_
  refine bind_of_some (takeFixed_twoDigits hour_lt _) ?_
  refine bind_of_some (skipMark_self _ _) ?_
  refine bind_of_some (takeFixed_twoDigits minute_lt _) ?_
  refine bind_of_some (skipMark_self _ _) ?_
  refine bind_of_some (takeFixed_twoDigits second_lt _) ?_
  refine bind_of_some (takeFraction_text nanos_lt (offsetText_head offset)) ?_
  exact bind_of_some (takeOffset_text offset_lt offset_whole) rfl

theorem localDate_valid (t : Timestamp) : t.toLocal.date.Valid :=
  (ofDay_spec t.localDay).1

theorem daysInMonth_le (year : ℤ) (month : ℕ) : daysInMonth year month ≤ 31 := by
  unfold daysInMonth
  split <;> (try split) <;> norm_num

/-! ## The characters of a timestamp's text -/

/-- A digit, or one of the marks that stand between numbers. -/
def IsClockChar (c : Char) : Prop :=
  c.isDigit = true ∨ c ∈ ['+', '-', ':', 'T', '.']

theorem isClockChar_padNat {width n : ℕ} {c : Char} (mem : c ∈ padNat '0' width n) : IsClockChar c :=
  .inl (isDigit_of_mem_padNat mem)

theorem isClockChar_sign {p : Prop} [Decidable p] {a b : Char} (left : a ∈ ['+', '-', ':', 'T', '.'])
    (right : b ∈ ['+', '-', ':', 'T', '.']) : IsClockChar (if p then a else b) := by
  split
  · exact .inr left
  · exact .inr right

theorem isClockChar_yearText {year : ℤ} {c : Char} (mem : c ∈ yearText year) : IsClockChar c := by
  unfold yearText at mem
  split at mem
  · exact isClockChar_padNat mem
  · obtain rfl | mem := List.mem_cons.1 mem
    · exact isClockChar_sign (by decide) (by decide)
    · exact isClockChar_padNat mem

theorem isClockChar_fractionText {nanos : ℕ} {c : Char} (mem : c ∈ fractionText nanos) : IsClockChar c := by
  have point : ∀ {width n : ℕ}, c ∈ '.' :: padNat '0' width n → IsClockChar c := by
    intro width n mem
    obtain rfl | mem := List.mem_cons.1 mem
    · exact .inr (by decide)
    · exact isClockChar_padNat mem
  unfold fractionText at mem
  split_ifs at mem
  · contradiction
  · exact point mem
  · exact point mem
  · exact point mem

theorem isClockChar_offsetText {offset : ℤ} {c : Char} (mem : c ∈ offsetText [':'] offset) : IsClockChar c := by
  simp only [offsetText, List.mem_append, List.mem_cons, List.not_mem_nil, or_false] at mem
  obtain ((rfl | mem) | rfl) | mem := mem
  · exact isClockChar_sign (by decide) (by decide)
  · exact isClockChar_padNat mem
  · exact .inr (by decide)
  · exact isClockChar_padNat mem

theorem isClockChar_text {t : Timestamp} {c : Char} (mem : c ∈ t.text.toList) : IsClockChar c := by
  rw [text_toList] at mem
  simp only [List.mem_append, List.mem_cons] at mem
  obtain mem | rfl | mem | rfl | mem | rfl | mem | rfl | mem | rfl | mem | mem | mem := mem
  · exact isClockChar_yearText mem
  · exact .inr (by decide)
  · exact isClockChar_padNat mem
  · exact .inr (by decide)
  · exact isClockChar_padNat mem
  · exact .inr (by decide)
  · exact isClockChar_padNat mem
  · exact .inr (by decide)
  · exact isClockChar_padNat mem
  · exact .inr (by decide)
  · exact isClockChar_padNat mem
  · exact isClockChar_fractionText mem
  · exact isClockChar_offsetText mem

theorem IsClockChar.not_blank {c : Char} (shown : IsClockChar c) : isBlank c = false := by
  obtain digit | mark := shown
  · exact isBlank_of_isDigit digit
  · exact Text.isBlank_eq_false (p := ['+', '-', ':', 'T', '.'].contains) (by decide) (by simpa using mark)

theorem trimChars_text (t : Timestamp) : trimChars t.text.toList = t.text.toList :=
  trimChars_eq_self fun _ mem => (isClockChar_text mem).not_blank

/-! ## Reading the text -/

/-- The clock shows numbers of two digits. -/
theorem Timestamp.Written.clock_lt {t : Timestamp} (written : t.Written) :
    t.toLocal.hour < 100 ∧ t.toLocal.minute < 100 ∧ t.toLocal.second < 100 := by
  have nanos_lt := written.nanos_lt
  simp only [Timestamp.toLocal, nanosPerSecond] at nanos_lt ⊢
  omega

/-- The text of a timestamp whose local year has four digits reads back as the timestamp. -/
theorem readTimestamp_text {t : Timestamp} (written : t.Written) (least : 0 ≤ t.toLocal.date.year)
    (most : t.toLocal.date.year ≤ 9999) : readTimestamp? t.text.toList = some t := by
  have valid := localDate_valid t
  have day := valid.day_le.trans (daysInMonth_le _ _)
  have month := valid.month_le
  have nanos : t.toLocal.nanos < nanosPerSecond := Nat.mod_lt _ (by decide)
  obtain ⟨hour, minute, second⟩ := written.clock_lt
  have year : yearText t.toLocal.date.year = padNat '0' 4 t.toLocal.date.year.toNat := by
    simp [yearText, least, most]
  have read : readInternet? t.text.toList = some t := by
    rw [text_toList, year, readInternet_parts (by omega) (by omega) (by omega) hour minute second nanos
      written.offset_lt written.offset_whole]
    have date := mk_of_valid valid (by unfold firstYear; omega) (by unfold lastYear; omega)
    simp only [Parts.toTimestamp?, Int.toNat_of_nonneg least, date]
    exact toTimestamp_toLocal written
  simp only [readTimestamp?, trimChars_text, read]

theorem takeYear_signed {sign : Char} (signed : sign = '-' ∨ sign = '+') (n : ℕ) {rest : List Char}
    (stops : ∀ c ∈ rest.head?, c.isDigit = false) :
    ∃ year, takeYear? (sign :: (padNat '0' 4 n ++ rest)) = some (year, rest) := by
  have read : takeNumber? (padNat '0' 4 n ++ rest).length (padNat '0' 4 n ++ rest) = some (n, rest) := by
    rw [takeNumber_digits (fun _ => isDigit_of_mem_padNat) (padNat_ne_nil 4 n) (by simp) (.inr stops),
      digitsValue_padNat]
  obtain rfl | rfl := signed
  · exact ⟨_, by simp only [takeYear?, read]; rfl⟩
  · exact ⟨_, by simp only [takeYear?, read]; rfl⟩

/-! ## Other years -/

section OtherYears

variable {sign : Char} {n month day : ℕ} {clock : List Char} (signed : sign = '-' ∨ sign = '+')

include signed

theorem readInternet_signed (rest : List Char) : readInternet? (sign :: rest) = none := by
  have digit : sign.isDigit = false := by obtain rfl | rfl := signed <;> rfl
  have none : takeFixed? 4 (sign :: rest) = none := by
    simp [takeFixed?, takeNumber?, digit]
  simp only [readInternet?, none, Option.bind_eq_bind, Option.bind_none]

/-- A form that begins with a date reads the date, and goes on after it only if dashes
stand in the form, too. -/
theorem takeForm_date (month_lt : month < 100) (day_lt : day < 100) (clock : List Char) (p : Parts) :
    ∃ q, ∀ more,
      takeForm? (dateForm '-' ++ more) p
          (sign :: (padNat '0' 4 n ++ '-' :: (twoDigits month ++ '-' :: (twoDigits day ++ clock)))) =
        takeForm? more q clock ∧
      takeForm? (dateForm '/' ++ more) p
          (sign :: (padNat '0' 4 n ++ '-' :: (twoDigits month ++ '-' :: (twoDigits day ++ clock)))) = none := by
  have shown : isBlank sign = false := by obtain rfl | rfl := signed <;> decide
  have stops : ∀ c ∈ ('-' :: (twoDigits month ++ '-' :: (twoDigits day ++ clock))).head?, c.isDigit = false := by
    intro c first
    obtain rfl := Option.some_inj.1 first
    rfl
  obtain ⟨year, read⟩ := takeYear_signed signed n stops
  have number : ∀ {n : ℕ} (_ : n < 100) (rest : List Char),
      takeNumber? 2 (trimStartChars (twoDigits n ++ rest)) = some (n, rest) := by
    intro n fits rest
    rw [twoDigits, trimStartChars_padNat, takeNumber_padNat (by norm_num) fits]
  refine ⟨{ p with year, month, day }, fun more => ⟨?_, ?_⟩⟩
  · simp only [dateForm, List.cons_append, List.nil_append, takeForm?, FormField.take?, trimStartChars_cons shown,
      read, Option.map_some, skipMark_self, number month_lt, number day_lt]
  · have other : ('-' == '/') = false := rfl
    simp only [dateForm, List.cons_append, List.nil_append, takeForm?, FormField.take?, trimStartChars_cons shown,
      read, Option.map_some, skipMark, other]
    rfl

end OtherYears

/-- No time of day begins with a `T`. -/
theorem takeForm_clock (more : List FormField) (p : Parts) (rest : List Char) :
    takeForm? (.blanks :: .hour :: more) p ('T' :: rest) = none := by
  have shown : isBlank 'T' = false := by decide
  have number : takeNumber? 2 ('T' :: rest) = none := by
    simp [takeNumber?]
  simp only [takeForm?, FormField.take?, trimStartChars_cons shown, number]
  rfl

theorem takeForm_clockSecond {hour minute second : ℕ} (hour_lt : hour < 100) (minute_lt : minute < 100)
    (second_lt : second < 100) (p : Parts) (rest : List Char) :
    ∃ q, takeForm? (.mark 'T' :: clockSecondForm) p
      ('T' :: (twoDigits hour ++ ':' :: (twoDigits minute ++ ':' :: (twoDigits second ++ rest)))) =
        some (q, rest) := by
  have number : ∀ {n : ℕ} (_ : n < 100) (rest : List Char),
      takeNumber? 2 (trimStartChars (twoDigits n ++ rest)) = some (n, rest) := by
    intro n fits rest
    rw [twoDigits, trimStartChars_padNat, takeNumber_padNat (by norm_num) fits]
  refine ⟨{ p with hour, minute, second }, ?_⟩
  simp only [clockSecondForm, clockForm, List.cons_append, List.nil_append, takeForm?, FormField.take?,
    Option.map_some, skipMark_self, number hour_lt, number minute_lt, number second_lt]

/-- Every form begins with a date; with dashes in it, the date is all, or a time of day
follows, after a `T` in one form only. -/
theorem forms_cases : ∀ form ∈ forms,
    form.take 5 = dateForm '/' ∨ form.take 5 = dateForm '-' ∧
      (form.drop 5 = [] ∨ form.drop 5 = .mark 'T' :: clockSecondForm ∨
        (form.drop 5).take 2 = [.blanks, .hour]) := by
  decide

theorem readForm_eq_none {form : List FormField} {s : List Char}
    (left : ∀ p rest, takeForm? form .none s = some (p, rest) → rest ≠ []) : readForm? form s = none := by
  unfold readForm?
  split
  · rename_i taken
    exact absurd rfl (left _ _ taken)
  · rfl

/-- The text of a timestamp whose local year has a sign is written in no accepted form. -/
theorem readTimestamp_text_eq_none {t : Timestamp} (written : t.Written)
    (other : ¬(0 ≤ t.toLocal.date.year ∧ t.toLocal.date.year ≤ 9999)) : readTimestamp? t.text.toList = none := by
  have valid := localDate_valid t
  have day := valid.day_le.trans (daysInMonth_le _ _)
  have month := valid.month_le
  obtain ⟨hour, minute, second⟩ := written.clock_lt
  obtain ⟨sign, signed, year⟩ : ∃ sign, (sign = '-' ∨ sign = '+') ∧
      yearText t.toLocal.date.year = sign :: padNat '0' 4 t.toLocal.date.year.natAbs := by
    simp only [yearText, Bool.and_eq_true, decide_eq_true_eq, if_neg other]
    exact ⟨_, by split <;> simp, rfl⟩
  have text := text_toList t
  rw [year, List.cons_append] at text
  -- The strict form takes no sign; each of the others reads the date at most.
  have internet : readInternet? t.text.toList = none := by
    rw [text]
    exact readInternet_signed signed _
  simp only [readTimestamp?, trimChars_text, internet, List.findSome?_eq_none_iff]
  intro form mem
  apply readForm_eq_none
  intro p rest taken
  rw [text, ← List.take_append_drop 5 form] at taken
  obtain ⟨date, read⟩ := takeForm_date (n := t.toLocal.date.year.natAbs) signed
    (show t.toLocal.date.month < 100 by omega) (show t.toLocal.date.day < 100 by omega)
    ('T' :: (twoDigits t.toLocal.hour ++ ':' :: (twoDigits t.toLocal.minute ++ ':' ::
      (twoDigits t.toLocal.second ++ (fractionText t.toLocal.nanos ++ offsetText [':'] t.offset))))) .none
  obtain slashes | ⟨dashes, none | mark | time⟩ := forms_cases form mem
  · -- Slashes: the form fails after the year.
    rw [slashes, (read _).2] at taken
    exact nomatch taken
  · -- The date alone: the `T` is left over.
    rw [dashes, (read _).1, none] at taken
    obtain ⟨-, rfl⟩ := Prod.mk.inj (Option.some_inj.1 taken)
    simp
  · -- A `T` and a time of day: the offset is left over.
    obtain ⟨all, clockRead⟩ := takeForm_clockSecond hour minute second date
      (fractionText t.toLocal.nanos ++ offsetText [':'] t.offset)
    rw [dashes, (read _).1, mark, clockRead] at taken
    obtain ⟨-, rfl⟩ := Prod.mk.inj (Option.some_inj.1 taken)
    simp [offsetText]
  · -- A time of day at once: the `T` is no digit.
    rw [dashes, (read _).1, ← List.take_append_drop 2 (form.drop 5), time] at taken
    rw [List.cons_append, List.cons_append, takeForm_clock] at taken
    exact nomatch taken

end Folio.Calendar
