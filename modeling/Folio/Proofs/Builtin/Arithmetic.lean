import Folio.Builtin.Basic
import Folio.Proofs.Decimal.Numeral

/-!
# Arithmetic on whole numbers

An operation on whole numbers gives the result that it has over all integers, or it is refused.
Sums, differences and products are refused where they do not fit into sixty-four bits, divisions
by zero, and the division of the least number by -1.  That one refuses the remainder too, which
would be zero: a step is refused where the quotient does not fit.

Main statement: `exact_or_refused`.
-/

namespace Folio.Builtin

open Decimal (fitsInt64 readInt64?)

/-! ## One step -/

/-- The step from `a` by `b` is done: no division by zero, and neither the result nor, in a division,
the quotient is too large. -/
structure Operation.Allows (op : Operation) (a b : ℤ) : Prop where
  divisor : op.divides = true → b ≠ 0
  fits : fitsInt64 (op.exact a b) = true
  quotient : op = .mod → ¬(a = Int64.minValue.toInt ∧ b = -1)

variable {op : Operation} {a b : Int64}

theorem fitsInt64_iff {i : ℤ} : fitsInt64 i = true ↔ -2 ^ 63 ≤ i ∧ i < 2 ^ 63 := by
  have least : Int64.minValue.toInt = -2 ^ 63 := by decide
  have most : Int64.maxValue.toInt = 2 ^ 63 - 1 := by decide
  simp only [fitsInt64, Bool.and_eq_true, decide_eq_true_eq, least, most]
  omega

theorem fitsInt64_toInt (a : Int64) : fitsInt64 a.toInt = true := by
  rw [fitsInt64, Bool.and_eq_true, decide_eq_true_eq, decide_eq_true_eq]
  exact ⟨a.minValue_le_toInt, a.toInt_le⟩

theorem toInt_ofInt_of_fits {i : ℤ} (fits : fitsInt64 i = true) : (Int64.ofInt i).toInt = i := by
  rw [fitsInt64_iff] at fits
  exact Int64.toInt_ofInt_of_le fits.1 fits.2

/-- Of all quotients of numbers of sixty-four bits one does not fit. -/
theorem fitsInt64_tdiv_iff (a b : Int64) :
    fitsInt64 (a.toInt.tdiv b.toInt) = true ↔ ¬(a.toInt = Int64.minValue.toInt ∧ b.toInt = -1) := by
  have least : Int64.minValue.toInt = -2 ^ 63 := by decide
  have bounds := fitsInt64_iff.1 (fitsInt64_toInt a)
  rw [fitsInt64_iff, least]
  generalize a.toInt = a at bounds
  generalize b.toInt = b
  constructor
  · rintro fits ⟨rfl, rfl⟩
    exact absurd fits (by decide)
  · intro other
    by_cases unit : b.natAbs = 1
    · obtain rfl | rfl : b = 1 ∨ b = -1 := by omega
      · rw [Int.tdiv_one]
        exact bounds
      · rw [Int.tdiv_neg, Int.tdiv_one]
        omega
    · -- Every other divisor makes the number smaller by half at least, and zero gives zero.
      have magnitude : (a.tdiv b).natAbs = a.natAbs / b.natAbs := Int.natAbs_tdiv a b
      have halved : a.natAbs / b.natAbs ≤ a.natAbs / 2 := by
        obtain zero | several : b.natAbs = 0 ∨ 2 ≤ b.natAbs := by omega
        · simp [zero]
        · exact Nat.div_le_div_left several (by decide)
      omega

/-- A step that is allowed gives the exact result. -/
theorem Operation.Allows.onInts (allows : op.Allows a.toInt b.toInt) :
    op.onInts a b = .ok (.int (Int64.ofInt (op.exact a.toInt b.toInt))) := by
  obtain ⟨divisor, fits, quotient⟩ := allows
  have noZero : ¬(op.divides && b == 0) = true := by
    simp only [Bool.and_eq_true, beq_iff_eq, not_and]
    rintro divides rfl
    exact divisor divides rfl
  have both : (fitsInt64 (op.exact a.toInt b.toInt) &&
      fitsInt64 (if op.divides then Operation.div.exact a.toInt b.toInt else op.exact a.toInt b.toInt)) = true := by
    rw [fits, Bool.true_and]
    cases op with
    | add | sub | mul | div => exact fits
    | mod => exact (fitsInt64_tdiv_iff a b).2 (quotient rfl)
  rw [Operation.onInts, if_neg noZero]
  dsimp only
  rw [if_pos both]

/-- Every other step is refused. -/
theorem onInts_of_not_allows (refused : ¬op.Allows a.toInt b.toInt) :
    op.onInts a b = .error (.call (.divisionByZero op.name)) ∨ op.onInts a b = .error (.call (.overflow op.name)) := by
  rw [Operation.onInts]
  by_cases zero : (op.divides && b == 0) = true
  · exact .inl (if_pos zero)
  · right
    rw [if_neg zero]
    dsimp only
    refine if_neg fun both => refused ?_
    rw [Bool.and_eq_true] at both
    refine ⟨fun divides same => zero ?_, both.1, ?_⟩
    · rw [divides, Bool.true_and, beq_iff_eq]
      exact Int64.toInt_inj.1 same
    · rintro rfl
      exact (fitsInt64_tdiv_iff a b).1 both.2

/-! ## The fold -/

/-- The argument is the integer, or a string that writes it between blanks. -/
inductive Writes : Value → Int64 → Prop where
  | int (i : Int64) : Writes (.int i) i
  | str {s : String} {i : Int64} (read : readInt64? (Text.trimChars s.toList) = some i) : Writes (.str s) i

def Operation.total (op : Operation) (start : ℤ) (is : List Int64) : ℤ :=
  is.foldl (fun acc i => op.exact acc i.toInt) start

def Operation.AllowsAll (op : Operation) : ℤ → List Int64 → Prop
  | _, [] => True
  | acc, i :: is => op.Allows acc i.toInt ∧ op.AllowsAll (op.exact acc i.toInt) is

variable {v : Value} {vs : List Value} {i : Int64} {is : List Int64}

theorem Writes.ofValue (writes : Writes v i) (function : String) : Number.ofValue function v = .ok (.int i) := by
  cases writes with
  | int => rfl
  | str read => simp only [Number.ofValue, read]

/-- A fold of which every step is allowed comes to the exact result. -/
theorem foldFrom_eq_ok (writes : List.Forall₂ Writes vs is) (acc : Int64) (allows : op.AllowsAll acc.toInt is) :
    ∃ r : Int64, op.foldFrom (.int acc) vs = .ok (.int r) ∧ r.toInt = op.total acc.toInt is := by
  induction writes generalizing acc with
  | nil => exact ⟨acc, rfl, rfl⟩
  | @cons v i vs is first rest ih =>
    obtain ⟨here, later⟩ := allows
    have same := toInt_ofInt_of_fits here.fits
    obtain ⟨r, folded, result⟩ := ih (Int64.ofInt (op.exact acc.toInt i.toInt)) (by rwa [same])
    refine ⟨r, ?_, ?_⟩
    · rw [Operation.foldFrom, first.ofValue]
      dsimp only
      rw [Operation.apply, here.onInts]
      exact folded
    · rw [result, same]
      rfl

/-- A fold stops at the first step that is not allowed. -/
theorem foldFrom_eq_error (writes : List.Forall₂ Writes vs is) (acc : Int64) (refused : ¬op.AllowsAll acc.toInt is) :
    op.foldFrom (.int acc) vs = .error (.call (.divisionByZero op.name)) ∨
      op.foldFrom (.int acc) vs = .error (.call (.overflow op.name)) := by
  induction writes generalizing acc with
  | nil => exact absurd trivial refused
  | @cons v i vs is first rest ih =>
    rw [Operation.foldFrom, first.ofValue]
    dsimp only
    rw [Operation.apply]
    by_cases here : op.Allows acc.toInt i.toInt
    · rw [here.onInts]
      refine ih _ ?_
      rw [toInt_ofInt_of_fits here.fits]
      exact fun later => refused ⟨here, later⟩
    · obtain zero | large := onInts_of_not_allows here
      · exact .inl (by rw [zero])
      · exact .inr (by rw [large])

theorem strict_operation {c : Callable} (named : c.name = op.name) (args : List Value) :
    toolbox.strict c args = op.run args := by
  have found : Operation.ofName? c.name = some op := by
    rw [named]
    cases op <;> decide
  simp only [toolbox, tools, found]

/-- An operation over arguments that write integers gives the exact result as an integer, if every step
of the fold is allowed.  Otherwise it is refused. -/
theorem exact_or_refused (op : Operation) (c : Callable) (named : c.name = op.name)
    (writes : List.Forall₂ Writes (v :: vs) (i :: is)) :
    (op.AllowsAll i.toInt is →
        ∃ r : Int64, toolbox.strict c (v :: vs) = .ok (.int r) ∧ r.toInt = op.total i.toInt is) ∧
      (¬op.AllowsAll i.toInt is →
        toolbox.strict c (v :: vs) = .error (.call (.divisionByZero op.name)) ∨
          toolbox.strict c (v :: vs) = .error (.call (.overflow op.name))) := by
  obtain - | ⟨first, rest⟩ := writes
  rw [strict_operation named, Operation.run, first.ofValue]
  dsimp only
  refine ⟨fun allows => ?_, fun refused => ?_⟩
  · obtain ⟨r, folded, result⟩ := foldFrom_eq_ok rest i allows
    exact ⟨r, by rw [folded]; rfl, result⟩
  · obtain zero | large := foldFrom_eq_error rest i refused
    · exact .inl (by rw [zero]; rfl)
    · exact .inr (by rw [large]; rfl)

/-- A remainder of a negative number that a string writes, and a sum that does not fit. -/
theorem exact_or_refused_blanks :
    (∃ r : Int64, toolbox.strict ⟨.strict, "mod", 0⟩ [.str " -7 ", .int 4, .int 2] = .ok (.int r) ∧ r.toInt = -1) ∧
      (toolbox.strict ⟨.strict, "add", 0⟩ [.int Int64.maxValue, .str "+1"] = .error (.call (.divisionByZero "add")) ∨
        toolbox.strict ⟨.strict, "add", 0⟩ [.int Int64.maxValue, .str "+1"] = .error (.call (.overflow "add"))) := by
  have seven : Writes (.str " -7 ") (-7) := .str (by decide)
  have one : Writes (.str "+1") 1 := .str (by decide)
  have steps : Operation.mod.AllowsAll (-7 : Int64).toInt [4, 2] :=
    ⟨⟨by decide, by decide, by decide⟩, ⟨by decide, by decide, by decide⟩, trivial⟩
  have large : ¬Operation.add.AllowsAll Int64.maxValue.toInt [1] := by
    rintro ⟨⟨-, fits, -⟩, -⟩
    exact absurd fits (by decide)
  exact ⟨(exact_or_refused .mod ⟨.strict, "mod", 0⟩ rfl (.cons seven (.cons (.int 4) (.cons (.int 2) .nil)))).1 steps,
    (exact_or_refused .add ⟨.strict, "add", 0⟩ rfl (.cons (.int _) (.cons one .nil))).2 large⟩

/-- The least number has no remainder by -1, though zero would fit. -/
theorem least_modulo_minus_one_refused :
    Operation.mod.total Int64.minValue.toInt [-1] = 0 ∧ fitsInt64 0 = true ∧
      toolbox.strict ⟨.strict, "mod", 0⟩ [.int Int64.minValue, .int (-1)] = .error (.call (.overflow "mod")) := by
  refine ⟨by decide, by decide, ?_⟩
  have named : (⟨.strict, "mod", 0⟩ : Callable).name = Operation.mod.name := rfl
  rw [strict_operation named]
  rfl

end Folio.Builtin
