import Folio.Failure

/-!
# What comes of many tasks

Tasks end one after the other, in any order.  The first failure cancels the work of all
others, so most failures that follow only say that they were canceled.  What is reported is
the first failure that says more.
-/

namespace Folio

structure Tally where
  /-- The number of tasks that succeeded. -/
  count : Nat
  /-- The failure to report. -/
  failure : Option Failure
  deriving DecidableEq, Repr

namespace Tally

def empty : Tally := ⟨0, none⟩

/-- A failure is reported instead of an earlier one if only the earlier one is a
cancellation. -/
def report (first : Option Failure) (next : Failure) : Failure :=
  match first with
  | none => next
  | some first => if first.isCanceled && !next.isCanceled then next else first

def add (tally : Tally) : Except Failure Unit → Tally
  | .ok () => { tally with count := tally.count + 1 }
  | .error failure => { tally with failure := some (report tally.failure failure) }

/-- The work of all tasks is canceled as soon as one has failed. -/
def isCanceled (tally : Tally) : Bool :=
  tally.failure.isSome

/-- What came of all tasks: the number of files that were made, or a failure. -/
def result (tally : Tally) : Except Failure Nat :=
  match tally.failure with
  | some failure => .error failure
  | none => .ok tally.count

def ofResults (results : List (Except Failure Unit)) : Tally :=
  results.foldl add empty

end Tally

end Folio
