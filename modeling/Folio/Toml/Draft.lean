import Folio.Keyed
import Folio.Toml.Basic

/-!
# Tables in the making

A document says piece by piece what its tables hold, and no piece may say anew what an
earlier one has said.  How a table came to be decides what may still be added to it: one
that only lies on the way to another may yet be opened by a header of its own, one made by
a dotted key takes only further dotted keys, and one that is written as a value takes
nothing.
-/

namespace Folio.Toml

/-- How a table came to be. -/
inductive TableOrigin where
  /-- A header names it, or it is the document itself. -/
  | opened
  /-- It lies on the way to a table that a header names. -/
  | implied
  /-- A dotted key leads through it. -/
  | dotted
  deriving DecidableEq, Repr

/-- What a table in the making holds under a key. -/
inductive Item where
  | value (v : Value)
  | table (origin : TableOrigin) (entries : List (String × Item))
  /-- A list of tables, each opened by a header; the last can be added to. -/
  | tables (all : List (List (String × Item)))

abbrev Entries := List (String × Item)

/-- Changes the table that the keys lead to, making the tables on the way that are missing.
`dotted` says that the keys are those of a dotted key. -/
def alterAt (dotted : Bool) (change : TableOrigin → Entries → Option Entries) :
    List String → TableOrigin → Entries → Option Entries
  | [], origin, entries => change origin entries
  | key :: keys, _, entries =>
    match Keyed.get? key entries with
    | none =>
      let origin := if dotted then .dotted else .implied
      (alterAt dotted change keys origin []).map fun inner =>
        Keyed.set key (.table origin inner) entries
    | some (.value _) => none
    | some (.tables all) =>
      match all.getLast? with
      | some last =>
        (alterAt dotted change keys .opened last).map fun inner =>
          Keyed.set key (.tables (all.dropLast ++ [inner])) entries
      | none => none
    | some (.table origin inner) =>
      if dotted ∧ origin = .opened then none
      else
        (alterAt dotted change keys origin inner).map fun inner =>
          Keyed.set key (.table origin inner) entries

def addValue (afterDots : Bool) (key : String) (v : Value) (origin : TableOrigin)
    (entries : Entries) : Option Entries :=
  if afterDots ∧ origin ≠ .dotted then none
  else if (Keyed.get? key entries).isSome then none
  else some (Keyed.set key (.value v) entries)

def addDotted (keys : List String) (key : String) (v : Value) (entries : Entries) :
    Option Entries :=
  alterAt true (addValue (!keys.isEmpty) key v) keys .opened entries

def openTable (key : String) (_ : TableOrigin) (entries : Entries) : Option Entries :=
  match Keyed.get? key entries with
  | none => some (Keyed.set key (.table .opened []) entries)
  | some (.table .implied inner) => some (Keyed.set key (.table .opened inner) entries)
  | some _ => none

/-- Opens one more table of a list of tables under a key. -/
def openNext (key : String) (_ : TableOrigin) (entries : Entries) : Option Entries :=
  match Keyed.get? key entries with
  | none => some (Keyed.set key (.tables [[]]) entries)
  | some (.tables all) => some (Keyed.set key (.tables (all ++ [[]])) entries)
  | some _ => none

mutual

def Item.toValue : Item → Value
  | .value v => v
  | .table _ entries => .table (entriesToTable entries)
  | .tables all => .array (tablesToValues all)
termination_by structural x => x

def entriesToTable : List (String × Item) → List (String × Value)
  | [] => []
  | (key, item) :: more => (key, item.toValue) :: entriesToTable more
termination_by structural x => x

def tablesToValues : List (List (String × Item)) → List Value
  | [] => []
  | entries :: more => .table (entriesToTable entries) :: tablesToValues more
termination_by structural x => x

end

end Folio.Toml
