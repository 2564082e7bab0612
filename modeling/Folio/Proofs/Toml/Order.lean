import Folio.Proofs.Keyed
import Folio.Toml.Parser

/-!
# Tables in order

Every table that a document writes holds its keys in strictly ascending order, and so does every
table inside it.  A table in the making is in order as well: values and tables only get into it under
the keys to which they belong.

Main statement: `ordered_of_parse`.
-/

namespace Folio

namespace Toml

/-- The keys of a table ascend strictly, in the value and in all values that it holds. -/
inductive Value.Ordered : Value → Prop where
  | string (s : String) : Ordered (.string s)
  | integer (i : Int64) : Ordered (.integer i)
  | float (x : Float) : Ordered (.float x)
  | boolean (b : Bool) : Ordered (.boolean b)
  | moment (m : Moment) : Ordered (.moment m)
  | array {items : List Value} (each : ∀ v ∈ items, v.Ordered) : Ordered (.array items)
  | table {entries : Table} (ascending : Keyed.Ascending entries) (each : ∀ e ∈ entries, e.2.Ordered) :
      Ordered (.table entries)

/-- The same of what a table in the making holds. -/
inductive Item.Ordered : Item → Prop where
  | value {v : Value} (ordered : v.Ordered) : Ordered (.value v)
  | table {origin : TableOrigin} {entries : Entries} (ascending : Keyed.Ascending entries)
      (each : ∀ e ∈ entries, e.2.Ordered) : Ordered (.table origin entries)
  | tables {all : List Entries} (ascending : ∀ entries ∈ all, Keyed.Ascending entries)
      (each : ∀ entries ∈ all, ∀ e ∈ entries, e.2.Ordered) : Ordered (.tables all)

/-- The same of a table in the making. -/
structure Entries.Ordered (entries : Entries) : Prop where
  ascending : Keyed.Ascending entries
  each : ∀ e ∈ entries, e.2.Ordered

variable {entries entries' : Entries} {key : String} {item : Item} {v : Value} {all : List Entries}
  {origin : TableOrigin} {cs rest : List Char}

theorem ordered_nil : Entries.Ordered [] :=
  ⟨Keyed.ascending_nil, fun _ mem => nomatch mem⟩

theorem Entries.Ordered.toItem (ordered : entries.Ordered) (origin : TableOrigin) :
    (Item.table origin entries).Ordered :=
  .table ordered.ascending ordered.each

theorem Item.Ordered.inner (ordered : (Item.table origin entries).Ordered) : entries.Ordered := by
  cases ordered with
  | table ascending each => exact ⟨ascending, each⟩

theorem ordered_tables_iff : (Item.tables all).Ordered ↔ ∀ entries ∈ all, Entries.Ordered entries := by
  constructor
  · intro ordered
    cases ordered with
    | tables ascending each => exact fun entries mem => ⟨ascending entries mem, each entries mem⟩
  · intro ordered
    exact .tables (fun entries mem => (ordered entries mem).ascending) fun entries mem => (ordered entries mem).each

theorem Entries.Ordered.set (ordered : entries.Ordered) (key : String) (inside : item.Ordered) :
    Entries.Ordered (Keyed.set key item entries) := by
  refine ⟨ordered.ascending.set key item, fun e mem => ?_⟩
  obtain rfl | mem := Keyed.mem_set mem
  · exact inside
  · exact ordered.each e mem

theorem Entries.Ordered.get? (ordered : entries.Ordered) (found : Keyed.get? key entries = some item) : item.Ordered :=
  ordered.each _ (Keyed.mem_of_get? found)

/-! ## Changing a table -/

def KeepsOrder (change : TableOrigin → Entries → Option Entries) : Prop :=
  ∀ (origin : TableOrigin) (entries entries' : Entries), entries.Ordered → change origin entries = some entries' →
    entries'.Ordered

theorem keepsOrder_addValue (afterDots : Bool) (key : String) (ordered : v.Ordered) :
    KeepsOrder (addValue afterDots key v) := by
  intro origin entries entries' before changed
  rw [addValue] at changed
  split_ifs at changed
  cases changed
  exact before.set key (.value ordered)

theorem keepsOrder_openTable (key : String) : KeepsOrder (openTable key) := by
  intro origin entries entries' before changed
  rw [openTable] at changed
  split at changed
  · cases changed
    exact before.set key (ordered_nil.toItem .opened)
  · rename_i inner found
    cases changed
    exact before.set key ((before.get? found).inner.toItem .opened)
  · cases changed

theorem keepsOrder_openNext (key : String) : KeepsOrder (openNext key) := by
  intro origin entries entries' before changed
  rw [openNext] at changed
  split at changed
  · cases changed
    refine before.set key (ordered_tables_iff.2 fun entries mem => ?_)
    rw [List.mem_singleton.1 mem]
    exact ordered_nil
  · rename_i all found
    cases changed
    refine before.set key (ordered_tables_iff.2 fun entries mem => ?_)
    obtain mem | mem := List.mem_append.1 mem
    · exact ordered_tables_iff.1 (before.get? found) entries mem
    · rw [List.mem_singleton.1 mem]
      exact ordered_nil
  · cases changed

/-- A change deep inside keeps the order of all tables on the way to it. -/
theorem keepsOrder_alterAt (dotted : Bool) {change : TableOrigin → Entries → Option Entries} (keeps : KeepsOrder change)
    (keys : List String) : KeepsOrder (alterAt dotted change keys) := by
  induction keys with
  | nil => exact keeps
  | cons key keys ih =>
    intro origin entries entries' before changed
    rw [alterAt] at changed
    split at changed
    · obtain ⟨inner, inside, rfl⟩ := Option.map_eq_some_iff.1 changed
      exact before.set key ((ih _ _ _ ordered_nil inside).toItem _)
    · cases changed
    · rename_i all found
      split at changed
      · rename_i last isLast
        have known := ordered_tables_iff.1 (before.get? found)
        obtain ⟨inner, inside, rfl⟩ := Option.map_eq_some_iff.1 changed
        refine before.set key (ordered_tables_iff.2 fun entries mem => ?_)
        obtain mem | mem := List.mem_append.1 mem
        · exact known entries (List.mem_of_mem_dropLast mem)
        · rw [List.mem_singleton.1 mem]
          exact ih _ _ _ (known last (List.mem_of_getLast? isLast)) inside
      · cases changed
    · rename_i origin inner found
      split_ifs at changed
      obtain ⟨inner', inside, rfl⟩ := Option.map_eq_some_iff.1 changed
      exact before.set key ((ih _ _ _ (before.get? found).inner inside).toItem origin)

theorem Entries.Ordered.addDotted (ordered : entries.Ordered) (inside : v.Ordered) {keys : List String}
    (added : addDotted keys key v entries = some entries') : entries'.Ordered :=
  keepsOrder_alterAt true (keepsOrder_addValue _ key inside) keys _ _ _ ordered added

/-! ## What a table becomes -/

theorem entriesToTable_eq_map (entries : Entries) :
    entriesToTable entries = entries.map fun e => (e.1, e.2.toValue) := by
  induction entries with
  | nil => rfl
  | cons entry more ih => rw [entriesToTable, ih, List.map_cons]

theorem tablesToValues_eq_map (all : List Entries) :
    tablesToValues all = all.map fun entries => .table (entriesToTable entries) := by
  induction all with
  | nil => rfl
  | cons entries more ih => rw [tablesToValues, ih, List.map_cons]

theorem ordered_entriesToTable (ascending : Keyed.Ascending entries) (each : ∀ e ∈ entries, e.2.toValue.Ordered) :
    (Value.table (entriesToTable entries)).Ordered := by
  rw [entriesToTable_eq_map]
  refine .table ?_ fun e mem => ?_
  · simpa [Keyed.Ascending, Keyed.keys, Function.comp_def] using ascending
  · obtain ⟨entry, known, rfl⟩ := List.mem_map.1 mem
    exact each entry known

theorem Item.Ordered.toValue (ordered : item.Ordered) : item.toValue.Ordered := by
  induction ordered with
  | value ordered => exact ordered
  | table ascending each ih => exact ordered_entriesToTable ascending ih
  | @tables all ascending each ih =>
    rw [Item.toValue, tablesToValues_eq_map]
    refine .array fun v mem => ?_
    obtain ⟨entries, known, rfl⟩ := List.mem_map.1 mem
    exact ordered_entriesToTable (ascending entries known) (ih entries known)

theorem Entries.Ordered.toTable (ordered : entries.Ordered) : (Value.table (entriesToTable entries)).Ordered :=
  (ordered.toItem .opened).toValue

/-! ## Reading -/

theorem ordered_of_integer (read : integer? cs = some (v, rest)) : v.Ordered := by
  have based (base : Nat) (body : List Char)
      (read : ((digits? (isDigitOf base) body).bind fun found =>
        (integerValue? (valueInBase base found.1)).map (·, found.2)) = some (v, rest)) : v.Ordered := by
    obtain ⟨found, -, read⟩ := Option.bind_eq_some_iff.1 read
    obtain ⟨w, read, same⟩ := Option.map_eq_some_iff.1 read
    rw [integerValue?] at read
    split_ifs at read
    cases read
    cases same
    exact .integer _
  simp only [integer?] at read
  split at read
  · exact based 16 _ read
  · exact based 8 _ read
  · exact based 2 _ read
  · obtain ⟨⟨text, more⟩, -, read⟩ := Option.bind_eq_some_iff.1 read
    obtain ⟨i, -, same⟩ := Option.map_eq_some_iff.1 read
    cases same
    exact .integer i

theorem ordered_of_digitFloat (read : digitFloat? cs = some (v, rest)) : v.Ordered := by
  have ends (text more : List Char) (read : ((Decimal.readFloat? text).bind fun x =>
      if x == 1.0 / 0.0 then none else some (.float x, more)) = some (v, rest)) : v.Ordered := by
    obtain ⟨x, -, read⟩ := Option.bind_eq_some_iff.1 read
    split_ifs at read
    cases read
    exact .float x
  obtain ⟨⟨whole, more⟩, -, read⟩ := Option.bind_eq_some_iff.1 read
  dsimp only at read
  split at read
  · split at read
    · exact ends _ _ read
    · exact ends _ _ read
  · obtain ⟨⟨text, more⟩, -, read⟩ := Option.bind_eq_some_iff.1 read
    exact ends _ _ read

theorem ordered_of_wordFloat (read : wordFloat? cs = some (v, rest)) : v.Ordered := by
  simp only [wordFloat?] at read
  split_ifs at read <;> cases read <;> exact .float _

/-- A scalar holds no table. -/
theorem ordered_of_scalar (read : scalar? cs = some (v, rest)) : v.Ordered := by
  rw [scalar?] at read
  split_ifs at read
  · cases read
    exact .boolean true
  · cases read
    exact .boolean false
  · split at read
    · cases read
      exact .moment _
    · obtain (number | ⟨-, number⟩) | ⟨-, number⟩ := by simpa only [Option.or_eq_some_iff] using read
      · exact ordered_of_digitFloat number
      · exact ordered_of_wordFloat number
      · exact ordered_of_integer number

/-- What one value, the items of an array and the pairs of a table are read to, in so many steps. -/
structure ReadsOrdered (fuel : Nat) : Prop where
  value {depth : Nat} {cs rest : List Char} {v : Value} (read : value? fuel depth cs = some (v, rest)) : v.Ordered
  items {depth : Nat} {cs rest : List Char} {vs : List Value} (read : items? fuel depth cs = some (vs, rest)) :
    ∀ v ∈ vs, v.Ordered
  pairs {depth : Nat} {entries entries' : Entries} {cs rest : List Char} (before : entries.Ordered)
    (read : pairs? fuel depth entries cs = some (entries', rest)) : entries'.Ordered

theorem ReadsOrdered.value_succ {fuel depth : Nat} (inside : ReadsOrdered fuel)
    (read : value? (fuel + 1) depth cs = some (v, rest)) : v.Ordered := by
  rw [value?.eq_def] at read
  dsimp only at read
  split at read
  · split_ifs at read
    obtain ⟨⟨items, more⟩, listed, same⟩ := Option.map_eq_some_iff.1 read
    cases same
    exact .array (inside.items listed)
  · split_ifs at read
    split at read
    · cases read
      exact .table Keyed.ascending_nil fun _ mem => nomatch mem
    · obtain ⟨⟨entries, more⟩, paired, same⟩ := Option.map_eq_some_iff.1 read
      cases same
      exact (inside.pairs ordered_nil paired).toTable
  · split_ifs at read
    · obtain ⟨⟨s, more⟩, -, same⟩ := Option.map_eq_some_iff.1 read
      cases same
      exact .string _
    · exact ordered_of_scalar read
  · cases read

theorem ReadsOrdered.items_succ {fuel depth : Nat} {vs : List Value} (inside : ReadsOrdered fuel)
    (read : items? (fuel + 1) depth cs = some (vs, rest)) : ∀ v ∈ vs, v.Ordered := by
  rw [items?.eq_def] at read
  dsimp only at read
  split at read
  · cases read
    exact fun _ mem => nomatch mem
  · obtain ⟨⟨v, more⟩, first, read⟩ := Option.bind_eq_some_iff.1 read
    dsimp only at read
    split at read
    · obtain ⟨⟨others, more⟩, later, read⟩ := Option.bind_eq_some_iff.1 read
      cases read
      exact List.forall_mem_cons.2 ⟨inside.value first, inside.items later⟩
    · cases read
      exact List.forall_mem_singleton.2 (inside.value first)
    · cases read

theorem ReadsOrdered.pairs_succ {fuel depth : Nat} (inside : ReadsOrdered fuel) (before : entries.Ordered)
    (read : pairs? (fuel + 1) depth entries cs = some (entries', rest)) : entries'.Ordered := by
  rw [pairs?.eq_def] at read
  obtain ⟨⟨keys, key, more⟩, -, read⟩ := Option.bind_eq_some_iff.1 read
  obtain ⟨more, -, read⟩ := Option.bind_eq_some_iff.1 read
  obtain ⟨⟨v, more⟩, valued, read⟩ := Option.bind_eq_some_iff.1 read
  obtain ⟨between, added, read⟩ := Option.bind_eq_some_iff.1 read
  have after : between.Ordered := before.addDotted (inside.value valued) added
  split at read
  · exact inside.pairs after read
  · cases read
    exact after
  · cases read

theorem readsOrdered (fuel : Nat) : ReadsOrdered fuel := by
  induction fuel with
  | zero => exact ⟨fun read => (nomatch read), fun read => (nomatch read), fun _ read => (nomatch read)⟩
  | succ fuel ih => exact ⟨ih.value_succ, ih.items_succ, ih.pairs_succ⟩

/-! ## Lines -/

theorem ordered_of_takeLine {progress progress' : Progress} (before : progress.entries.Ordered)
    (read : takeLine? progress cs = some (progress', rest)) : progress'.entries.Ordered := by
  rw [takeLine?.eq_def] at read
  split at read
  · obtain ⟨⟨keys, key, more⟩, -, read⟩ := Option.bind_eq_some_iff.1 read
    obtain ⟨more, -, read⟩ := Option.bind_eq_some_iff.1 read
    obtain ⟨more, -, read⟩ := Option.bind_eq_some_iff.1 read
    obtain ⟨entries, opened, read⟩ := Option.bind_eq_some_iff.1 read
    cases read
    exact keepsOrder_alterAt false (keepsOrder_openNext key) keys _ _ _ before opened
  · obtain ⟨⟨keys, key, more⟩, -, read⟩ := Option.bind_eq_some_iff.1 read
    obtain ⟨more, -, read⟩ := Option.bind_eq_some_iff.1 read
    obtain ⟨entries, opened, read⟩ := Option.bind_eq_some_iff.1 read
    cases read
    exact keepsOrder_alterAt false (keepsOrder_openTable key) keys _ _ _ before opened
  · obtain ⟨⟨keys, key, more⟩, -, read⟩ := Option.bind_eq_some_iff.1 read
    obtain ⟨more, -, read⟩ := Option.bind_eq_some_iff.1 read
    obtain ⟨⟨v, more⟩, valued, read⟩ := Option.bind_eq_some_iff.1 read
    obtain ⟨entries, added, read⟩ := Option.bind_eq_some_iff.1 read
    cases read
    have keeps : KeepsOrder fun _ => addDotted keys key v :=
      fun _ _ _ ordered added => ordered.addDotted ((readsOrdered _).value valued) added
    exact keepsOrder_alterAt false keeps progress.current _ _ _ before added

theorem ordered_of_takeLines {fuel : Nat} {progress progress' : Progress} (before : progress.entries.Ordered)
    (read : takeLines? fuel progress cs = some progress') : progress'.entries.Ordered := by
  induction fuel generalizing progress cs with
  | zero => cases read
  | succ fuel ih =>
    rw [takeLines?] at read
    have goesOn (between : Progress) (following : Option (List Char)) (after : between.entries.Ordered)
        (read : following.bind (takeLines? fuel between) = some progress') : progress'.entries.Ordered := by
      obtain ⟨more, -, read⟩ := Option.bind_eq_some_iff.1 read
      exact ih after read
    dsimp only at read
    split_ifs at read
    · -- A line without anything leaves what was read so far.
      dsimp only [Option.bind_eq_bind, Option.bind_some] at read
      split at read
      · cases read
        exact before
      · exact goesOn progress _ before read
    · obtain ⟨⟨between, more⟩, line, read⟩ := Option.bind_eq_some_iff.1 read
      have after := ordered_of_takeLine before line
      dsimp only at read
      split at read
      · cases read
        exact after
      · exact goesOn between _ after read

/-- Every table that a document writes has its keys in strictly ascending order, at every depth. -/
theorem ordered_of_parse {text : String} {table : Table} (read : parse text = some table) :
    (Value.table table).Ordered := by
  obtain ⟨progress, lines, rfl⟩ := Option.map_eq_some_iff.1 read
  exact (ordered_of_takeLines ordered_nil lines).toTable

end Toml

end Folio
