import Folio.Keyed
import Mathlib.Data.List.Induction
import Mathlib.Data.String.Basic
import Mathlib.Tactic

/-!
# Keyed lists in order

As long as the keys ascend, putting a value under a key changes that one entry and no other,
and the keys still ascend after it.
-/

namespace Folio.Keyed

variable {α : Type} {key : String} {entries : List (String × α)}

def Ascending (entries : List (String × α)) : Prop :=
  (keys entries).Pairwise (· < ·)

theorem ascending_nil : Ascending ([] : List (String × α)) := List.Pairwise.nil

theorem ascending_cons {k : String} {x : α} {rest : List (String × α)} :
    Ascending ((k, x) :: rest) ↔ (∀ e ∈ rest, k < e.1) ∧ Ascending rest := by
  simp [Ascending, keys]

theorem mem_set {value : α} {e : String × α} (mem : e ∈ set key value entries) : e = (key, value) ∨ e ∈ entries := by
  induction entries with
  | nil => simpa [set] using mem
  | cons entry rest ih =>
    rw [set] at mem
    split_ifs at mem with same before
    · obtain first | later := List.mem_cons.1 mem
      · exact .inl first
      · exact .inr (List.mem_cons_of_mem _ later)
    · exact List.mem_cons.1 mem
    · obtain first | later := List.mem_cons.1 mem
      · exact .inr (first ▸ List.mem_cons_self ..)
      · exact (ih later).imp_right (List.mem_cons_of_mem _)

theorem Ascending.set (ascending : Ascending entries) (key : String) (value : α) :
    Ascending (Keyed.set key value entries) := by
  induction entries with
  | nil => simp [Ascending, Keyed.set, keys]
  | cons entry rest ih =>
    obtain ⟨k, x⟩ := entry
    obtain ⟨first, later⟩ := ascending_cons.1 ascending
    rw [Keyed.set]
    split_ifs with same before
    · exact ascending_cons.2 ⟨same ▸ first, later⟩
    · -- Put in front of the first key that is greater: all the others are greater as well.
      refine ascending_cons.2 ⟨?_, ascending⟩
      intro e mem
      obtain rfl | mem := List.mem_cons.1 mem
      · exact before
      · exact before.trans (first e mem)
    · have after : k < key := lt_of_le_of_ne (not_lt.1 before) (Ne.symm same)
      refine ascending_cons.2 ⟨?_, ih later⟩
      intro e mem
      obtain rfl | mem := mem_set mem
      · exact after
      · exact first e mem

theorem mem_of_get? {x : α} (found : get? key entries = some x) : (key, x) ∈ entries := by
  induction entries with
  | nil => cases found
  | cons entry rest ih =>
    obtain ⟨k, y⟩ := entry
    rw [get?] at found
    split at found
    · rename_i same
      cases found
      exact same ▸ List.mem_cons_self
    · exact List.mem_cons_of_mem _ (ih found)

theorem get?_of_mem (ascending : Ascending entries) {x : α} (mem : (key, x) ∈ entries) : get? key entries = some x := by
  induction entries with
  | nil => contradiction
  | cons entry rest ih =>
    obtain ⟨k, y⟩ := entry
    obtain ⟨first, later⟩ := ascending_cons.1 ascending
    rw [get?]
    obtain same | mem := List.mem_cons.1 mem
    · cases same
      rw [if_pos rfl]
    · rw [if_neg (first _ mem).ne, ih later mem]

/-- A key that has one value only is looked up wherever it stands. -/
theorem get?_of_only {x : α} (mem : (key, x) ∈ entries) (only : ∀ e ∈ entries, e.1 = key → e.2 = x) :
    get? key entries = some x := by
  induction entries with
  | nil => contradiction
  | cons entry rest ih =>
    obtain ⟨k, y⟩ := entry
    rw [get?]
    split_ifs with same
    · exact congrArg some (only (k, y) List.mem_cons_self same)
    · have later : (key, x) ∈ rest := by
        obtain first | later := List.mem_cons.1 mem
        · cases first
          contradiction
        · exact later
      exact ih later fun e mem => only e (List.mem_cons_of_mem _ mem)

theorem Ascending.only (ascending : Ascending entries) {x : α} (mem : (key, x) ∈ entries) :
    ∀ e ∈ entries, e.1 = key → e.2 = x := by
  rintro ⟨k, y⟩ other rfl
  exact Option.some_inj.1 ((get?_of_mem ascending other).symm.trans (get?_of_mem ascending mem))

theorem Ascending.filter_key (ascending : Ascending entries) {x : α} (mem : (key, x) ∈ entries) :
    entries.filter (fun e => e.1 = key) = [(key, x)] := by
  induction entries with
  | nil => contradiction
  | cons entry rest ih =>
    obtain ⟨first, later⟩ := ascending_cons.1 ascending
    obtain rfl | mem := List.mem_cons.1 mem
    · have none : rest.filter (fun e => e.1 = key) = [] :=
        List.filter_eq_nil_iff.2 fun e mem => by simpa using (first e mem).ne'
      rw [List.filter_cons_of_pos (by simp), none]
    · rw [List.filter_cons_of_neg (by simpa using (first _ mem).ne), ih later mem]

theorem Ascending.filterMap {β : Type} (ascending : Ascending entries) (f : α → Option β) :
    Ascending (entries.filterMap fun (k, x) => (f x).map fun y => (k, y)) := by
  refine List.Pairwise.sublist ?_ ascending
  induction entries with
  | nil => exact .slnil
  | cons entry rest ih =>
    have others := ih (ascending_cons.1 ascending).2
    cases found : f entry.2 with
    | none => simpa [keys, found] using others.cons _
    | some y => simpa [keys, found] using others

/-- Puts the values of the entries under their keys, one after the other. -/
def setAll (entries known : List (String × α)) : List (String × α) :=
  entries.foldl (fun known (key, value) => set key value known) known

/-- Of several values under one key the last one stays. -/
theorem get?_setAll (key : String) (entries known : List (String × α)) :
    get? key (setAll entries known) = (get? key entries.reverse).or (get? key known) := by
  induction entries using List.reverseRecOn with
  | nil => rfl
  | append_singleton before latest ih =>
    obtain ⟨k, x⟩ := latest
    rw [setAll, List.foldl_append, List.foldl_cons, List.foldl_nil, List.reverse_append, List.reverse_singleton,
      List.singleton_append, get?]
    by_cases same : k = key
    · subst same
      rw [get?_set_self, if_pos rfl, Option.some_or]
    · rw [get?_set_of_ne (Ne.symm same), if_neg same]
      exact ih

theorem Ascending.setAll (ascending : Ascending entries) (more : List (String × α)) :
    Ascending (Keyed.setAll more entries) := by
  induction more generalizing entries with
  | nil => exact ascending
  | cons entry more ih => exact ih (ascending.set entry.1 entry.2)

theorem mem_setAll {more : List (String × α)} {e : String × α} (mem : e ∈ setAll more entries) :
    e ∈ more ∨ e ∈ entries := by
  induction more generalizing entries with
  | nil => exact .inr mem
  | cons entry more ih =>
    obtain later | before := ih mem
    · exact .inl (List.mem_cons_of_mem _ later)
    · obtain rfl | known := mem_set before
      · exact .inl List.mem_cons_self
      · exact .inr known

/-- Entries in order are all there after they have been put under their keys. -/
theorem get?_setAll_of_mem (ascending : Ascending entries) {x : α} (mem : (key, x) ∈ entries)
    (known : List (String × α)) : get? key (setAll entries known) = some x := by
  have latest : get? key entries.reverse = some x :=
    get?_of_only (List.mem_reverse.2 mem) fun e mem' => ascending.only mem e (List.mem_reverse.1 mem')
  rw [get?_setAll, latest, Option.some_or]

def others (key : String) (entries : List (String × α)) : List (String × α) :=
  entries.filter fun e => e.1 ≠ key

theorem others_cons_self (x : α) (rest : List (String × α)) : others key ((key, x) :: rest) = others key rest := by
  simp [others]

theorem others_cons_of_ne {k : String} (differs : k ≠ key) (x : α) (rest : List (String × α)) :
    others key ((k, x) :: rest) = (k, x) :: others key rest := by
  simp [others, differs]

theorem others_eq_self (absent : ∀ e ∈ entries, e.1 ≠ key) : others key entries = entries :=
  List.filter_eq_self.2 (by simpa using absent)

/-- The entry under a key stands beside those under other keys. -/
theorem perm_get? (ascending : Ascending entries) (key : String) :
    entries.Perm ((get? key entries).toList.map (key, ·) ++ others key entries) := by
  induction entries with
  | nil => exact .nil
  | cons entry rest ih =>
    obtain ⟨k, x⟩ := entry
    obtain ⟨first, later⟩ := ascending_cons.1 ascending
    by_cases same : k = key
    · subst same
      have kept := others_eq_self fun e mem => (first e mem).ne'
      rw [get?, if_pos rfl, others_cons_self, kept]
      exact .refl _
    · rw [get?, if_neg same, others_cons_of_ne same]
      exact ((ih later).cons _).trans List.perm_middle.symm

theorem others_set (key : String) (value : α) (entries : List (String × α)) :
    others key (set key value entries) = others key entries := by
  induction entries with
  | nil => exact others_cons_self value []
  | cons entry rest ih =>
    obtain ⟨k, x⟩ := entry
    rw [set]
    split_ifs with same before
    · rw [← same, others_cons_self, others_cons_self]
    · exact others_cons_self ..
    · rw [others_cons_of_ne (Ne.symm same), others_cons_of_ne (Ne.symm same), ih]

/-- Putting a value under a key keeps the entries under other keys. -/
theorem perm_set (ascending : Ascending entries) (key : String) (value : α) :
    (set key value entries).Perm ((key, value) :: others key entries) := by
  have split := perm_get? (ascending.set key value) key
  rw [get?_set_self, others_set] at split
  exact split

end Folio.Keyed
