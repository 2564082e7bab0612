/-!
# Lists in order of key

A list of pairs in ascending order of its keys, each key at most once, stands for a
finite map that is written out in that order.
-/

namespace Folio.Keyed

variable {α : Type}

def get? (key : String) : List (String × α) → Option α
  | [] => none
  | (k, x) :: rest => if k = key then some x else get? key rest

/-- Puts a value under a key, in place of the one that was there. -/
def set (key : String) (value : α) : List (String × α) → List (String × α)
  | [] => [(key, value)]
  | (k, x) :: rest =>
    if key = k then (key, value) :: rest
    else if key < k then (key, value) :: (k, x) :: rest
    else (k, x) :: set key value rest

/-- Changes the value under a key; `f` is told what was there. -/
def alter (key : String) (f : Option α → α) (entries : List (String × α)) :
    List (String × α) :=
  set key (f (get? key entries)) entries

def keys (entries : List (String × α)) : List String :=
  entries.map Prod.fst

theorem get?_set_self (key : String) (value : α) (entries : List (String × α)) :
    get? key (set key value entries) = some value := by
  induction entries with
  | nil => simp [set, get?]
  | cons entry rest ih =>
    obtain ⟨k, x⟩ := entry
    rw [set]
    split
    · simp [get?]
    · split
      · simp [get?]
      · rename_i differs _
        simp [get?, Ne.symm differs, ih]

theorem get?_set_of_ne {key other : String} (h : other ≠ key) (value : α)
    (entries : List (String × α)) : get? other (set key value entries) = get? other entries := by
  induction entries with
  | nil => simp [set, get?, Ne.symm h]
  | cons entry rest ih =>
    obtain ⟨k, x⟩ := entry
    rw [set]
    split
    · rename_i same
      subst same
      simp [get?, Ne.symm h]
    · split
      · simp [get?, Ne.symm h]
      · simp [get?, ih]

theorem mem_keys_iff {key : String} {entries : List (String × α)} :
    key ∈ keys entries ↔ (get? key entries).isSome := by
  induction entries with
  | nil => simp [keys, get?]
  | cons entry rest ih =>
    obtain ⟨k, x⟩ := entry
    by_cases same : k = key
    · simp [keys, get?, same]
    · simpa [keys, get?, same, Ne.symm same] using ih

end Folio.Keyed
