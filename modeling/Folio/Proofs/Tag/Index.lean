import Folio.Aggregate
import Folio.Builtin.Basic
import Folio.Eval.Machine
import Folio.Proofs.Eval.Outcome
import Folio.Proofs.Keyed

/-!
# The index of tags and its documents

The index is the relation "carries a tag of this name" read from the names: a name that is not
blank is there if some document carries it, and has the documents that carry it, each once.
They stand in the order of their dates; where dates agree they keep their order.

The documents are taken in one after the other, and with each of them the names of its tags one
after the other.  What stands under a name after that is what `listed` says.

Main statement: `tagIndex_inverts`.
-/

namespace Folio

open Calendar (Timestamp)
open Keyed (Ascending)
open Text (isBlankText)

/-! ## The order of dates -/

def Calendar.Timestamp.NotAfter (a b : Timestamp) : Prop :=
  a.seconds < b.seconds ∨ a.seconds = b.seconds ∧ a.nanos ≤ b.nanos

/-- The first date is not after the second; having none is after every date. -/
def NotAfter : Option Timestamp → Option Timestamp → Prop
  | some a, some b => a.NotAfter b
  | none, some _ => False
  | _, none => True

/-- Both dates are the same moment, or there is neither. -/
def SameDate : Option Timestamp → Option Timestamp → Prop
  | some a, some b => a.seconds = b.seconds ∧ a.nanos = b.nanos
  | none, none => True
  | _, _ => False

theorem Calendar.Timestamp.compare_ne_gt_iff {a b : Timestamp} : a.compare b ≠ .gt ↔ a.NotAfter b := by
  rw [Timestamp.compare, Timestamp.NotAfter]
  obtain before | same | after := lt_trichotomy a.seconds b.seconds
  · simp [compare_lt_iff_lt.2 before, before]
  · simp [same, compare_le_iff_le]
  · simp [compare_gt_iff_gt.2 after, after.not_gt, after.ne']

theorem compareDates_ne_gt_iff {a b : Option Timestamp} : compareDates a b ≠ .gt ↔ NotAfter a b := by
  cases a <;> cases b <;> simp [compareDates, NotAfter, Timestamp.compare_ne_gt_iff]

theorem NotAfter.trans {a b c : Option Timestamp} (first : NotAfter a b) (second : NotAfter b c) : NotAfter a c := by
  match a, b, c with
  | some a, some b, some c =>
    simp only [NotAfter, Timestamp.NotAfter] at first second ⊢
    omega
  | _, _, none => simp [NotAfter]
  | none, some b, some c => exact first.elim
  | _, none, some c => exact second.elim

theorem notAfter_total (a b : Option Timestamp) : NotAfter a b ∨ NotAfter b a := by
  match a, b with
  | some a, some b =>
    simp only [NotAfter, Timestamp.NotAfter]
    omega
  | _, none => exact .inl (by simp [NotAfter])
  | none, some b => exact .inr trivial

theorem SameDate.notAfter {a b : Option Timestamp} (same : SameDate a b) : NotAfter a b := by
  match a, b with
  | some a, some b => exact .inr ⟨same.1, same.2.le⟩
  | none, none => trivial

/-! ## Sorting by date -/

section Sorting

variable {members : List Dated}

theorem sortByDate_perm (members : List Dated) : (sortByDate members).Perm (members.map (·.document)) :=
  (List.mergeSort_perm _ _).map _

/-- Comparing the dates of two documents is a linear preorder, which is what a merge sort wants. -/
theorem notGreater_trans (a b c : Dated) (first : compareDates a.date b.date != .gt)
    (second : compareDates b.date c.date != .gt) : compareDates a.date c.date != .gt := by
  simp only [bne_iff_ne, compareDates_ne_gt_iff] at first second ⊢
  exact first.trans second

theorem notGreater_total (a b : Dated) :
    (compareDates a.date b.date != .gt || compareDates b.date a.date != .gt) = true := by
  simp only [Bool.or_eq_true, bne_iff_ne, compareDates_ne_gt_iff]
  exact notAfter_total a.date b.date

theorem sortByDate_pairwise {dates : Document → Option Timestamp} (known : ∀ m ∈ members, m.date = dates m.document) :
    (sortByDate members).Pairwise fun a b => NotAfter (dates a) (dates b) := by
  have sorted := List.pairwise_mergeSort notGreater_trans notGreater_total members
  refine List.pairwise_map.2 (sorted.imp_of_mem fun {a b} left right inOrder => ?_)
  rw [List.mem_mergeSort] at left right
  rw [bne_iff_ne, compareDates_ne_gt_iff, known a left, known b right] at inOrder
  exact inOrder

/-- Documents with one date stay in their order. -/
theorem sortByDate_stable {a b : Dated} (same : SameDate a.date b.date) (before : [a, b].Sublist members) :
    [a.document, b.document].Sublist (sortByDate members) := by
  have inOrder : compareDates a.date b.date != .gt := by
    rw [bne_iff_ne, compareDates_ne_gt_iff]
    exact same.notAfter
  exact (List.pair_sublist_mergeSort notGreater_trans notGreater_total inOrder before).map (·.document)

end Sorting

/-! ## The groups -/

section Groups

variable {groups : TagGroups} {entry : Dated} {name other : String}

/-- The documents under a name; nothing stands under a name that is not there. -/
def TagGroups.at (groups : TagGroups) (name : String) : List Dated :=
  (Keyed.get? name groups).getD []

/-- The groups have no name without documents. -/
structure TagGroups.Sound (groups : TagGroups) : Prop where
  ascending : Ascending groups
  filled : ∀ name members, Keyed.get? name groups = some members → members ≠ []

theorem TagGroups.Sound.mem_keys_iff (sound : groups.Sound) : name ∈ Keyed.keys groups ↔ groups.at name ≠ [] := by
  rw [Keyed.mem_keys_iff, TagGroups.at]
  cases found : Keyed.get? name groups with
  | none => simp
  | some members => simpa using sound.filled name members found

theorem TagGroups.add_of_blank (blank : isBlankText name = true) (entry : Dated) (groups : TagGroups) :
    groups.add entry name = groups := by
  rw [TagGroups.add, if_pos blank]

/-- What stands under the name that a document is listed under: the document comes last, unless it
is there already. -/
theorem TagGroups.add_eq (visible : isBlankText name = false) (entry : Dated) (groups : TagGroups) :
    groups.add entry name =
      Keyed.set name (if (groups.at name).any fun m => m.document.id == entry.document.id then groups.at name
        else groups.at name ++ [entry]) groups := by
  rw [TagGroups.add, if_neg (by simp [visible]), Keyed.alter, TagGroups.at]
  cases Keyed.get? name groups <;> rfl

theorem TagGroups.Sound.add (sound : groups.Sound) (entry : Dated) (name : String) : (groups.add entry name).Sound := by
  by_cases blank : isBlankText name = true
  · rwa [TagGroups.add_of_blank blank]
  rw [TagGroups.add_eq (by simpa using blank)]
  refine ⟨sound.ascending.set _ _, fun other members found => ?_⟩
  by_cases same : other = name
  · subst same
    rw [Keyed.get?_set_self, Option.some_inj] at found
    -- Whoever is there already keeps the list from being empty.
    split_ifs at found with listed
    · rintro rfl
      simp [found] at listed
    · simp [← found]
  · rw [Keyed.get?_set_of_ne same] at found
    exact sound.filled other members found

theorem TagGroups.at_add_of_ne (differs : other ≠ name) (entry : Dated) (groups : TagGroups) :
    (groups.add entry name).at other = groups.at other := by
  by_cases blank : isBlankText name = true
  · rw [TagGroups.add_of_blank blank]
  · rw [TagGroups.add_eq (by simpa using blank), TagGroups.at, Keyed.get?_set_of_ne differs, TagGroups.at]

theorem TagGroups.at_add_self (visible : isBlankText name = false) (entry : Dated) (groups : TagGroups) :
    (groups.add entry name).at name =
      if (groups.at name).any fun m => m.document.id == entry.document.id then groups.at name
      else groups.at name ++ [entry] := by
  rw [TagGroups.add_eq visible, TagGroups.at, Keyed.get?_set_self, Option.getD_some]

/-- A document is new to the groups: none of them lists it. -/
def TagGroups.New (groups : TagGroups) (d : Document) : Prop :=
  ∀ name, ∀ m ∈ groups.at name, m.document.id ≠ d.id

/-- Listing a new document under several names adds it once under each that is not blank. -/
theorem TagGroups.at_addAll (new : groups.New entry.document) (names : List String) (name : String) :
    (names.foldl (TagGroups.add entry) groups).at name =
      groups.at name ++ if isBlankText name = false ∧ name ∈ names then [entry] else [] := by
  induction names using List.reverseRecOn with
  | nil => simp
  | append_singleton names last ih =>
    rw [List.foldl_append, List.foldl_cons, List.foldl_nil]
    by_cases blank : isBlankText last = true
    · -- A blank name is passed by, and is not the name that is asked for.
      rw [TagGroups.add_of_blank blank, ih]
      by_cases same : name = last
      · simp [same, blank]
      · simp [same]
    · have visible : isBlankText last = false := by simpa using blank
      by_cases same : name = last
      · subst same
        rw [TagGroups.at_add_self visible, ih]
        have absent : (groups.at name).any (fun m => m.document.id == entry.document.id) = false := by
          simpa using new name
        by_cases again : name ∈ names <;> simp [visible, again, absent]
      · rw [TagGroups.at_add_of_ne same, ih]
        simp [same]

theorem TagGroups.Sound.addAll (sound : groups.Sound) (entry : Dated) (names : List String) :
    (names.foldl (TagGroups.add entry) groups).Sound := by
  induction names generalizing groups with
  | nil => exact sound
  | cons name names ih => exact ih (sound.add entry name)

end Groups

/-! ## All documents -/

section Documents

variable {documents : List Document} {dates : Document → Option Timestamp} {names : Document → List String}
  {name : String} {d : Document}

/-- Documents under the names that their tags give. -/
def groupsOf (dates : Document → Option Timestamp) (names : Document → List String) (documents : List Document) :
    TagGroups :=
  documents.foldl (fun groups d => (names d).foldl (TagGroups.add ⟨dates d, d⟩) groups) []

/-- The documents that carry a name, with their dates, in order. -/
def listed (dates : Document → Option Timestamp) (names : Document → List String) (name : String)
    (documents : List Document) : List Dated :=
  (documents.filter fun d => isBlankText name = false ∧ name ∈ names d).map fun d => ⟨dates d, d⟩

theorem groupsOf_concat (dates : Document → Option Timestamp) (names : Document → List String)
    (documents : List Document) (d : Document) :
    groupsOf dates names (documents ++ [d]) =
      (names d).foldl (TagGroups.add ⟨dates d, d⟩) (groupsOf dates names documents) := by
  simp [groupsOf]

theorem sound_groupsOf (dates : Document → Option Timestamp) (names : Document → List String)
    (documents : List Document) : (groupsOf dates names documents).Sound := by
  induction documents using List.reverseRecOn with
  | nil => exact ⟨.nil, fun _ _ found => nomatch found⟩
  | append_singleton documents d ih =>
    rw [groupsOf_concat]
    exact ih.addAll _ _

theorem mem_listed {m : Dated} :
    m ∈ listed dates names name documents ↔
      (m.document ∈ documents ∧ isBlankText name = false ∧ name ∈ names m.document) ∧ m.date = dates m.document := by
  obtain ⟨date, d⟩ := m
  simp only [listed, List.mem_map, List.mem_filter, decide_eq_true_eq, Dated.mk.injEq]
  constructor
  · rintro ⟨d, carries, rfl, rfl⟩
    exact ⟨carries, rfl⟩
  · rintro ⟨carries, rfl⟩
    exact ⟨d, carries, rfl, rfl⟩

theorem listed_documents (dates : Document → Option Timestamp) (names : Document → List String) (name : String)
    (documents : List Document) :
    (listed dates names name documents).map (·.document) =
      documents.filter fun d => isBlankText name = false ∧ name ∈ names d := by
  simp [listed, Function.comp_def]

/-- Under each name stand the documents that carry it. -/
theorem at_groupsOf (distinct : (documents.map (·.id)).Nodup) (name : String) :
    (groupsOf dates names documents).at name = listed dates names name documents := by
  induction documents using List.reverseRecOn generalizing name with
  | nil => rfl
  | append_singleton documents d ih =>
    rw [List.map_append, List.nodup_append] at distinct
    obtain ⟨before, -, apart⟩ := distinct
    -- The last document has an identity of its own, so no group lists it yet.
    have new : (groupsOf dates names documents).New d := by
      intro other m mem
      rw [ih before, mem_listed] at mem
      exact apart _ (List.mem_map_of_mem mem.1.1) _ (by simp)
    rw [groupsOf_concat, TagGroups.at_addAll new, ih before, listed, listed, List.filter_append, List.map_append]
    congr 1
    by_cases carries : isBlankText name = false ∧ name ∈ names d <;> simp [carries]

end Documents

/-! ## Reading the tags -/

section Reading

variable {r : Reducer} {s : Scope} {documents : List Document} {dates : Document → Option Timestamp}
  {tags : Document → List Value}

theorem tagNamesOf_eq_pure {values : List Value} {names : List String} :
    tagNamesOf r s values = pure names ↔ List.Forall₂ (fun v name => tagNameOf r s v = pure name) values names := by
  induction values generalizing names with
  | nil => simp [tagNamesOf, Eval.pure_inj, eq_comm]
  | cons v values ih =>
    simp only [tagNamesOf, Eval.bind_eq_pure_iff, Eval.pure_inj, ih, List.forall₂_cons_left_iff]
    constructor
    · rintro ⟨name, named, rest, restNamed, rfl⟩
      exact ⟨name, rest, named, restNamed, rfl⟩
    · rintro ⟨name, rest, named, restNamed, rfl⟩
      exact ⟨name, named, rest, restNamed, rfl⟩

theorem mem_of_tagNamesOf {values : List Value} {names : List String} (named : tagNamesOf r s values = pure names)
    {name : String} : name ∈ names ↔ ∃ v ∈ values, tagNameOf r s v = pure name := by
  have pairs := tagNamesOf_eq_pure.1 named
  clear named
  induction pairs with
  | nil => simp
  | @cons v first values names this _ ih => simp [this, Eval.pure_inj, eq_comm, ih]

theorem exists_tagNamesOf_iff {values : List Value} :
    (∃ names, tagNamesOf r s values = pure names) ↔ ∀ v ∈ values, ∃ name, tagNameOf r s v = pure name := by
  simp only [tagNamesOf_eq_pure]
  induction values with
  | nil => simp
  | cons v values ih =>
    rw [List.forall_mem_cons, ← ih]
    constructor
    · rintro ⟨names, whole⟩
      obtain ⟨name, rest, named, restNamed, -⟩ := List.forall₂_cons_left_iff.1 whole
      exact ⟨⟨name, named⟩, rest, restNamed⟩
    · rintro ⟨⟨name, named⟩, rest, restNamed⟩
      exact ⟨name :: rest, .cons named restNamed⟩

/-- The groups are made only if the date, the tags and the names of the tags of each document can be
told. -/
theorem told_of_groupByTag {groups result : TagGroups} (made : groupByTag r s groups documents = pure result) :
    ∀ d ∈ documents, (∃ date, d.date r s = pure date) ∧
      ∃ values names, d.tags r s = pure values ∧ tagNamesOf r s values = pure names := by
  induction documents generalizing groups with
  | nil => exact fun _ mem => nomatch mem
  | cons d documents ih =>
    simp only [groupByTag, Eval.bind_eq_pure_iff] at made
    obtain ⟨date, dated, values, tagged, names, named, made⟩ := made
    exact List.forall_mem_cons.2 ⟨⟨⟨date, dated⟩, values, names, tagged, named⟩, ih made⟩

theorem groupByTag_eq {names : Document → List String} (dated : ∀ d ∈ documents, d.date r s = pure (dates d))
    (tagged : ∀ d ∈ documents, d.tags r s = pure (tags d))
    (named : ∀ d ∈ documents, tagNamesOf r s (tags d) = pure (names d)) (groups : TagGroups) :
    groupByTag r s groups documents =
      pure (documents.foldl (fun groups d => (names d).foldl (TagGroups.add ⟨dates d, d⟩) groups) groups) := by
  induction documents generalizing groups with
  | nil => rfl
  | cons d documents ih =>
    simp only [List.forall_mem_cons] at dated tagged named
    rw [groupByTag, dated.1, pure_bind, tagged.1, pure_bind, named.1, pure_bind, List.foldl_cons]
    exact ih dated.2 tagged.2 named.2 _

end Reading

/-! ## The index -/

theorem names_tagsOfGroups (firstId : ℕ) (groups : TagGroups) :
    (tagsOfGroups firstId groups).map (·.name) = Keyed.keys groups := by
  induction groups generalizing firstId with
  | nil => rfl
  | cons group groups ih => simpa [tagsOfGroups, Keyed.keys] using ih (firstId + 1)

theorem mem_tagsOfGroups {firstId : ℕ} {groups : TagGroups} {t : Tag} (mem : t ∈ tagsOfGroups firstId groups) :
    ∃ members, (t.name, members) ∈ groups ∧ t.documents = sortByDate members := by
  induction groups generalizing firstId with
  | nil => contradiction
  | cons group groups ih =>
    obtain ⟨name, members⟩ := group
    obtain first | later := List.mem_cons.1 mem
    · subst first
      exact ⟨members, List.mem_cons_self .., rfl⟩
    · obtain ⟨members, mem, sorted⟩ := ih later
      exact ⟨members, List.mem_cons_of_mem _ mem, sorted⟩

/-- The index lists the documents under the names that they carry, in order of date. -/
structure Inverts (index : List Tag) (documents : List Document) (dates : Document → Option Timestamp)
    (Carries : Document → String → Prop) : Prop where
  /-- The names stand in order, each once. -/
  ascending : (index.map (·.name)).Pairwise (· < ·)
  named_iff : ∀ name, name ∈ index.map (·.name) ↔ isBlankText name = false ∧ ∃ d ∈ documents, Carries d name
  listed_iff : ∀ t ∈ index, ∀ d, d ∈ t.documents ↔ d ∈ documents ∧ Carries d t.name
  /-- No document is listed twice under one name. -/
  once : ∀ t ∈ index, (t.documents.map (·.id)).Nodup
  byDate : ∀ t ∈ index, t.documents.Pairwise fun a b => NotAfter (dates a) (dates b)
  /-- Where dates agree, documents keep their order. -/
  stable : ∀ t ∈ index, ∀ a ∈ t.documents, ∀ b ∈ t.documents, SameDate (dates a) (dates b) →
    [a, b].Sublist documents → [a, b].Sublist t.documents

/-- What is listed under a name depends on what the documents of the index carry. -/
theorem Inverts.congr {index : List Tag} {documents : List Document} {dates : Document → Option Timestamp}
    {Carries Carries' : Document → String → Prop} (inverts : Inverts index documents dates Carries)
    (same : ∀ d ∈ documents, ∀ name, Carries d name ↔ Carries' d name) : Inverts index documents dates Carries' where
  ascending := inverts.ascending
  named_iff name := by
    rw [inverts.named_iff]
    exact and_congr_right fun _ => exists_congr fun d => and_congr_right fun inside => same d inside name
  listed_iff t mem d := by
    rw [inverts.listed_iff t mem]
    exact and_congr_right fun inside => same d inside t.name
  once := inverts.once
  byDate := inverts.byDate
  stable := inverts.stable

section Index

variable {documents : List Document} {dates : Document → Option Timestamp} {names : Document → List String}
  {name : String} {firstId : ℕ} {t : Tag}

theorem listed_ne_nil :
    listed dates names name documents ≠ [] ↔ isBlankText name = false ∧ ∃ d ∈ documents, name ∈ names d := by
  constructor
  · intro filled
    obtain ⟨m, mem⟩ := List.exists_mem_of_ne_nil _ filled
    obtain ⟨⟨inside, visible, carries⟩, -⟩ := mem_listed.1 mem
    exact ⟨visible, m.document, inside, carries⟩
  · rintro ⟨visible, d, inside, carries⟩
    have mem : ⟨dates d, d⟩ ∈ listed dates names name documents := mem_listed.2 ⟨⟨inside, visible, carries⟩, rfl⟩
    exact List.ne_nil_of_mem mem

theorem mem_keys_groupsOf (distinct : (documents.map (·.id)).Nodup) :
    name ∈ Keyed.keys (groupsOf dates names documents) ↔
      isBlankText name = false ∧ ∃ d ∈ documents, name ∈ names d := by
  rw [(sound_groupsOf dates names documents).mem_keys_iff, at_groupsOf distinct, listed_ne_nil]

theorem documents_of_mem (distinct : (documents.map (·.id)).Nodup)
    (mem : t ∈ tagsOfGroups firstId (groupsOf dates names documents)) :
    t.documents = sortByDate (listed dates names t.name documents) := by
  obtain ⟨members, inside, sorted⟩ := mem_tagsOfGroups mem
  have found := Keyed.get?_of_mem (sound_groupsOf dates names documents).ascending inside
  rw [sorted, ← at_groupsOf distinct, TagGroups.at, found, Option.getD_some]

theorem inverts_tagsOfGroups (distinct : (documents.map (·.id)).Nodup) (dates : Document → Option Timestamp)
    (names : Document → List String) (firstId : ℕ) :
    Inverts (tagsOfGroups firstId (groupsOf dates names documents)) documents dates fun d name => name ∈ names d where
  ascending := by
    rw [names_tagsOfGroups]
    exact (sound_groupsOf dates names documents).ascending
  named_iff name := by
    rw [names_tagsOfGroups, mem_keys_groupsOf distinct]
  listed_iff t mem d := by
    have named : t.name ∈ Keyed.keys (groupsOf dates names documents) := by
      rw [← names_tagsOfGroups firstId]
      exact List.mem_map_of_mem mem
    have visible := ((mem_keys_groupsOf distinct).1 named).1
    rw [documents_of_mem distinct mem, (sortByDate_perm _).mem_iff, listed_documents]
    simp [visible]
  once t mem := by
    rw [documents_of_mem distinct mem, ((sortByDate_perm _).map _).nodup_iff, listed_documents]
    exact distinct.sublist (List.filter_sublist.map _)
  byDate t mem := by
    rw [documents_of_mem distinct mem]
    exact sortByDate_pairwise fun m inside => (mem_listed.1 inside).2
  stable t mem a left b right same before := by
    rw [documents_of_mem distinct mem, (sortByDate_perm _).mem_iff, listed_documents, List.mem_filter,
      decide_eq_true_eq] at left right
    rw [documents_of_mem distinct mem]
    have kept := before.filter fun d => decide (isBlankText t.name = false ∧ t.name ∈ names d)
    rw [List.filter_eq_self.2 (by simpa using ⟨left.2, right.2⟩)] at kept
    exact sortByDate_stable same (kept.map fun d => (⟨dates d, d⟩ : Dated))

end Index

section Made

variable {r : Reducer} {s : Scope} {documents : List Document} {dates : Document → Option Timestamp}
  {tags : Document → List Value} {names : Document → List String}

theorem told_of_tagIndex {firstId : ℕ} {index : List Tag} (made : tagIndex r firstId s documents = pure index) :
    ∀ d ∈ documents, (∃ date, d.date r s = pure date) ∧
      ∃ values names, d.tags r s = pure values ∧ tagNamesOf r s values = pure names := by
  obtain ⟨groups, grouped, -⟩ := Eval.bind_eq_pure_iff.1 made
  exact told_of_groupByTag grouped

theorem tagIndex_eq (dated : ∀ d ∈ documents, d.date r s = pure (dates d))
    (tagged : ∀ d ∈ documents, d.tags r s = pure (tags d))
    (named : ∀ d ∈ documents, tagNamesOf r s (tags d) = pure (names d)) (firstId : ℕ) :
    tagIndex r firstId s documents = pure (tagsOfGroups firstId (groupsOf dates names documents)) := by
  rw [tagIndex, groupByTag_eq dated tagged named []]
  rfl

end Made

end Folio
