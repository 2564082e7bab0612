import Mathlib.Data.List.TakeWhile
import Folio.FilePath
import Folio.FileTree
import Folio.Proofs.SitePath

/-!
# Paths by their names

A path that begins at the top and takes no detours is known by its names.  Joining adds
names at the end, and the directory of a path has all its names but the last.
-/

namespace Folio

open SitePath (pieces pieces_append pieces_of_absent)

/-- A name that a file can have. -/
structure FilePath.Plain (name : String) : Prop where
  present : name ≠ ""
  flat : '/' ∉ name.toList
  notHere : name ≠ "."
  notUp : name ≠ ".."

theorem FilePath.plain_iff {name : String} :
    FilePath.Plain name ↔ name ≠ "" ∧ '/' ∉ name.toList ∧ name ≠ "." ∧ name ≠ ".." :=
  ⟨fun ⟨present, flat, notHere, notUp⟩ => ⟨present, flat, notHere, notUp⟩,
    fun ⟨present, flat, notHere, notUp⟩ => ⟨present, flat, notHere, notUp⟩⟩

instance (name : String) : Decidable (FilePath.Plain name) :=
  decidable_of_iff' _ FilePath.plain_iff

namespace FilePath

variable {base path name : String} {names before : List String}

/-! ## Texts -/

theorem endsWith_slash_iff : path.endsWith "/" = true ↔ ∃ before, path = before ++ "/" := by
  rw [← String.endsWith_toSlice, String.Slice.endsWith_string_iff, String.copy_toSlice]
  constructor
  · rintro ⟨cs, same⟩
    refine ⟨String.ofList cs, String.toList_inj.mp ?_⟩
    rw [String.toList_append, String.toList_ofList, same]
  · rintro ⟨before, rfl⟩
    exact ⟨before.toList, String.toList_append.symm⟩

theorem isRooted_iff : isRooted path = true ↔ ∃ after, path.toList = '/' :: after := by
  rw [isRooted, String.startsWith_string_iff]
  exact ⟨fun ⟨after, same⟩ => ⟨after, same.symm⟩, fun ⟨after, same⟩ => ⟨after, same.symm⟩⟩

theorem Plain.not_isRooted (plain : Plain name) : isRooted name = false := by
  refine Bool.eq_false_iff.mpr fun rooted => ?_
  obtain ⟨after, same⟩ := isRooted_iff.mp rooted
  exact plain.flat (same ▸ List.mem_cons_self)

/-- A name that is joined to a path stands at its beginning or after a slash. -/
theorem join_eq (plain : Plain name) (base : String) :
    (base = "" ∧ join base name = name) ∨
      ∃ before, join base name = before ++ "/" ++ name ∧ (base = before ∨ base = before ++ "/") := by
  rw [join, if_neg (by simp [plain.not_isRooted])]
  split
  · rename_i closed
    by_cases empty : base = ""
    · exact .inl ⟨empty, by rw [empty, String.empty_append]⟩
    · obtain ⟨before, rfl⟩ := endsWith_slash_iff.mp (by simpa [empty] using closed)
      exact .inr ⟨before, rfl, .inr rfl⟩
  · exact .inr ⟨base, rfl, .inl rfl⟩

theorem endsWith_slash_join (plain : Plain name) (base : String) : (join base name).endsWith "/" = false := by
  refine Bool.eq_false_iff.mpr fun closed => ?_
  obtain ⟨before, same⟩ := endsWith_slash_iff.mp closed
  obtain ⟨front, last, spelled⟩ := (List.eq_nil_or_concat name.toList).resolve_left (by simpa using plain.present)
  have last_eq : (join base name).toList.getLast? = some last := by
    rw [List.concat_eq_append] at spelled
    obtain ⟨-, joined⟩ | ⟨before, joined, -⟩ := join_eq plain base
    · rw [joined, spelled, List.getLast?_concat]
    · rw [joined, String.toList_append, spelled, ← List.append_assoc, List.getLast?_concat]
  rw [same, String.toList_append] at last_eq
  obtain rfl : '/' = last := by simpa using last_eq
  exact plain.flat (by simp [spelled])

/-! ## The steps of a path -/

def steps (cs : List Char) : List String :=
  ((pieces (· == '/') cs).map String.ofList).filter (· != "")

theorem namesOf_eq_filter (path : String) : namesOf path = (steps path.toList).filter (· != ".") := by
  rw [namesOf, steps, List.filter_filter]
  simp [Bool.and_comm]

theorem steps_append (front back : List Char) : steps (front ++ '/' :: back) = steps front ++ steps back := by
  have cut : pieces (· == '/') (front ++ '/' :: back) = pieces (· == '/') front ++ pieces (· == '/') back :=
    pieces_append rfl front back
  simp [steps, cut]

theorem steps_of_flat {cs : List Char} (flat : '/' ∉ cs) (present : cs ≠ []) : steps cs = [String.ofList cs] := by
  have single : pieces (· == '/') cs = [cs] := pieces_of_absent fun c mem => by
    simpa using fun slash : c = '/' => flat (slash ▸ mem)
  simp [steps, single, present]

theorem steps_join (plain : Plain name) (base : String) :
    steps (join base name).toList = steps base.toList ++ [name] := by
  have alone : steps name.toList = [name] := by
    rw [steps_of_flat plain.flat (by simpa using plain.present), String.ofList_toList]
  have closed : ∀ before : String, steps (before ++ "/").toList = steps before.toList := fun before => by
    have nothing : steps [] = [] := rfl
    have split := steps_append before.toList []
    rw [nothing, List.append_nil] at split
    simpa using split
  obtain ⟨rfl, joined⟩ | ⟨before, joined, same⟩ := join_eq plain base
  · rw [joined, alone]
    rfl
  · have split := steps_append before.toList name.toList
    rw [alone] at split
    obtain rfl | rfl := same
    · simpa [joined] using split
    · rw [closed]
      simpa [joined] using split

theorem namesOf_join (plain : Plain name) (base : String) : namesOf (join base name) = namesOf base ++ [name] := by
  simp [namesOf_eq_filter, steps_join plain, plain.notHere]

theorem namesOf_foldl_join (plain : ∀ name ∈ names, Plain name) (base : String) :
    namesOf (names.foldl join base) = namesOf base ++ names := by
  induction names generalizing base with
  | nil => simp
  | cons name names ih =>
    rw [List.foldl_cons, ih (fun n mem => plain n (List.mem_cons_of_mem _ mem)),
      namesOf_join (plain name List.mem_cons_self)]
    simp

/-- Paths with the same parts have the same names. -/
theorem namesOf_eq_of_parts {path other : String} (same : parts path = parts other) : namesOf path = namesOf other := by
  have named : ∀ path, (parts path).names.filter (· != ".") = namesOf path := by
    intro path
    have plain : (namesOf path).filter (· != ".") = namesOf path := by
      rw [List.filter_eq_self]
      intro name mem
      rw [namesOf, List.mem_filter, Bool.and_eq_true] at mem
      exact mem.2.2
    rw [parts]
    split
    · exact plain
    · exact plain
  rw [← named path, same, named other]

/-! ## Direct paths -/

/-- The path begins at the top and takes no detours. -/
structure IsDirect (path : String) : Prop where
  rooted : isRooted path = true
  notHere : "." ∉ steps path.toList
  notUp : ".." ∉ steps path.toList

theorem isDirect_iff : IsDirect path ↔
    isRooted path = true ∧ "." ∉ steps path.toList ∧ ".." ∉ steps path.toList :=
  ⟨fun ⟨rooted, notHere, notUp⟩ => ⟨rooted, notHere, notUp⟩,
    fun ⟨rooted, notHere, notUp⟩ => ⟨rooted, notHere, notUp⟩⟩

instance (path : String) : Decidable (IsDirect path) :=
  decidable_of_iff' _ isDirect_iff

namespace IsDirect

theorem namesOf_eq (direct : IsDirect path) : namesOf path = steps path.toList := by
  rw [namesOf_eq_filter, List.filter_eq_self]
  intro name mem
  simpa using fun here : name = "." => direct.notHere (here ▸ mem)

theorem plain_of_mem (direct : IsDirect path) (mem : name ∈ namesOf path) : Plain name := by
  have step := direct.namesOf_eq ▸ mem
  obtain ⟨⟨piece, cut, rfl⟩, present⟩ :
      (∃ piece ∈ pieces (· == '/') path.toList, String.ofList piece = name) ∧ name ≠ "" := by
    simpa [steps] using step
  refine ⟨present, fun slash => ?_, fun here => direct.notHere (here ▸ step), fun up => direct.notUp (up ▸ step)⟩
  rw [String.toList_ofList] at slash
  simpa using SitePath.absent_of_mem_pieces cut '/' slash

theorem join (direct : IsDirect base) (plain : Plain name) : IsDirect (join base name) where
  rooted := by
    obtain ⟨after, rooted⟩ := isRooted_iff.mp direct.rooted
    rw [isRooted_iff]
    obtain ⟨rfl, -⟩ | ⟨before, joined, same⟩ := join_eq plain base
    · simp at rooted
    · obtain rfl | rfl := same
      · exact ⟨after ++ '/' :: name.toList, by simp [joined, rooted]⟩
      · exact ⟨after ++ name.toList, by simpa [joined] using congrArg (· ++ name.toList) rooted⟩
  notHere := by
    rw [steps_join plain]
    simp [direct.notHere, plain.notHere.symm]
  notUp := by
    rw [steps_join plain]
    simp [direct.notUp, plain.notUp.symm]

theorem foldl_join (direct : IsDirect base) (plain : ∀ name ∈ names, Plain name) :
    IsDirect (names.foldl FilePath.join base) := by
  induction names generalizing base with
  | nil => exact direct
  | cons name names ih =>
    exact ih (direct.join (plain name List.mem_cons_self)) fun n mem => plain n (List.mem_cons_of_mem _ mem)

theorem parts_eq (direct : IsDirect path) : parts path = ⟨true, namesOf path⟩ := by
  obtain ⟨after, rooted⟩ := isRooted_iff.mp direct.rooted
  obtain ⟨more, first⟩ : ∃ more, (pieces (· == '/') path.toList).map String.ofList = "" :: more := by
    rw [rooted]
    exact ⟨_, rfl⟩
  rw [parts, first]
  simp [direct.rooted]

theorem fileName? (direct : IsDirect path) (named : namesOf path = before ++ [name]) :
    fileName? path = some name := by
  have mem : name ∈ steps path.toList := by
    rw [← direct.namesOf_eq, named]
    simp
  rw [FilePath.fileName?, direct.parts_eq, named, List.getLast?_concat]
  refine if_neg (not_or.mpr ⟨?_, ?_⟩)
  · exact fun up => direct.notUp (up ▸ mem)
  · exact fun here => direct.notHere (here ▸ mem)

end IsDirect

/-! ## The directory of a path -/

theorem steps_slashes (cs : List Char) : steps (cs.dropWhile (· == '/')).reverse = steps cs.reverse := by
  induction cs with
  | nil => rfl
  | cons c cs ih =>
    by_cases slash : c = '/'
    · have split := steps_append cs.reverse []
      rw [slash, List.dropWhile_cons_of_pos rfl, ih, List.reverse_cons, split]
      simp [steps, pieces]
    · rw [List.dropWhile_cons_of_neg (by simpa using slash)]

theorem steps_last (cs : List Char) :
    steps cs.reverse = steps (cs.dropWhile (· != '/')).reverse ++ steps (cs.takeWhile (· != '/')).reverse := by
  have cut : cs.takeWhile (· != '/') ++ cs.dropWhile (· != '/') = cs := List.takeWhile_append_dropWhile
  cases before : cs.dropWhile (· != '/') with
  | nil =>
    rw [before, List.append_nil] at cut
    rw [cut]
    rfl
  | cons c above =>
    have slash : c = '/' := by simpa [before] using List.head?_dropWhile_not (· != '/') cs
    have spelled : cs.reverse = above.reverse ++ '/' :: (cs.takeWhile (· != '/')).reverse := by
      rw [before, slash] at cut
      simpa using (congrArg List.reverse cut).symm
    rw [spelled, steps_append, slash, List.reverse_cons, steps_append]
    simp [steps, pieces]

theorem steps_directory (path : String) :
    ∃ last, '/' ∉ last ∧ (last = [] → steps path.toList = []) ∧
      steps path.toList = steps (directory path).toList ++ steps last := by
  let closed := path.toList.reverse.dropWhile (· == '/')
  let above := closed.dropWhile (· != '/')
  let last := (closed.takeWhile (· != '/')).reverse
  have whole : steps path.toList = steps above.reverse ++ steps last := by
    rw [← steps_last, steps_slashes, List.reverse_reverse]
  have kept : steps (directory path).toList = steps above.reverse := by
    rw [← steps_slashes, directory]
    split
    · rename_i none
      rw [none]
      split <;> rfl
    · rw [String.toList_ofList]
  refine ⟨last, fun slash => ?_, fun none => ?_, by rw [kept, whole]⟩
  · simpa using List.mem_takeWhile_imp (List.mem_reverse.mp slash)
  · -- What does not end in a slash has a last name, unless it is empty.
    have empty : closed = [] := by
      cases start : closed with
      | nil => rfl
      | cons c rest =>
        have other := List.head?_dropWhile_not (· == '/') path.toList.reverse
        rw [show path.toList.reverse.dropWhile (· == '/') = c :: rest from start] at other
        have other : c ≠ '/' := by simpa using other
        simp [last, start, other] at none
    rw [whole, none, show above = [] by simp [above, empty]]
    rfl

theorem steps_directory_concat (ends : steps path.toList = before ++ [name]) :
    steps (directory path).toList = before := by
  obtain ⟨last, flat, unlessEmpty, whole⟩ := steps_directory path
  have present : last ≠ [] := fun none => by
    simp [unlessEmpty none] at ends
  rw [whole, steps_of_flat flat present] at ends
  exact (List.append_inj' ends rfl).1

namespace IsDirect

variable (direct : IsDirect path) (named : namesOf path = before ++ [name])

include direct named

theorem namesOf_directory : namesOf (directory path) = before := by
  have ends : steps path.toList = before ++ [name] := direct.namesOf_eq ▸ named
  rw [namesOf_eq_filter, steps_directory_concat ends, List.filter_eq_self]
  intro n mem
  have plain : Plain n := direct.plain_of_mem (by simp [named, mem])
  simpa using plain.notHere

end IsDirect

/-! ## The last name -/

theorem fileName?_join (plain : Plain name) (base : String) : FilePath.fileName? (FilePath.join base name) = some name := by
  have last : (parts (FilePath.join base name)).names.getLast? = some name := by
    rw [parts, namesOf_join plain]
    split
    · rw [← List.cons_append, List.getLast?_concat]
    · exact List.getLast?_concat
  rw [FilePath.fileName?, last]
  exact if_neg (not_or.mpr ⟨plain.notUp, plain.notHere⟩)

theorem flat_of_fileName? (called : FilePath.fileName? path = some name) : '/' ∉ name.toList := by
  have mem : name ∈ namesOf path := by
    rw [FilePath.fileName?] at called
    split at called
    · rename_i last ends
      split_ifs at called with detour
      cases called
      rw [parts] at ends
      split at ends
      · exact (List.mem_cons.1 (List.mem_of_getLast? ends)).resolve_left fun here => detour (.inr here)
      · exact List.mem_of_getLast? ends
    · cases called
  obtain ⟨⟨piece, cut, rfl⟩, -⟩ : (∃ piece ∈ pieces (· == '/') path.toList, String.ofList piece = name) ∧
      ¬ name = "" ∧ ¬ name = "." := by
    simpa [namesOf] using mem
  rw [String.toList_ofList]
  exact fun slash => by simpa using SitePath.absent_of_mem_pieces cut '/' slash

theorem namesOf_directory_join (plain : Plain name) (base : String) :
    namesOf (directory (FilePath.join base name)) = namesOf base := by
  rw [namesOf_eq_filter, namesOf_eq_filter, steps_directory_concat (steps_join plain base)]

/-! ## Extensions -/

/-- Taking the extension off a name brings nothing new into it. -/
theorem mem_of_mem_stemOf {c : Char} (mem : c ∈ (SitePath.stemOf name).toList) : c ∈ name.toList := by
  simp only [SitePath.stemOf] at mem
  split at mem
  · rename_i d first before rest
    have suffix := List.dropWhile_suffix (· != '.') (l := name.toList.reverse)
    rw [rest] at suffix
    rw [String.toList_ofList, List.mem_reverse] at mem
    exact List.mem_reverse.1 (suffix.subset (List.mem_cons_of_mem _ mem))
  · exact mem

theorem plain_html {stem : String} (flat : '/' ∉ stem.toList) : Plain (stem ++ ".html") := by
  have long : 4 < (stem ++ ".html").length := by
    rw [String.length_append, show ".html".length = 5 from rfl]
    omega
  refine ⟨fun empty => ?_, ?_, fun here => ?_, fun up => ?_⟩
  · simp [empty] at long
  · simp [flat]
  · exact absurd (here ▸ long) (by decide)
  · exact absurd (up ▸ long) (by decide)

theorem eq_of_extensionOf? {extension : String} (found : extensionOf? name = some extension) :
    name = SitePath.stemOf name ++ "." ++ extension := by
  simp only [extensionOf?] at found
  split at found
  · contradiction
  rename_i proper
  obtain rfl := Option.some.inj found
  rw [← String.toList_inj, String.toList_append, String.toList_append, String.toList_ofList]
  have cut : name.toList.reverse.takeWhile (· != '.') ++ name.toList.reverse.dropWhile (· != '.') =
      name.toList.reverse :=
    List.takeWhile_append_dropWhile
  simp only [SitePath.stemOf] at proper ⊢
  split at proper
  · rename_i c b before rest
    have dot : c = '.' := by simpa [rest] using List.head?_dropWhile_not (· != '.') name.toList.reverse
    rw [rest, dot] at cut
    have spelled := (congrArg List.reverse cut).symm
    rw [List.reverse_reverse, List.reverse_append, List.reverse_cons] at spelled
    generalize (name.toList.reverse.takeWhile (· != '.')).reverse = after at spelled
    have kept : (name.toList.drop ((b :: before).length + 1)) = after := by
      rw [spelled, List.drop_left' (by simp)]
    simp only [String.toList_ofList, String.length_ofList, List.length_reverse, kept]
    exact spelled
  · contradiction

end FilePath

end Folio
