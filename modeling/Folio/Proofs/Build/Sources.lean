import Folio.Build.Source
import Folio.Proofs.FilePath
import Folio.Proofs.FileTree

/-!
# Where sources come from

The sources of a build are files below its content directories, no two of which have the same
path in the site, and none of which lies where the site is written to.
-/

namespace Folio

open FilePath (IsDirect namesOf)

variable {tree : FileTree} {output root : String} {roots : List String} {sources known : List Source}

/-- A source is a file below a content directory and does not lie where the site is written to. -/
structure Source.Found (tree : FileTree) (output : String) (s : Source) : Prop where
  below : ∃ root names, IsDirect root ∧ (∀ name ∈ names, FilePath.Plain name) ∧
    s.physical = names.foldl FilePath.join root ∧ s.relative.segments = names
  lies : ∃ bytes, FileTree.Lies tree.get? (namesOf s.physical) bytes
  outside : ¬ namesOf output <+: namesOf s.physical

theorem Failure.bind_eq_ok_iff {α β : Type} {first : Except Failure α} {more : α → Except Failure β} {b : β} :
    first >>= more = .ok b ↔ ∃ a, first = .ok a ∧ more a = .ok b := by
  cases first <;> simp [bind, Except.bind]

theorem SitePath.ofSegments_of_plain {names : List String} (plain : ∀ name ∈ names, FilePath.Plain name) :
    SitePath.ofSegments names = ⟨names⟩ := by
  have folds : ∀ reversed, names.foldl SitePath.fold reversed = names.reverse ++ reversed := by
    induction names with
    | nil => exact fun _ => rfl
    | cons name names ih =>
      intro reversed
      obtain ⟨present, -, notHere, notUp⟩ := plain name List.mem_cons_self
      rw [List.foldl_cons, ih fun n mem => plain n (List.mem_cons_of_mem _ mem)]
      simp [SitePath.fold, present, notHere, notUp]
  simp [SitePath.ofSegments, folds]

theorem FilePath.IsDirect.notUp_namesOf {path : String} (direct : IsDirect path) : ".." ∉ namesOf path :=
  fun up => (direct.plain_of_mem up).notUp rfl

/-- What is excluded is the output directory, which holds no content directory. -/
theorem outside_of_not_hidden {names : List String} (outputDirect : IsDirect output) (rootDirect : IsDirect root)
    (notWithin : ¬ FilePath.isWithin root output = true) (visible : ¬ isHidden root (some output) names = true) :
    ¬ namesOf output <+: namesOf root ++ names := by
  intro leads
  have notAbove : ¬ namesOf output <+: namesOf root := by
    simpa [FilePath.isWithin, outputDirect.parts_eq, rootDirect.parts_eq] using notWithin
  obtain above | ⟨hidden, below⟩ := List.prefix_or_prefix_of_prefix leads (List.prefix_append _ names)
  · exact notAbove above
  · rw [← below, List.prefix_append_right_inj] at leads
    refine visible ?_
    have within : FilePath.isWithin output root = true := by
      simp [FilePath.isWithin, outputDirect.parts_eq, rootDirect.parts_eq, ← below]
    simp [isHidden, FilePath.namesBelow?, within, outputDirect.parts_eq, rootDirect.parts_eq, ← below, leads]

theorem FileTree.mem_nodes_of_below {place names : Place} {node : FileNode} (mem : (names, node) ∈ tree.below place) :
    names ≠ [] ∧ (place ++ names, node) ∈ tree.nodes := by
  obtain ⟨⟨other, _⟩, known, dropped⟩ := List.mem_filterMap.mp mem
  dsimp only at dropped
  split at dropped
  · rename_i leads
    obtain ⟨⟨rest, rfl⟩, apart⟩ : place <+: other ∧ other ≠ place := by simpa using leads
    cases dropped
    rw [List.drop_left]
    exact ⟨by simpa using apart, known⟩
  · contradiction

/-- The sources of a content directory are the files at its place, or below it, that are not hidden. -/
theorem exists_file_of_sourcesIn (collected : sourcesIn tree output root = .ok sources) {s : Source} (mem : s ∈ sources) :
    ∃ place names bytes, tree.resolve [] root = .ok place ∧ s = .ofFile ⟨names.foldl FilePath.join root, names⟩ ∧
      ¬ FilePath.isWithin root output = true ∧ ¬ isHidden root (some output) names = true ∧
      (names = [] ∧ tree.get? place = some (.file bytes) ∨ names ≠ [] ∧ (place ++ names, .file bytes) ∈ tree.nodes) := by
  rw [sourcesIn] at collected
  split at collected
  · contradiction
  rename_i notWithin
  split at collected
  · rename_i files found
    cases collected
    rw [FileTree.filesIn] at found
    split at found
    · contradiction
    rename_i place reached
    cases found
    obtain ⟨file, listed, rfl⟩ := List.mem_map.mp mem
    obtain ⟨⟨names, node⟩, inside, counts⟩ := List.mem_filterMap.mp listed
    cases node with
    | directory => contradiction
    | file bytes =>
      simp only [foundFile?] at counts
      split_ifs at counts with hidden
      cases counts
      refine ⟨place, names, bytes, reached, rfl, notWithin, hidden, ?_⟩
      obtain itself | below := List.mem_append.mp inside
      · obtain ⟨_, here, ⟨⟩⟩ := List.mem_map.mp itself
        exact .inl ⟨rfl, Option.mem_toList.mp here⟩
      · exact .inr (FileTree.mem_nodes_of_below below)
  · contradiction

theorem found_of_sourcesIn (formed : tree.WellFormed) (outputDirect : IsDirect output) (rootDirect : IsDirect root)
    (collected : sourcesIn tree output root = .ok sources) : ∀ s ∈ sources, s.Found tree output := by
  intro s mem
  obtain ⟨place, names, bytes, reached, rfl, notWithin, visible, lies⟩ := exists_file_of_sourcesIn collected mem
  obtain rfl := FileTree.eq_of_follow rootDirect.notUp_namesOf (FileTree.follow_of_resolve reached)
  have here : tree.get? (namesOf root ++ names) = some (.file bytes) := by
    obtain ⟨rfl, top⟩ | ⟨-, known⟩ := lies
    · rwa [List.append_nil]
    · exact (FileTree.get?_eq_some_iff formed.distinct).mpr known
  have plain : ∀ name ∈ names, FilePath.Plain name := fun name mem =>
    (formed.named _ ((FileTree.get?_eq_some_iff formed.distinct).mp here) name (List.mem_append_right _ mem)).1
  have named : namesOf (names.foldl FilePath.join root) = namesOf root ++ names :=
    FilePath.namesOf_foldl_join plain root
  refine ⟨⟨root, names, rootDirect, plain, rfl, ?_⟩, ⟨bytes, ?_⟩, ?_⟩
  · rw [Source.ofFile, SitePath.ofSegments_of_plain plain]
  · rw [Source.ofFile, named]
    exact formed.lies here
  · rw [Source.ofFile, named]
    exact outside_of_not_hidden outputDirect rootDirect notWithin visible

/-- The names of a source are those of its file.  It has none if the content directory is a file itself. -/
theorem names_of_sourcesIn (plain : ∀ node ∈ tree.nodes, ∀ name ∈ node.1, FilePath.Plain name)
    (collected : sourcesIn tree output root = .ok sources) {s : Source} (mem : s ∈ sources) :
    ∃ names, s.relative = ⟨names⟩ ∧ (∀ name ∈ names, FilePath.Plain name) ∧
      (names = [] → ∃ place bytes, tree.resolve [] root = .ok place ∧ tree.get? place = some (.file bytes)) := by
  obtain ⟨place, names, bytes, reached, rfl, -, -, lies⟩ := exists_file_of_sourcesIn collected mem
  have plainNames : ∀ name ∈ names, FilePath.Plain name := by
    obtain ⟨rfl, -⟩ | ⟨-, known⟩ := lies
    · exact List.forall_mem_nil _
    · exact fun name mem => plain _ known name (List.mem_append_right _ mem)
  refine ⟨names, SitePath.ofSegments_of_plain plainNames, plainNames, fun none => ⟨place, bytes, reached, ?_⟩⟩
  obtain ⟨-, top⟩ | ⟨some, -⟩ := lies
  · exact top
  · exact absurd none some

theorem addSources_eq_ok {more : List Source} (added : addSources known more = .ok sources) :
    sources = known ++ more ∧ (known.Pairwise (fun s t => s.relative.text ≠ t.relative.text) →
      sources.Pairwise fun s t => s.relative.text ≠ t.relative.text) := by
  induction more generalizing known with
  | nil =>
    cases added
    exact ⟨(List.append_nil _).symm, id⟩
  | cons s more ih =>
    rw [addSources] at added
    split at added
    · contradiction
    · rename_i new
      obtain ⟨rfl, apart⟩ := ih added
      refine ⟨by simp, fun before => apart ?_⟩
      refine List.pairwise_append.mpr ⟨before, List.pairwise_singleton _ _, fun t mem u single => ?_⟩
      obtain rfl := List.mem_singleton.mp single
      simp only [List.any_eq_true, beq_iff_eq, not_exists, not_and] at new
      exact new t mem

theorem mem_of_collectSources (collected : collectSources tree output known roots = .ok sources) {s : Source}
    (mem : s ∈ sources) :
    s ∈ known ∨ ∃ root ∈ roots, ∃ here, sourcesIn tree output root = .ok here ∧ s ∈ here := by
  induction roots generalizing known with
  | nil =>
    cases collected
    exact .inl mem
  | cons root roots ih =>
    rw [collectSources] at collected
    obtain ⟨here, listed, collected⟩ := Failure.bind_eq_ok_iff.mp collected
    obtain ⟨all, added, collected⟩ := Failure.bind_eq_ok_iff.mp collected
    obtain ⟨rfl, -⟩ := addSources_eq_ok added
    obtain before | ⟨other, later, found⟩ := ih collected
    · exact (List.mem_append.mp before).imp_right fun new => ⟨root, List.mem_cons_self, here, listed, new⟩
    · exact .inr ⟨other, List.mem_cons_of_mem _ later, found⟩

/-- No two sources have the same path in the site. -/
theorem pairwise_of_collectSources (collected : collectSources tree output known roots = .ok sources)
    (apart : known.Pairwise fun s t => s.relative.text ≠ t.relative.text) :
    sources.Pairwise fun s t => s.relative.text ≠ t.relative.text := by
  induction roots generalizing known with
  | nil =>
    cases collected
    exact apart
  | cons root roots ih =>
    rw [collectSources] at collected
    obtain ⟨here, listed, collected⟩ := Failure.bind_eq_ok_iff.mp collected
    obtain ⟨all, added, collected⟩ := Failure.bind_eq_ok_iff.mp collected
    exact ih collected ((addSources_eq_ok added).2 apart)

theorem found_of_collectSources (formed : tree.WellFormed) (outputDirect : IsDirect output)
    (rootsDirect : ∀ root ∈ roots, IsDirect root) (collected : collectSources tree output [] roots = .ok sources) :
    ∀ s ∈ sources, s.Found tree output := by
  intro s mem
  obtain none | ⟨root, listed, here, below, found⟩ := mem_of_collectSources collected mem
  · cases none
  · exact found_of_sourcesIn formed outputDirect (rootsDirect root listed) below s found

end Folio
