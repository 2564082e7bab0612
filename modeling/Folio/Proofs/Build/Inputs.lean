import Folio.Proofs.Build.Frame
import Folio.Proofs.Build.Targets
import Folio.Settings.Validity

/-!
# What a build does to its own input

A build with valid settings takes a file away, or writes over it, only at or below the place that
the output directory leads to, and there only if the directory is cleaned or a task writes to this
place.  So content and templates are safe as long as they do not lie there.  Nothing keeps them from
it: cleaning comes before a look at the content directories, and no one looks at the templates.

Main statement: `build_spares`.
-/

namespace Folio

open Calendar (Timestamp)
open FilePath (namesOf)
open FileTree (Lies placeOf walk)
open Output (hiddenName)

variable {tree : FileTree} {settings : Settings} {output root : String} {roots : List String} {place : Place}
  {sources known : List Source} {t : BuildTask} {bytes : List UInt8} {now : Timestamp}

/-! ## Sources have names -/

/-- The source is a file inside a directory, not the directory itself. -/
structure Source.Inside (s : Source) : Prop where
  below : ∃ names, names ≠ [] ∧ (∀ name ∈ names, FilePath.Plain name) ∧ s.relative = ⟨names⟩

theorem inside_of_collectSources (plain : ∀ node ∈ tree.nodes, ∀ name ∈ node.1, FilePath.Plain name)
    (directories : ∀ root ∈ roots, ∀ bytes, tree.get? (placeOf root) ≠ some (.file bytes))
    (collected : collectSources tree output known roots = .ok sources) (inside : ∀ s ∈ known, s.Inside) :
    ∀ s ∈ sources, s.Inside := by
  intro s mem
  obtain before | ⟨root, content, here, listed, new⟩ := mem_of_collectSources collected mem
  · exact inside s before
  · obtain ⟨names, relative, names_plain, top⟩ := names_of_sourcesIn plain listed new
    refine ⟨names, fun none => ?_, names_plain, relative⟩
    obtain ⟨place, bytes, reached, here⟩ := top none
    obtain rfl := FileTree.placeOf_of_resolve reached
    exact directories root content bytes here

/-- No source is collected if a content directory lies inside the output directory. -/
theorem not_isWithin_of_collectSources (collected : collectSources tree output known roots = .ok sources) :
    ∀ root ∈ roots, FilePath.isWithin root output = false := by
  induction roots generalizing known with
  | nil => exact fun _ none => nomatch none
  | cons root roots ih =>
    obtain ⟨here, listed, collected⟩ := Failure.bind_eq_ok_iff.1 collected
    obtain ⟨all, -, collected⟩ := Failure.bind_eq_ok_iff.1 collected
    refine List.forall_mem_cons.2 ⟨?_, ih collected⟩
    rw [sourcesIn] at listed
    split at listed
    · cases listed
    · rename_i apart
      simpa using apart

/-! ## Tasks write below the output directory -/

theorem plain_path_of_inside (inside : t.source.Inside) (suits : t.Suits) :
    t.path.segments ≠ [] ∧ ∀ name ∈ t.path.segments, FilePath.Plain name := by
  obtain ⟨names, present, plain, relative⟩ := inside.below
  cases t with
  | copy source =>
    rw [BuildTask.path, show source.relative = ⟨names⟩ from relative]
    exact ⟨present, plain⟩
  | render source document =>
    have same : document.source = ⟨names⟩ := (suits document rfl).2.trans relative
    rw [BuildTask.path, Document.path, same]
    refine ⟨?_, plain_page plain⟩
    obtain ⟨directory, name, rfl⟩ := (List.eq_nil_or_concat names).resolve_left present
    rw [List.concat_eq_append, SitePath.segments_page]
    simp

theorem below_of_touches (inside : t.source.Inside) (suits : t.Suits) (touches : t.Touches output place) :
    placeOf output <+: place := by
  obtain ⟨present, all⟩ := plain_path_of_inside inside suits
  obtain ⟨directory, name, ends⟩ := (List.eq_nil_or_concat t.path.segments).resolve_left present
  rw [List.concat_eq_append] at ends
  obtain ⟨plain, last⟩ : (∀ n ∈ directory, FilePath.Plain n) ∧ FilePath.Plain name := by
    simpa [ends, or_imp, forall_and] using all
  have straight : ".." ∉ directory := fun up => (plain _ up).notUp rfl
  have hidden : FilePath.Plain (hiddenName name) := Output.plain_hiddenName last.flat
  have target : t.target output = FilePath.join (directory.foldl FilePath.join output) name := by
    rw [target_eq, under_eq_foldl_join all, ends, List.foldl_append, List.foldl_cons, List.foldl_nil]
  have targetNamed : namesOf (t.target output) = namesOf output ++ (directory ++ [name]) := by
    rw [target, FilePath.namesOf_join last, FilePath.namesOf_foldl_join plain, List.append_assoc]
  have temporaryNamed : namesOf (temporaryPath (t.target output)) =
      namesOf output ++ (directory ++ [hiddenName name]) := by
    rw [temporaryPath, target, FilePath.fileName?_join last, Option.getD_some]
    change namesOf (FilePath.join _ (hiddenName name)) = _
    rw [FilePath.namesOf_join hidden, FilePath.namesOf_directory_join last, FilePath.namesOf_foldl_join plain,
      List.append_assoc]
  obtain rfl | rfl := touches
  · rw [FileTree.placeOf_eq_append targetNamed (by simpa [straight] using last.notUp.symm)]
    exact List.prefix_append ..
  · rw [FileTree.placeOf_eq_append temporaryNamed (by simpa [straight] using hidden.notUp.symm)]
    exact List.prefix_append ..

/-! ## Steps of a build -/

def Settings.cleans (settings : Settings) (tree : FileTree) : Bool :=
  settings.build.clean && tree.isDirectory [] settings.build.output

def Settings.cleaned (settings : Settings) (tree : FileTree) : FileTree :=
  if settings.cleans tree then tree.remove (placeOf settings.build.output) else tree

/-- Cleaning brings nothing new into the tree. -/
theorem get?_of_cleaned {node : FileNode} (found : (settings.cleaned tree).get? place = some node) :
    tree.get? place = some node := by
  rw [Settings.cleaned] at found
  split at found
  · rw [FileTree.get?_remove] at found
    split at found
    · cases found
    · exact found
  · exact found

/-- Cleaning is refused only where nothing would be cleaned. -/
theorem cleanOutput_spec (tree : FileTree) (settings : Settings) :
    cleanOutput tree settings = .ok (settings.cleaned tree) ∨
      (∃ failure, cleanOutput tree settings = .error failure) ∧ settings.cleaned tree = tree := by
  cases reached : tree.resolve [] settings.build.output with
  | error fault => simp [cleanOutput, Settings.cleaned, Settings.cleans, FileTree.isDirectory, FileTree.pathExists,
      Except.toOption, reached]
  | ok place =>
    obtain rfl := FileTree.placeOf_of_resolve reached
    cases clean : settings.build.clean with
    | false => simp [cleanOutput, Settings.cleaned, Settings.cleans, clean]
    | true =>
      cases directory : tree.isDirectoryAt (placeOf settings.build.output) <;>
        simp [cleanOutput, Settings.cleaned, Settings.cleans, FileTree.isDirectory, FileTree.pathExists,
          FileTree.removeDirectory, Except.toOption, clean, reached, directory]

/-- A task of a build at this time. -/
def Builds (tree : FileTree) (settings : Settings) (now : Timestamp) (t : BuildTask) : Prop :=
  ∃ found, survey tree settings (Reducer.ofTools Builtin.toolbox false) (settings.siteScope now) = .ok found ∧
    t ∈ found.tasks

theorem builds_iff {found : Survey}
    (surveyed : survey tree settings (Reducer.ofTools Builtin.toolbox false) (settings.siteScope now) = .ok found)
    (t : BuildTask) : Builds tree settings now t ↔ t ∈ found.tasks := by
  constructor
  · rintro ⟨again, known, mem⟩
    obtain rfl := Except.ok.inj (surveyed.symm.trans known)
    exact mem
  · exact fun mem => ⟨found, surveyed, mem⟩

theorem output_of_plan {r : Reducer} {scope : Scope} {documents : List Document} {p : Plan}
    (planned : plan tree settings r scope documents = .ok p) : p.output = settings.build.output := by
  obtain ⟨scope, -, planned⟩ := Failure.bind_eq_ok_iff.1 planned
  obtain ⟨layouts, -, planned⟩ := Failure.bind_eq_ok_iff.1 planned
  cases planned
  rfl

/-- A build does nothing but its tasks. -/
theorem buildFrom_lies (lies : Lies tree.get? place bytes)
    (spared : ∀ t, Builds tree settings now t → ¬ t.Touches settings.build.output place) :
    Lies (buildFrom tree settings now).tree.get? place bytes := by
  rw [buildFrom, buildFromWith]
  cases surveyed : survey tree settings (Reducer.ofTools Builtin.toolbox false) (settings.siteScope now) with
  | error failure => exact lies
  | ok found =>
    dsimp only
    cases planned : plan tree settings (Reducer.ofTools Builtin.toolbox false) (settings.siteScope now)
        found.published with
    | error failure => exact lies
    | ok p =>
      refine lies_runTasks lies fun t mem => ?_
      rw [output_of_plan planned]
      exact spared t ⟨found, surveyed, mem⟩

/-- With a content directory inside the output directory there are no tasks. -/
theorem buildFrom_within (tree : FileTree) (mem : root ∈ settings.build.content)
    (within : FilePath.isWithin root settings.build.output = true) (now : Timestamp) :
    (buildFrom tree settings now).tree = tree ∧ ∃ failure, (buildFrom tree settings now).result = .error failure := by
  rw [buildFrom, buildFromWith]
  cases surveyed : survey tree settings (Reducer.ofTools Builtin.toolbox false) (settings.siteScope now) with
  | error failure => exact ⟨rfl, failure, rfl⟩
  | ok found =>
    obtain ⟨sources, collected, -⟩ := Failure.bind_eq_ok_iff.1 surveyed
    rw [not_isWithin_of_collectSources collected root mem] at within
    cases within

/-! ## Main statement -/

theorem isDirectory_content (valid : settings.fault? tree [] = none) (mem : root ∈ settings.build.content) :
    tree.isDirectory [] root = true := by
  rw [Settings.fault?, Option.or_eq_none_iff, Settings.contentFault?] at valid
  have fine := valid.1
  split_ifs at fine
  rw [Option.map_eq_none_iff, List.find?_eq_none] at fine
  simpa using fine root mem

theorem isDirectory_templates (valid : settings.fault? tree [] = none) :
    tree.isDirectory [] settings.build.templates = true := by
  rw [Settings.fault?, Option.or_eq_none_iff, Option.or_eq_none_iff, Settings.templatesFault?] at valid
  have fine := valid.2.1
  split_ifs at fine with directory
  exact directory

theorem isDirectory_of_fault? (valid : settings.fault? tree [] = none) (mem : root ∈ settings.build.content) :
    tree.get? (placeOf root) = some .directory :=
  (FileTree.isDirectory_iff.1 (isDirectory_content valid mem)).2

/-- What a task of a valid build touches lies below the output directory. -/
theorem below_of_builds (formed : tree.WellFormed) (valid : settings.fault? tree [] = none)
    (builds : Builds (settings.cleaned tree) settings now t) (touches : t.Touches settings.build.output place) :
    placeOf settings.build.output <+: place := by
  obtain ⟨found, surveyed, mem⟩ := builds
  obtain ⟨sources, collected, chosen⟩ := survey_chosen surveyed
  have plain : ∀ node ∈ (settings.cleaned tree).nodes, ∀ name ∈ node.1, FilePath.Plain name := by
    intro node known name mem
    refine (formed.named node ?_ name mem).1
    rw [Settings.cleaned] at known
    split at known
    · exact (List.mem_filter.1 known).1
    · exact known
  have directories : ∀ root ∈ settings.build.content, ∀ bytes,
      (settings.cleaned tree).get? (placeOf root) ≠ some (.file bytes) := by
    intro root mem bytes file
    have directory := isDirectory_of_fault? valid mem
    rw [get?_of_cleaned file] at directory
    cases directory
  have inside := inside_of_collectSources plain directories collected fun _ none => nomatch none
  exact below_of_touches (inside _ (chosen.sublist.subset (List.mem_map_of_mem mem))) (chosen.suits t mem) touches

/-- A file that a build with valid settings takes away or changes lies at or below the place of the
output directory, and that was cleaned or a task writes there.  A content directory inside the output
directory makes the build fail, but what is cleaned is gone by then. -/
theorem build_spares (tree : FileTree) (settings : Settings) (now : Timestamp) (canceled : Bool)
    (formed : tree.WellFormed) (valid : settings.fault? tree [] = none) :
    let outcome := build tree settings now canceled
    (∀ place bytes, tree.get? place = some (.file bytes) → outcome.tree.get? place ≠ some (.file bytes) →
      canceled = false ∧ placeOf settings.build.output <+: place ∧
        (settings.cleans tree = true ∨ ∃ t, Builds tree settings now t ∧ t.Touches settings.build.output place)) ∧
    ((∃ root ∈ settings.build.content, FilePath.isWithin root settings.build.output = true) →
      (∃ failure, outcome.result = .error failure) ∧
        outcome.tree = if canceled then tree else settings.cleaned tree) := by
  intro outcome
  cases canceled with
  | true => exact ⟨fun _ _ found lost => absurd found lost, fun _ => ⟨⟨_, rfl⟩, rfl⟩⟩
  | false =>
    obtain cleaned | ⟨⟨failure, refused⟩, same⟩ := cleanOutput_spec tree settings
    · have same : outcome = buildFrom (settings.cleaned tree) settings now := by
        simp only [outcome, build, buildWith, Bool.false_eq_true, if_false, cleaned, buildFrom]
      rw [same]
      refine ⟨fun place bytes found lost => ?_, ?_⟩
      · have lies := formed.lies found
        have below : placeOf settings.build.output <+: place := by
          by_contra outside
          have stays : Lies (settings.cleaned tree).get? place bytes := by
            rw [Settings.cleaned]
            split
            · exact lies.remove outside
            · exact lies
          exact lost (buildFrom_lies stays fun t builds touches =>
            outside (below_of_builds formed valid builds touches)).here
        refine ⟨rfl, below, ?_⟩
        by_contra safe
        obtain ⟨notCleaned, untouched⟩ := not_or.1 safe
        rw [Settings.cleaned, if_neg notCleaned] at lost
        exact lost (buildFrom_lies lies fun t builds touches => untouched ⟨t, builds, touches⟩).here
      · rintro ⟨root, mem, within⟩
        obtain ⟨kept, failed⟩ := buildFrom_within (settings.cleaned tree) mem within now
        exact ⟨failed, kept⟩
    · have fails : outcome = .failed tree [] failure := by
        simp only [outcome, build, buildWith, Bool.false_eq_true, if_false, refused, Id.run_pure]
      rw [fails]
      exact ⟨fun _ _ found lost => absurd found lost, fun _ => ⟨⟨failure, rfl⟩, same.symm⟩⟩

/-- With an output directory of its own, the site keeps its content though the directory is cleaned. -/
theorem build_spares_content :
    let tree : FileTree := ⟨[([], .directory), (["c"], .directory), (["c", "a.md"], .file (Text.encode "Hello\n")),
      (["o"], .directory), (["o", "old.html"], .file []), (["t"], .directory), (["t", "page.html"], .file [])]⟩
    let settings : Settings := { Settings.default with build := ⟨some "/", ["/c"], "/o", "/t", true⟩ }
    (build tree settings ⟨0, 0, 0⟩ false).tree.get? ["c", "a.md"] = some (.file (Text.encode "Hello\n")) := by
  intro tree settings
  obtain ⟨spares, -⟩ := build_spares tree settings ⟨0, 0, 0⟩ false (by decide +kernel) (by decide +kernel)
  by_contra lost
  obtain ⟨-, below, -⟩ := spares ["c", "a.md"] _ (by decide +kernel) lost
  exact absurd below (by decide +kernel)

/-- Cleaning takes the content away before the build fails for where it lies. -/
theorem build_cleans_content :
    let tree : FileTree := ⟨[([], .directory), (["c"], .directory), (["c", "a.md"], .file (Text.encode "Hello\n")),
      (["t"], .directory), (["t", "page.html"], .file [])]⟩
    let settings : Settings := { Settings.default with build := ⟨some "/", ["/c"], "/c", "/t", true⟩ }
    tree.WellFormed ∧ settings.fault? tree [] = none ∧
      tree.get? ["c", "a.md"] = some (.file (Text.encode "Hello\n")) ∧
      (build tree settings ⟨0, 0, 0⟩ false).tree.get? ["c", "a.md"] = none ∧
      (build tree settings ⟨0, 0, 0⟩ false).result = .error (.of (.contentInOutput "/c")) := by
  intro tree settings
  refine ⟨?_, ?_, ?_, ?_, ?_⟩ <;> decide +kernel

end Folio
