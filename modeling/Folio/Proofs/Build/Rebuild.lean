import Folio.Proofs.Build.Inputs
import Folio.Proofs.Build.Listing

/-!
# Building once more

The walk over the content directories leaves out the output directory, and nothing leaves it out of the
walk over the templates: a page that is written among the templates is a layout from then on.  As long
as no task makes a layout and no task is in the way of another, a build finds the same sources and
layouts afterwards as before, and doing it once more changes nothing.

Main statement: `build_again`.
-/

namespace Folio

open Calendar (Timestamp)
open FilePath (IsDirect namesOf)
open FileTree (Lies placeOf shownBelow)
open Output (hiddenName)

variable {a b tree : FileTree} {settings : Settings} {now : Timestamp} {output root templates : String}
  {roots : List String} {sources known : List Source} {tasks : List BuildTask} {t : BuildTask} {place : Place}

/-! ## What a run leaves -/

/-- What a run leaves: all directories, the files that its tasks do not touch, and the listings that do
not show what they touch. -/
structure Leaves (output : String) (tasks : List BuildTask) (a b : FileTree) : Prop where
  directories : ∀ place, a.get? place = some .directory → b.get? place = some .directory
  files : ∀ {place bytes}, Lies a.get? place bytes → (∀ t ∈ tasks, ¬ t.Touches output place) → Lies b.get? place bytes
  listings : ∀ {α : Type} (h : Place → Option α),
    (∀ t ∈ tasks, ∀ place, t.Touches output place → h place = none) → b.findFiles h = a.findFiles h

theorem Runs.leaves {p : Plan} (placed : ∀ t ∈ tasks, t.Placed p.output) (run : Runs p a tasks b)
    (nested : Output.Nested a.get?) : Leaves p.output tasks a b where
  directories := (run.nested placed nested).2
  files lies spared := by
    obtain ⟨-, rfl⟩ := runTasks_iff.2 run
    exact lies_runTasks lies spared
  listings h unseen := run.findFiles placed nested unseen

namespace Leaves

variable (leaves : Leaves output tasks a b)

include leaves

/-! ## Sources -/

theorem sourcesIn (outputDirect : IsDirect output) (rootDirect : IsDirect root)
    (below : ∀ t ∈ tasks, ∀ place, t.Touches output place → namesOf output <+: place)
    (here : a.isDirectory [] root = true) : sourcesIn b output root = sourcesIn a output root := by
  have straight : placeOf root = namesOf root := FileTree.walk_of_straight rootDirect.notUp_namesOf []
  rw [Folio.sourcesIn, Folio.sourcesIn]
  split
  · rfl
  · rename_i apart
    have unseen : ∀ t ∈ tasks, ∀ place, t.Touches output place → shownBelow root (some output) (placeOf root) place = none := by
      intro t mem place touches
      rw [shownBelow, straight]
      split
      · rename_i inside
        obtain ⟨⟨names, rfl⟩, -⟩ : namesOf root <+: place ∧ place ≠ namesOf root := by simpa using inside
        rw [List.drop_left, foundFile?]
        refine if_pos ?_
        by_contra visible
        exact outside_of_not_hidden outputDirect rootDirect apart visible (below t mem _ touches)
      · rfl
    rw [FileTree.filesIn_eq here, FileTree.filesIn_eq (FileTree.isDirectory_of_kept leaves.directories here),
      leaves.listings _ unseen]

theorem collectSources (outputDirect : IsDirect output) (rootsDirect : ∀ root ∈ roots, IsDirect root)
    (below : ∀ t ∈ tasks, ∀ place, t.Touches output place → namesOf output <+: place)
    (here : ∀ root ∈ roots, a.isDirectory [] root = true) (known : List Source) :
    collectSources b output known roots = collectSources a output known roots := by
  induction roots generalizing known with
  | nil => rfl
  | cons root roots ih =>
    rw [List.forall_mem_cons] at rootsDirect here
    simp only [Folio.collectSources, leaves.sourcesIn outputDirect rootsDirect.1 below here.1, ih rootsDirect.2 here.2]

theorem readHeaders (below : ∀ t ∈ tasks, ∀ place, t.Touches output place → namesOf output <+: place)
    (found : ∀ s ∈ sources, s.Found a output) (id : ℕ) : readHeaders b id sources = readHeaders a id sources := by
  induction sources generalizing id with
  | nil => rfl
  | cons s sources ih =>
    obtain ⟨first, rest⟩ := List.forall_mem_cons.1 found
    have read : b.readFile [] s.physical = a.readFile [] s.physical := by
      obtain ⟨bytes, lies⟩ := first.lies
      have still := leaves.files lies fun t mem touches => first.outside (below t mem _ touches)
      rw [still.readFile, lies.readFile]
    simp only [Folio.readHeaders, readHeaderOf, read, ih rest]

/-! ## Settings -/

theorem fault? (valid : settings.fault? a [] = none) : settings.fault? b [] = none := by
  rw [Settings.fault?, Option.or_eq_none_iff, Option.or_eq_none_iff] at valid ⊢
  obtain ⟨content, templates, rest⟩ := valid
  refine ⟨?_, ?_, rest⟩
  · rw [Settings.contentFault?] at content ⊢
    split_ifs at content ⊢
    rw [Option.map_eq_none_iff, List.find?_eq_none] at content ⊢
    intro root mem
    have here : a.isDirectory [] root = true := by simpa using content root mem
    simpa using FileTree.isDirectory_of_kept leaves.directories here
  · rw [Settings.templatesFault?] at templates ⊢
    split_ifs at templates with here
    rw [if_pos (FileTree.isDirectory_of_kept leaves.directories here)]

end Leaves

/-- Sources are found and read as before. -/
theorem Leaves.survey (leaves : Leaves settings.build.output tasks a b) (formed : a.WellFormed)
    (valid : settings.fault? a [] = none) (direct : IsDirect settings.build.output)
    (rootsDirect : ∀ root ∈ settings.build.content, IsDirect root)
    (below : ∀ t ∈ tasks, ∀ place, t.Touches settings.build.output place → namesOf settings.build.output <+: place)
    (collected : Folio.collectSources a settings.build.output [] settings.build.content = .ok sources)
    (r : Reducer) (s : Scope) : Folio.survey b settings r s = Folio.survey a settings r s := by
  have found := found_of_collectSources formed direct rootsDirect collected
  have same := leaves.collectSources direct rootsDirect below (fun root mem => isDirectory_content valid mem) []
  rw [Folio.survey, Folio.survey, same, collected]
  change (Folio.readHeaders b 0 sources >>= _) = Folio.readHeaders a 0 sources >>= _
  rw [leaves.readHeaders below found]

/-! ## Layouts -/

/-- The task writes a file that counts as a layout from then on. -/
def BuildTask.MakesLayout (settings : Settings) (t : BuildTask) : Prop :=
  placeOf settings.build.templates <+: placeOf (t.target settings.build.output) ∧
    FilePath.extension? (t.target settings.build.output) = some layoutExtension

def FoundFile.isLayout (file : FoundFile) : Bool :=
  FilePath.extension? file.path == some layoutExtension

/-- Nothing but layouts is read. -/
theorem readLayouts_filter (tree : FileTree) (known : Layouts) (files : List FoundFile) :
    readLayouts tree known (files.filter FoundFile.isLayout) = readLayouts tree known files := by
  induction files generalizing known with
  | nil => rfl
  | cons file files ih =>
    by_cases layout : file.isLayout = true
    · rw [List.filter_cons_of_pos layout, readLayouts, readLayouts]
      simp only [ih]
    · rw [List.filter_cons_of_neg layout, ih, readLayouts]
      exact (if_neg layout).symm

/-- Layouts are read alike from a tree in which their files are the same. -/
theorem readLayouts_of_kept {known layouts : Layouts} {files : List FoundFile}
    (kept : ∀ file ∈ files, ∀ bytes, a.readFile [] file.path = .ok bytes → b.readFile [] file.path = .ok bytes)
    (read : readLayouts a known files = .ok layouts) : readLayouts b known files = .ok layouts := by
  induction files generalizing known with
  | nil => exact read
  | cons file files ih =>
    obtain ⟨first, rest⟩ := List.forall_mem_cons.1 kept
    rw [readLayouts] at read ⊢
    split_ifs at read ⊢ with layout
    · obtain ⟨template, parsed, read⟩ := Failure.bind_eq_ok_iff.1 read
      refine Failure.bind_eq_ok_iff.2 ⟨template, ?_, ih rest read⟩
      rw [readLayout] at parsed ⊢
      cases here : a.readFile [] file.path with
      | error fault => simp [here] at parsed
      | ok bytes =>
        rw [here] at parsed
        rw [first bytes here]
        exact parsed
    · exact ih rest read

def shownLayout (templates : String) (place : Place) : Option FoundFile :=
  (shownBelow templates none (placeOf templates) place).filter FoundFile.isLayout

theorem loadLayouts_eq (here : tree.isDirectory [] templates = true) :
    loadLayouts tree templates = readLayouts tree [] (tree.findFiles (shownLayout templates)) := by
  have filtered : (tree.findFiles (shownBelow templates none (placeOf templates))).filter FoundFile.isLayout =
      tree.findFiles (shownLayout templates) := by
    rw [FileTree.findFiles, FileTree.findFiles, List.filter_filterMap]
    refine List.filterMap_congr fun node _ => ?_
    obtain ⟨other, _ | bytes⟩ := node <;> rfl
  rw [loadLayouts, if_pos here, FileTree.filesIn_eq here, ← filtered, readLayouts_filter]

/-- A layout lies where its path leads. -/
theorem placeOf_of_shownLayout {file : FoundFile} (plain : ∀ name ∈ place, FilePath.Plain name)
    (found : shownLayout templates place = some file) :
    placeOf file.path = place ∧ placeOf templates <+: placeOf file.path ∧
      FilePath.extension? file.path = some layoutExtension := by
  obtain ⟨found, layout⟩ := Option.filter_eq_some_iff.1 found
  obtain ⟨names, rfl, path⟩ := FileTree.exists_of_shownBelow found
  rw [path, FileTree.placeOf_foldl_join (fun name mem => plain name (List.mem_append_right _ mem)) templates]
  exact ⟨rfl, List.prefix_append .., by simpa [FoundFile.isLayout, path] using layout⟩

namespace BuildTask

/-- A task touches no layout unless it makes one. -/
theorem Placed.not_touches_layout (placed : t.Placed settings.build.output) (makesNone : ¬ t.MakesLayout settings)
    {path : String} (below : placeOf settings.build.templates <+: placeOf path)
    (layout : FilePath.extension? path = some layoutExtension) : ¬ t.Touches settings.build.output (placeOf path) := by
  have meant := placed.at []
  obtain ⟨above, name, ends, proper⟩ := FileTree.extension_of_placeOf layout
  rintro (target | temporary)
  · refine makesNone ⟨target ▸ below, ?_⟩
    have same : above ++ [name] = (t.outputOf settings.build.output []).directory ++ [(t.outputOf settings.build.output []).name] := by
      rw [← ends, target, placed.placeOf_target, meant.named]
      rfl
    obtain ⟨-, last⟩ := List.append_inj' same rfl
    rw [FilePath.extension?, meant.direct.fileName? meant.named, ← List.singleton_inj.1 last]
    exact proper
  · have same : above ++ [name] = (t.outputOf settings.build.output []).directory ++
        [hiddenName (t.outputOf settings.build.output []).name] := by
      rw [← ends, temporary, placed.placeOf_temporary, meant.namesOf_temporaryPath]
      rfl
    obtain ⟨-, last⟩ := List.append_inj' same rfl
    -- A name that ends in `.tmp` has not the extension of a layout.
    have spelled := FilePath.eq_of_extensionOf? proper
    rw [List.singleton_inj.1 last] at spelled
    have letters := congrArg (·.toList.getLast?) spelled
    simp [hiddenName, layoutExtension, List.getLast?_cons] at letters

theorem Placed.plain_of_touches (placed : t.Placed output) (touches : t.Touches output place) :
    ∀ name ∈ place, FilePath.Plain name := by
  have meant := placed.at []
  have target : ∀ name ∈ namesOf (t.target output), FilePath.Plain name := fun name mem => placed.direct.plain_of_mem mem
  have directory : ∀ name ∈ (t.outputOf output []).directory, FilePath.Plain name := fun name mem =>
    target name (by rw [meant.named]; exact List.mem_append_left _ mem)
  have temporary : ∀ name ∈ namesOf (temporaryPath (t.target output)), FilePath.Plain name := by
    rw [meant.namesOf_temporaryPath]
    exact List.forall_mem_append.2 ⟨directory, List.forall_mem_singleton.2 meant.plain_hiddenName⟩
  obtain rfl | rfl := touches
  · rwa [placed.placeOf_target]
  · rwa [placed.placeOf_temporary]

end BuildTask

theorem Leaves.loadLayouts (leaves : Leaves settings.build.output tasks a b) (formed : a.WellFormed)
    (placed : ∀ t ∈ tasks, t.Placed settings.build.output) (makesNone : ∀ t ∈ tasks, ¬ t.MakesLayout settings)
    {layouts : Layouts} (here : a.isDirectory [] settings.build.templates = true)
    (loaded : loadLayouts a settings.build.templates = .ok layouts) :
    loadLayouts b settings.build.templates = .ok layouts := by
  have unseen : ∀ t ∈ tasks, ∀ place, t.Touches settings.build.output place →
      shownLayout settings.build.templates place = none := by
    intro t mem place touches
    by_contra found
    obtain ⟨file, found⟩ := Option.ne_none_iff_exists'.1 found
    obtain ⟨rfl, below, layout⟩ := placeOf_of_shownLayout ((placed t mem).plain_of_touches touches) found
    exact (placed t mem).not_touches_layout (makesNone t mem) below layout touches
  rw [loadLayouts_eq here] at loaded
  rw [loadLayouts_eq (FileTree.isDirectory_of_kept leaves.directories here), leaves.listings _ unseen]
  refine readLayouts_of_kept (fun file mem bytes read => ?_) loaded
  obtain ⟨⟨place, node⟩, known, seen⟩ := List.mem_filterMap.1 mem
  cases node with
  | directory => cases seen
  | file content =>
    have plain : ∀ name ∈ place, FilePath.Plain name := fun name mem => (formed.named _ known name mem).1
    obtain ⟨rfl, below, layout⟩ := placeOf_of_shownLayout plain seen
    have lies := formed.lies ((FileTree.get?_eq_some_iff formed.distinct).2 known)
    have stays := leaves.files lies fun t mem => (placed t mem).not_touches_layout (makesNone t mem) below layout
    exact FileTree.readFile_of_kept leaves.directories (stays.here.trans lies.here.symm) read

/-! ## Builds -/

theorem build_of_keeps (keeps : settings.build.clean = false) (tree : FileTree) (now : Timestamp) :
    build tree settings now false = buildFrom tree settings now := by
  simp [build, buildWith, buildFrom, cleanOutput, keeps]

theorem buildFrom_of_runs {found : Survey} {p : Plan}
    (surveyed : survey tree settings (Reducer.ofTools Builtin.toolbox false) (settings.siteScope now) = .ok found)
    (planned : plan tree settings (Reducer.ofTools Builtin.toolbox false) (settings.siteScope now) found.published = .ok p)
    (run : Runs p tree found.tasks b) :
    buildFrom tree settings now =
      ⟨b, [found.message], found.tasks.map fun t => (t.kind, t.source.relative), .ok found.tasks.length⟩ := by
  simp only [buildFrom, buildFromWith, surveyed, planned, runTasks_of_runs run]
  rfl

theorem exists_layouts_of_plan {r : Reducer} {s : Scope} {documents : List Document} {p : Plan}
    (planned : plan tree settings r s documents = .ok p) :
    ∃ layouts, loadLayouts tree settings.build.templates = .ok layouts := by
  obtain ⟨scope, -, planned⟩ := Failure.bind_eq_ok_iff.1 planned
  obtain ⟨layouts, loaded, -⟩ := Failure.bind_eq_ok_iff.1 planned
  exact ⟨layouts, loaded⟩

theorem exists_runs_of_buildFrom {count : ℕ} (built : (buildFrom tree settings now).result = .ok count) :
    ∃ found p, survey tree settings (Reducer.ofTools Builtin.toolbox false) (settings.siteScope now) = .ok found ∧
      plan tree settings (Reducer.ofTools Builtin.toolbox false) (settings.siteScope now) found.published = .ok p ∧
      ∃ written, Runs p tree found.tasks written := by
  simp only [buildFrom, buildFromWith] at built
  split at built
  · cases built
  · rename_i found surveyed
    split at built
    · cases built
    · rename_i p planned
      exact ⟨found, p, surveyed, planned, _, runTasks_iff.1 ⟨(Tally.result_eq_ok_iff.1 built).1, rfl⟩⟩

/-! ## Main statement -/

/-- Let a build succeed that does not clean, and let no task make a layout or be in the way of another.
Then the settings are valid as before, the same sources and layouts are found again, and another build
does the same tasks and says the same, and leaves everything as it is. -/
theorem build_again (tree : FileTree) (settings : Settings) (now : Timestamp) {count : ℕ} (formed : tree.WellFormed)
    (valid : settings.fault? tree [] = none) (keeps : settings.build.clean = false)
    (direct : IsDirect settings.build.output) (rootsDirect : ∀ root ∈ settings.build.content, IsDirect root)
    (clear : ∀ found, survey tree settings (Reducer.ofTools Builtin.toolbox false) (settings.siteScope now) = .ok found →
      found.tasks.Pairwise fun t u => t.Clear settings.build.output u ∧ u.Clear settings.build.output t)
    (makesNone : ∀ t, Builds tree settings now t → ¬ t.MakesLayout settings)
    (built : (build tree settings now false).result = .ok count) :
    let first := build tree settings now false
    let second := build first.tree settings now false
    settings.fault? first.tree [] = none ∧
      collectSources first.tree settings.build.output [] settings.build.content =
        collectSources tree settings.build.output [] settings.build.content ∧
      loadLayouts first.tree settings.build.templates = loadLayouts tree settings.build.templates ∧
      (∀ t, Builds first.tree settings now t ↔ Builds tree settings now t) ∧
      second.result = .ok count ∧ second.generated = first.generated ∧ second.messages = first.messages ∧
      ∀ place, second.tree.get? place = first.tree.get? place := by
  intro first second
  have cleaned : settings.cleaned tree = tree := by simp [Settings.cleaned, Settings.cleans, keeps]
  rw [build_of_keeps keeps] at built
  obtain ⟨found, p, surveyed, planned, b, run⟩ := exists_runs_of_buildFrom built
  have firstIs : first = ⟨b, [found.message], found.tasks.map fun t => (t.kind, t.source.relative),
      .ok found.tasks.length⟩ := (build_of_keeps keeps tree now).trans (buildFrom_of_runs surveyed planned run)
  have output := output_of_plan planned
  obtain ⟨sources, collected, chosen⟩ := survey_chosen surveyed
  obtain ⟨settled, -⟩ := settled_of_chosen formed direct rootsDirect collected chosen
  have placed : ∀ t ∈ found.tasks, t.Placed settings.build.output := fun t mem => (settled t mem).placed direct
  have builds : ∀ t ∈ found.tasks, Builds tree settings now t := fun t mem => ⟨found, surveyed, mem⟩
  have below : ∀ t ∈ found.tasks, ∀ place, t.Touches settings.build.output place → namesOf settings.build.output <+: place := by
    intro t mem place touches
    have straight : placeOf settings.build.output = namesOf settings.build.output :=
      FileTree.walk_of_straight direct.notUp_namesOf []
    exact straight ▸ below_of_builds formed valid (cleaned.symm ▸ builds t mem) touches
  have leaves : Leaves settings.build.output found.tasks tree b := output ▸ run.leaves (output ▸ placed) formed.nested
  have sameSources := leaves.collectSources direct rootsDirect below (fun root mem => isDirectory_content valid mem) []
  have sameSurvey := leaves.survey formed valid direct rootsDirect below collected
  obtain ⟨layouts, loaded⟩ := exists_layouts_of_plan planned
  have loaded' := leaves.loadLayouts formed placed (fun t mem => makesNone t (builds t mem)) (isDirectory_templates valid) loaded
  have sameLayouts := loaded'.trans loaded.symm
  have samePlan : plan b settings (Reducer.ofTools Builtin.toolbox false) (settings.siteScope now) found.published = .ok p := by
    rw [plan, sameLayouts]
    exact planned
  have spares : found.tasks.Pairwise fun t u => t.Spares settings.build.output u ∧ u.Spares settings.build.output t :=
    (clear found surveyed).imp_of_mem fun {t u} first second clear =>
      ⟨clear.1.spares (settled t first) (settled u second) direct, clear.2.spares (settled u second) (settled t first) direct⟩
  have spared : ∀ t ∈ found.tasks, ∀ u ∈ found.tasks, ¬ t.Touches settings.build.output (namesOf u.source.physical) :=
    fun t mem u mem' touches => (settled u mem').found.outside (below t mem _ touches)
  obtain ⟨c, run', unchanged⟩ := run.again (output ▸ placed) (output ▸ spares) (fun t mem => (settled t mem).found.lies)
    (output ▸ spared)
  have secondIs : second = ⟨c, [found.message], found.tasks.map fun t => (t.kind, t.source.relative),
      .ok found.tasks.length⟩ := by
    simp only [second, build_of_keeps keeps, firstIs]
    exact buildFrom_of_runs ((sameSurvey _ _).trans surveyed) samePlan run'
  have length : found.tasks.length = count := by
    rw [buildFrom_of_runs surveyed planned run] at built
    exact Except.ok.inj built
  rw [firstIs, secondIs, length]
  refine ⟨leaves.fault? valid, sameSources, sameLayouts, fun t => ?_, rfl, rfl, rfl, congrFun unchanged⟩
  rw [Builds, sameSurvey, Builds]

/-- The output directory may lie among the content. -/
theorem build_again_nested :
    let tree : FileTree := ⟨[([], .directory), (["c"], .directory), (["c", "a.md"], .file (Text.encode "Hello\n")),
      (["t"], .directory), (["t", "page.html"], .file (Text.encode "\x7bcontentBody\x7d"))]⟩
    let settings : Settings := { Settings.default with build := ⟨some "/", ["/c"], "/c/o", "/t", false⟩ }
    let first := build tree settings ⟨0, 0, 0⟩ false
    let second := build first.tree settings ⟨0, 0, 0⟩ false
    first.result = .ok 1 ∧ second.result = .ok 1 ∧ ∀ place, second.tree.get? place = first.tree.get? place := by
  intro tree settings first second
  have formed : tree.WellFormed := by decide +kernel
  have valid : settings.fault? tree [] = none := by decide +kernel
  have direct : IsDirect settings.build.output := by decide +kernel
  have built : first.result = .ok 1 := by decide +kernel
  have clear : ∀ found, survey tree settings (Reducer.ofTools Builtin.toolbox false) (settings.siteScope ⟨0, 0, 0⟩) =
      .ok found → found.tasks.Pairwise fun t u => t.Clear "/c/o" u ∧ u.Clear "/c/o" t := by
    intro found surveyed
    obtain ⟨sources, collected, chosen⟩ := survey_chosen surveyed
    have single : collectSources tree "/c/o" [] ["/c"] = .ok [⟨"/c/a.md", ⟨["a.md"]⟩⟩] := by decide +kernel
    obtain rfl := Except.ok.inj (single.symm.trans collected)
    have short := chosen.sublist.length_le
    match found.tasks, short with
    | [], _ => exact .nil
    | [t], _ => exact List.pairwise_singleton ..
  have makesNone : ∀ t, Builds tree settings ⟨0, 0, 0⟩ t → ¬ t.MakesLayout settings := by
    rintro t builds ⟨⟨names, among⟩, -⟩
    obtain ⟨more, below⟩ := below_of_builds formed valid builds (.inl rfl)
    have templates : placeOf settings.build.templates = ["t"] := by decide +kernel
    have output : placeOf settings.build.output = ["c", "o"] := by decide +kernel
    rw [← below, templates, output] at among
    simp at among
  obtain ⟨-, -, -, -, again, -, -, unchanged⟩ := build_again tree settings ⟨0, 0, 0⟩ formed valid rfl direct
    (by decide +kernel) clear makesNone built
  exact ⟨built, again, unchanged⟩

/-- A page that is written among the templates is read as a layout by the next build, which a brace in it
brings to an end. -/
theorem page_becomes_layout :
    let tree : FileTree := ⟨[([], .directory), (["c"], .directory), (["c", "a.md"], .file (Text.encode "Hello\n")),
      (["t"], .directory), (["t", "page.html"], .file (Text.encode "\x7bcontentBody\x7d\x7b\x7b"))]⟩
    let settings : Settings := { Settings.default with build := ⟨some "/", ["/c"], "/t/o", "/t", false⟩ }
    let first := build tree settings ⟨0, 0, 0⟩ false
    let second := build first.tree settings ⟨0, 0, 0⟩ false
    tree.WellFormed ∧ settings.fault? tree [] = none ∧ first.result = .ok 1 ∧ settings.fault? first.tree [] = none ∧
      second.result = .error ((Failure.ofFault (.format (.openBrace 2))).within (.parsingLayout "/t/o/a.html")) := by
  intro tree settings first second
  refine ⟨?_, ?_, ?_, ?_, ?_⟩ <;> decide +kernel

end Folio
