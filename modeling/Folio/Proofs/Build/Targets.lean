import Folio.Proofs.Build.Runs
import Folio.Proofs.Build.Sources
import Folio.Proofs.Eval.Outcome

/-!
# The files that a build makes

No two sources have the same path in the site, but a page is named after its document and a
file after the place where it lies, so that two tasks can still write to one place.  Here is
when they do.  When no task is in the way of another, the files do not depend on the order
of the tasks.

Main statement: `tasks_meet_iff`.
-/

namespace Folio

open FilePath (IsDirect namesOf)
open Output (hiddenName)

/-! ## Tasks for sources -/

/-- The tasks for sources: what is no document is copied, and of the documents any may be
rendered. -/
inductive Chosen : List Source → List BuildTask → Prop where
  | nil : Chosen [] []
  | copied {s : Source} {sources : List Source} {tasks : List BuildTask} (asset : s.isDocument = false)
      (rest : Chosen sources tasks) : Chosen (s :: sources) (.copy s :: tasks)
  | rendered {s : Source} {d : Document} {sources : List Source} {tasks : List BuildTask}
      (document : s.isDocument = true) (same : d.source = s.relative) (rest : Chosen sources tasks) :
      Chosen (s :: sources) (.render s d :: tasks)
  | unpublished {s : Source} {sources : List Source} {tasks : List BuildTask} (document : s.isDocument = true)
      (rest : Chosen sources tasks) : Chosen (s :: sources) tasks

def BuildTask.path : BuildTask → SitePath
  | .render _ document => document.path
  | .copy source => source.relative

theorem target_eq (t : BuildTask) (output : String) : t.target output = t.path.under output := by
  cases t <;> rfl

def BuildTask.Suits (t : BuildTask) : Prop :=
  ∀ d, t.document? = some d → t.source.isDocument = true ∧ d.source = t.source.relative

section Chosen

variable {sources : List Source} {tasks : List BuildTask}

theorem Chosen.sublist (chosen : Chosen sources tasks) : (tasks.map BuildTask.source).Sublist sources := by
  induction chosen with
  | nil => exact .slnil
  | copied _ _ ih | rendered _ _ _ ih => exact ih.cons_cons _
  | unpublished _ _ ih => exact ih.cons _

theorem Chosen.pairwise (chosen : Chosen sources tasks)
    (apart : sources.Pairwise fun s t => s.relative.text ≠ t.relative.text) :
    tasks.Pairwise fun t u => t.source.relative.text ≠ u.source.relative.text :=
  (List.pairwise_map (f := BuildTask.source)).mp (apart.sublist chosen.sublist)

theorem Chosen.suits (chosen : Chosen sources tasks) : ∀ t ∈ tasks, t.Suits := by
  induction chosen with
  | nil => simp
  | copied asset rest ih => exact List.forall_mem_cons.mpr ⟨nofun, ih⟩
  | rendered document same rest ih =>
    refine List.forall_mem_cons.mpr ⟨?_, ih⟩
    rintro _ ⟨⟩
    exact ⟨document, same⟩
  | unpublished _ _ ih => exact ih

theorem Failure.eq_pure_of_ofEval {α : Type} {e : Eval α} {a : α} (known : Failure.ofEval e = .ok a) : e = pure a := by
  rw [Failure.ofEval] at known
  match e with
  | none => cases known
  | some (.error fault) => cases known
  | some (.ok b) =>
    cases known
    rfl

theorem chosen_of_tasksOf {tree : FileTree} {r : Reducer} {scope : Scope} {id : ℕ} {readings : List Reading}
    (read : readHeaders tree id sources = .ok readings) (made : tasksOf r scope readings = pure tasks) :
    Chosen sources tasks := by
  -- Headers are read and tasks are made source by source, though one after the other.
  induction sources generalizing id readings tasks with
  | nil =>
    cases read
    obtain rfl := Eval.pure_inj.mp made
    exact .nil
  | cons s sources ih =>
    rw [readHeaders] at read
    split at read
    · rename_i document
      obtain ⟨header, -, read⟩ := Failure.bind_eq_ok_iff.mp read
      obtain ⟨rest, below, read⟩ := Failure.bind_eq_ok_iff.mp read
      cases read
      obtain ⟨published, -, made⟩ := Eval.bind_eq_pure_iff.mp made
      obtain ⟨more, others, made⟩ := Eval.bind_eq_pure_iff.mp made
      obtain rfl := Eval.pure_inj.mp made
      cases published with
      | true => exact .rendered document rfl (ih below others)
      | false => exact .unpublished document (ih below others)
    · rename_i asset
      obtain ⟨rest, below, read⟩ := Failure.bind_eq_ok_iff.mp read
      cases read
      obtain ⟨more, others, made⟩ := Eval.bind_eq_pure_iff.mp made
      obtain rfl := Eval.pure_inj.mp made
      exact .copied (by simpa using asset) (ih below others)

/-- The tasks of a build are chosen from the sources that it collects. -/
theorem survey_chosen {tree : FileTree} {settings : Settings} {r : Reducer} {scope : Scope} {found : Survey}
    (surveyed : survey tree settings r scope = .ok found) :
    ∃ sources, collectSources tree settings.build.output [] settings.build.content = .ok sources ∧
      Chosen sources found.tasks := by
  obtain ⟨sources, collected, surveyed⟩ := Failure.bind_eq_ok_iff.mp surveyed
  obtain ⟨readings, read, surveyed⟩ := Failure.bind_eq_ok_iff.mp surveyed
  obtain ⟨tasks, made, surveyed⟩ := Failure.bind_eq_ok_iff.mp surveyed
  cases surveyed
  exact ⟨sources, collected, chosen_of_tasksOf read (Failure.eq_pure_of_ofEval made)⟩

/-- No task is done twice. -/
theorem nodup_of_survey {tree : FileTree} {settings : Settings} {r : Reducer} {scope : Scope} {found : Survey}
    (surveyed : survey tree settings r scope = .ok found) : found.tasks.Nodup := by
  obtain ⟨sources, collected, chosen⟩ := survey_chosen surveyed
  exact (chosen.pairwise (pairwise_of_collectSources collected .nil)).imp fun apart same => apart (by rw [same])

end Chosen

/-! ## Names -/

theorem under_eq_foldl_join {p : SitePath} (plain : ∀ name ∈ p.segments, FilePath.Plain name) (directory : String) :
    p.under directory = p.segments.foldl FilePath.join directory := by
  obtain ⟨segments⟩ := p
  rw [SitePath.under]
  dsimp only at plain ⊢
  induction segments generalizing directory with
  | nil => rfl
  | cons name segments ih =>
    have step : (if directory.isEmpty || directory.endsWith "/" then directory ++ name else directory ++ "/" ++ name) =
        FilePath.join directory name := by
      rw [FilePath.join, (plain name List.mem_cons_self).not_isRooted]
      rfl
    rw [List.foldl_cons, List.foldl_cons, step]
    exact ih _ fun n mem => plain n (List.mem_cons_of_mem _ mem)

section Names

variable {tree : FileTree} {output : String} {s : Source} {d : Document} {t u : BuildTask}

/-- The page of a document at plain names has plain names. -/
theorem plain_page {names : List String} (plain : ∀ name ∈ names, FilePath.Plain name) :
    ∀ name ∈ ((⟨names⟩ : SitePath).withExtension "html").segments, FilePath.Plain name := by
  obtain rfl | ⟨directory, name, rfl⟩ := List.eq_nil_or_concat names
  · exact plain
  · rw [List.concat_eq_append] at plain ⊢
    rw [SitePath.segments_page]
    intro other mem
    obtain above | last := List.mem_append.mp mem
    · exact plain other (List.mem_append_left _ above)
    · obtain rfl := List.mem_singleton.mp last
      exact FilePath.plain_html fun slash => (plain name (by simp)).flat (FilePath.mem_of_mem_stemOf slash)

/-- A rendered document is called `.md`, and its page `.html` instead. -/
theorem document_path (found : s.Found tree output) (document : s.isDocument = true) (same : d.source = s.relative) :
    (s.relative.segments = [] ∧ d.path.segments = []) ∨ ∃ directory stem,
      s.relative.segments = directory ++ [stem ++ ".md"] ∧ d.path.segments = directory ++ [stem ++ ".html"] := by
  obtain ⟨root, names, direct, plain, physical, relative⟩ := found.below
  rw [Document.path, same, show s.relative = ⟨names⟩ from congrArg SitePath.mk relative]
  obtain rfl | ⟨directory, name, rfl⟩ := List.eq_nil_or_concat names
  · exact .inl ⟨rfl, rfl⟩
  · rw [List.concat_eq_append] at plain physical relative ⊢
    have named : namesOf s.physical = (namesOf root ++ directory) ++ [name] := by
      rw [physical, FilePath.namesOf_foldl_join plain, List.append_assoc]
    have called : FilePath.fileName? s.physical = some name := by
      rw [physical] at named ⊢
      exact (direct.foldl_join plain).fileName? named
    have extension : FilePath.extensionOf? name = some "md" := by
      simpa [Source.isDocument, FilePath.extension?, called, documentExtension] using document
    refine .inr ⟨directory, SitePath.stemOf name, ?_, SitePath.segments_page directory name⟩
    rw [show ".md" = "." ++ "md" from rfl, ← String.append_assoc, ← FilePath.eq_of_extensionOf? extension]

/-- What is known of a task among those for the sources that were collected. -/
structure BuildTask.Settled (tree : FileTree) (output : String) (t : BuildTask) : Prop where
  found : t.source.Found tree output
  suits : t.Suits

namespace BuildTask.Settled

variable (settled : t.Settled tree output)

include settled

theorem plain_path : ∀ name ∈ t.path.segments, FilePath.Plain name := by
  obtain ⟨root, names, direct, plain, physical, relative⟩ := settled.found.below
  cases t with
  | copy source =>
    rw [BuildTask.path, show source.relative.segments = names from relative]
    exact plain
  | render source document =>
    have same : document.source = ⟨names⟩ :=
      (settled.suits document rfl).2.trans (congrArg SitePath.mk relative)
    rw [BuildTask.path, Document.path, same]
    exact plain_page plain

theorem path_eq_nil_iff : t.path.segments = [] ↔ t.source.relative.segments = [] := by
  cases t with
  | copy source => rfl
  | render source document =>
    obtain ⟨isDocument, same⟩ := settled.suits document rfl
    obtain ⟨none, none'⟩ | ⟨directory, stem, named, page⟩ := document_path settled.found isDocument same
    · exact iff_of_true none' none
    · rw [BuildTask.path, page, BuildTask.source, show source.relative.segments = _ from named]
      simp

theorem namesOf_target : namesOf (t.target output) = namesOf output ++ t.path.segments := by
  rw [target_eq, under_eq_foldl_join settled.plain_path, FilePath.namesOf_foldl_join settled.plain_path]

theorem output_ne_nil : namesOf output ≠ [] := fun none =>
  settled.found.outside (none ▸ List.nil_prefix)

theorem placed (direct : IsDirect output) : t.Placed output := by
  refine ⟨?_, ?_⟩
  · rw [target_eq, under_eq_foldl_join settled.plain_path]
    exact direct.foldl_join settled.plain_path
  · rw [settled.namesOf_target]
    simp [settled.output_ne_nil]

end BuildTask.Settled

/-! ## Meetings -/

/-- One task renders a document, and the other copies a file that has the name of its page. -/
def BuildTask.SharePage (t u : BuildTask) : Prop :=
  ∃ s d v directory stem, t = .render s d ∧ u = .copy v ∧ s.relative.segments = directory ++ [stem ++ ".md"] ∧
    v.relative.segments = directory ++ [stem ++ ".html"]

/-- The second task copies a file that has the name under which the file of the first is written. -/
def BuildTask.Shadowed (t u : BuildTask) : Prop :=
  ∃ v directory name, u = .copy v ∧ t.path.segments = directory ++ [name] ∧
    v.relative.segments = directory ++ [hiddenName name]

theorem SitePath.text_congr {p q : SitePath} (same : p.segments = q.segments) : p.text = q.text := by
  rw [SitePath.text, SitePath.text, same]

namespace BuildTask.Settled

theorem sharePage_path (settled : t.Settled tree output) (share : t.SharePage u) :
    t.path.segments = u.path.segments := by
  obtain ⟨s, d, v, directory, stem, rfl, rfl, named, page⟩ := share
  obtain ⟨isDocument, same⟩ := settled.suits d rfl
  obtain ⟨none, -⟩ | ⟨directory', stem', named', page'⟩ := document_path settled.found isDocument same
  · rw [show s.relative.segments = [] from none] at named
    simp at named
  · obtain ⟨rfl, stems⟩ := List.append_inj' (named.symm.trans named') rfl
    obtain rfl : stem = stem' := by simpa [← String.toList_inj] using stems
    exact page'.trans page.symm

theorem path_eq_iff (settled : t.Settled tree output) (settled' : u.Settled tree output)
    (apart : t.source.relative.text ≠ u.source.relative.text) :
    t.path.segments = u.path.segments ↔ t.SharePage u ∨ u.SharePage t := by
  constructor
  · intro same
    have below : t.path.segments ≠ [] := fun none =>
      apart (SitePath.text_congr (by
        rw [settled.path_eq_nil_iff.mp none, settled'.path_eq_nil_iff.mp (same ▸ none)]))
    have page : ∀ {t : BuildTask} {s d}, t.Settled tree output → t = .render s d → t.path.segments ≠ [] →
        ∃ directory stem, s.relative.segments = directory ++ [stem ++ ".md"] ∧
          d.path.segments = directory ++ [stem ++ ".html"] := by
      rintro _ s d settled rfl below
      obtain ⟨isDocument, same⟩ := settled.suits d rfl
      exact (document_path settled.found isDocument same).resolve_left fun none => below none.2
    cases t with
    | copy v =>
      cases u with
      | copy w => exact absurd (SitePath.text_congr same) apart
      | render s d =>
        obtain ⟨directory, stem, named, page⟩ := page settled' rfl (same ▸ below)
        exact .inr ⟨s, d, v, directory, stem, rfl, rfl, named, same.trans page⟩
    | render s d =>
      obtain ⟨directory, stem, named, path⟩ := page settled rfl below
      cases u with
      | copy w => exact .inl ⟨s, d, w, directory, stem, rfl, rfl, named, same.symm.trans path⟩
      | render s' d' =>
        obtain ⟨directory', stem', named', path'⟩ := page settled' rfl (same ▸ below)
        -- Documents with one page have one name, since both are called `.md`.
        obtain ⟨rfl, stems⟩ := List.append_inj' ((path.symm.trans same).trans path') rfl
        obtain rfl : stem = stem' := by simpa [← String.toList_inj] using stems
        exact absurd (SitePath.text_congr (named.trans named'.symm)) apart
  · rintro (share | share)
    · exact settled.sharePage_path share
    · exact (settled'.sharePage_path share).symm

theorem target_eq_iff (settled : t.Settled tree output) (settled' : u.Settled tree output)
    (apart : t.source.relative.text ≠ u.source.relative.text) :
    namesOf (t.target output) = namesOf (u.target output) ↔ t.SharePage u ∨ u.SharePage t := by
  rw [settled.namesOf_target, settled'.namesOf_target, List.append_cancel_left_eq, settled.path_eq_iff settled' apart]

theorem temporary_eq_iff (settled : t.Settled tree output) (settled' : u.Settled tree output)
    (direct : IsDirect output) :
    namesOf (temporaryPath (t.target output)) = namesOf (temporaryPath (u.target output)) ↔
      namesOf (t.target output) = namesOf (u.target output) := by
  have meant := (settled.placed direct).at []
  have meant' := (settled'.placed direct).at []
  rw [meant.namesOf_temporaryPath, meant'.namesOf_temporaryPath, meant.named, meant'.named]
  exact Output.temporary_inj

theorem namesOf_temporary (settled : t.Settled tree output) (direct : IsDirect output) {directory : List String}
    {name : String} (ends : t.path.segments = directory ++ [name]) :
    namesOf (temporaryPath (t.target output)) = namesOf output ++ (directory ++ [hiddenName name]) := by
  rw [((settled.placed direct).at []).namesOf_temporaryPath, Output.temporary, BuildTask.outputOf,
    settled.namesOf_target, ends, ← List.append_assoc]
  simp

/-- A file below the output directory is written there at first, too. -/
theorem output_leads (settled : t.Settled tree output) (direct : IsDirect output) (below : t.path.segments ≠ []) :
    namesOf output <+: namesOf (temporaryPath (t.target output)) := by
  obtain ⟨directory, name, ends⟩ := (List.eq_nil_or_concat t.path.segments).resolve_left below
  rw [settled.namesOf_temporary direct (ends.trans List.concat_eq_append)]
  exact List.prefix_append ..

theorem length_temporary (settled : t.Settled tree output) (direct : IsDirect output) :
    (namesOf (temporaryPath (t.target output))).length = (namesOf output).length + t.path.segments.length := by
  have meant := (settled.placed direct).at []
  rw [← List.length_append, ← settled.namesOf_target, meant.namesOf_temporaryPath, meant.named]
  simp [Output.temporary, Output.target]

theorem shadowed_iff (settled : t.Settled tree output) (settled' : u.Settled tree output) (direct : IsDirect output)
    (apart : t.source.relative.text ≠ u.source.relative.text) :
    namesOf (temporaryPath (t.target output)) = namesOf (u.target output) ↔ t.Shadowed u := by
  constructor
  · intro same
    obtain none | ⟨directory, name, ends⟩ := List.eq_nil_or_concat t.path.segments
    · have lengths := congrArg List.length same
      rw [settled.length_temporary direct, settled'.namesOf_target, List.length_append, none] at lengths
      have none' : u.path.segments = [] := List.length_eq_zero_iff.mp (by simpa using lengths.symm)
      exact absurd (SitePath.text_congr (by
        rw [settled.path_eq_nil_iff.mp none, settled'.path_eq_nil_iff.mp none'])) apart
    · rw [List.concat_eq_append] at ends
      rw [settled.namesOf_temporary direct ends, settled'.namesOf_target, List.append_cancel_left_eq] at same
      cases u with
      | copy v => exact ⟨v, directory, name, rfl, ends, same.symm⟩
      | render s d =>
        obtain ⟨isDocument, source⟩ := settled'.suits d rfl
        obtain ⟨-, none⟩ | ⟨_, stem, -, page⟩ := document_path settled'.found isDocument source
        · simp [BuildTask.path, none] at same
        · obtain ⟨-, last⟩ := List.append_inj' (same.trans page) rfl
          have letters := congrArg (·.toList.getLast?) (List.singleton_inj.mp last)
          simp [hiddenName, List.getLast?_cons] at letters
  · rintro ⟨v, directory, name, rfl, ends, named⟩
    rw [settled.namesOf_temporary direct ends, settled'.namesOf_target]
    exact congrArg _ named.symm

end BuildTask.Settled

/-- The task makes and removes no file at or above the target of the other. -/
structure BuildTask.Clear (output : String) (t u : BuildTask) : Prop where
  target : ¬ namesOf (t.target output) <+: namesOf (u.target output)
  temporary : ¬ namesOf (temporaryPath (t.target output)) <+: namesOf (u.target output)

/-- A file at the output directory itself would be above everything. -/
theorem BuildTask.Clear.path_ne_nil (clear : t.Clear output u) (settled : t.Settled tree output)
    (settled' : u.Settled tree output) : t.path.segments ≠ [] := fun none => by
  refine clear.target ?_
  rw [settled.namesOf_target, none, List.append_nil, settled'.namesOf_target]
  exact List.prefix_append ..

theorem BuildTask.Clear.spares (clear : t.Clear output u) (settled : t.Settled tree output)
    (settled' : u.Settled tree output) (direct : IsDirect output) : t.Spares output u := by
  refine ⟨fun same => clear.target (same ▸ List.prefix_rfl), clear.temporary, fun here => ?_, fun here => ?_⟩
  · rw [settled.namesOf_target] at here
    exact settled'.found.outside (here ▸ List.prefix_append ..)
  · exact settled'.found.outside (here ▸ settled.output_leads direct (clear.path_ne_nil settled settled'))

theorem settled_of_chosen {roots : List String} {sources : List Source} {tasks : List BuildTask}
    (formed : tree.WellFormed) (direct : IsDirect output) (rootsDirect : ∀ root ∈ roots, IsDirect root)
    (collected : collectSources tree output [] roots = .ok sources) (chosen : Chosen sources tasks) :
    (∀ t ∈ tasks, t.Settled tree output) ∧
      tasks.Pairwise fun t u => t.source.relative.text ≠ u.source.relative.text := by
  have found := found_of_collectSources formed direct rootsDirect collected
  refine ⟨fun t mem => ⟨?_, chosen.suits t mem⟩, chosen.pairwise (pairwise_of_collectSources collected .nil)⟩
  exact found t.source (chosen.sublist.subset (List.mem_map_of_mem mem))

end Names

/-! ## Main statement -/

/-- Two tasks have one target exactly if one makes the page of a document and the other copies
a file with the name of that page, and the target of a task is where another file is written
at first exactly if the task copies a file with that name.  If no task is in the way of
another, the order of the tasks does not show. -/
theorem tasks_meet_iff {tree : FileTree} {output : String} {roots : List String} {sources : List Source}
    {tasks : List BuildTask} (formed : tree.WellFormed) (direct : IsDirect output)
    (rootsDirect : ∀ root ∈ roots, IsDirect root) (collected : collectSources tree output [] roots = .ok sources)
    (chosen : Chosen sources tasks) :
    (tasks.Pairwise fun t u =>
      (namesOf (t.target output) = namesOf (u.target output) ↔ t.SharePage u ∨ u.SharePage t) ∧
      (namesOf (temporaryPath (t.target output)) = namesOf (temporaryPath (u.target output)) ↔
        namesOf (t.target output) = namesOf (u.target output)) ∧
      (namesOf (temporaryPath (t.target output)) = namesOf (u.target output) ↔ t.Shadowed u) ∧
      (namesOf (temporaryPath (u.target output)) = namesOf (t.target output) ↔ u.Shadowed t)) ∧
    ((tasks.Pairwise fun t u => t.Clear output u ∧ u.Clear output t) →
      ∀ (p : Plan) (others : List BuildTask), p.output = output → tasks.Perm others →
        (runTasks p tree tasks).tally.failure = none → (runTasks p tree others).tally.failure = none ∧
          ∀ place, (runTasks p tree others).tree.get? place = (runTasks p tree tasks).tree.get? place) := by
  obtain ⟨settled, apart⟩ := settled_of_chosen formed direct rootsDirect collected chosen
  refine ⟨apart.imp_of_mem fun {t u} first second apart => ?_, fun clear p others same perm fine => ?_⟩
  · exact ⟨(settled t first).target_eq_iff (settled u second) apart,
      (settled t first).temporary_eq_iff (settled u second) direct,
      (settled t first).shadowed_iff (settled u second) direct apart,
      (settled u second).shadowed_iff (settled t first) direct apart.symm⟩
  · obtain rfl := same
    have run : Runs p tree tasks _ := runTasks_iff.mp ⟨fine, rfl⟩
    have spares : tasks.Pairwise fun t u => t.Spares p.output u ∧ u.Spares p.output t :=
      clear.imp_of_mem fun {t u} first second clear =>
        ⟨clear.1.spares (settled t first) (settled u second) direct,
          clear.2.spares (settled u second) (settled t first) direct⟩
    obtain ⟨written, run', same⟩ := run.perm perm (fun t mem => (settled t mem).placed direct) spares
      fun t mem => (settled t mem).found.lies
    obtain ⟨fine', rfl⟩ := runTasks_iff.mpr run'
    exact ⟨fine', fun place => congrFun same.symm place⟩

/-- A page and a picture, in either order. -/
theorem tasks_meet_iff_picture :
    let tree : FileTree := ⟨[([], .directory), (["c"], .directory), (["c", "a.md"], .file (Text.encode "Hello\n")),
      (["c", "a.png"], .file [1])]⟩
    let page := BuildTask.render ⟨"/c/a.md", ⟨["a.md"]⟩⟩ ⟨0, ⟨["a.md"]⟩, []⟩
    let picture := BuildTask.copy ⟨"/c/a.png", ⟨["a.png"]⟩⟩
    let p : Plan :=
      ⟨.root [("layout", .value (.str "page"))], [("page", [.expression (.variable "contentBody")])], "/t", "/o"⟩
    ¬ page.SharePage picture ∧ ¬ page.Shadowed picture ∧
      ∀ place,
        (runTasks p tree [picture, page]).tree.get? place = (runTasks p tree [page, picture]).tree.get? place := by
  intro tree page picture p
  obtain ⟨meets, reorders⟩ := @tasks_meet_iff tree "/o" ["/c"] [⟨"/c/a.md", ⟨["a.md"]⟩⟩, ⟨"/c/a.png", ⟨["a.png"]⟩⟩]
    [page, picture] (by decide +kernel) (by decide +kernel) (by decide +kernel) (by decide +kernel)
    (.rendered (by decide +kernel) rfl (.copied (by decide +kernel) .nil))
  obtain ⟨targets, -, hidden, -⟩ := List.pairwise_pair.mp meets
  refine ⟨fun shared => absurd (targets.mpr (.inl shared)) (by decide +kernel),
    fun shadowed => absurd (hidden.mpr shadowed) (by decide +kernel), ?_⟩
  have clear : page.Clear "/o" picture ∧ picture.Clear "/o" page := by
    refine ⟨⟨?_, ?_⟩, ?_, ?_⟩ <;> decide +kernel
  exact (reorders (List.pairwise_pair.mpr clear) p [picture, page] rfl (.swap ..) (by decide +kernel)).2

/-- A file that is called like another before it has its name, which a page has too. -/
theorem tasks_meet_by_name :
    let tree : FileTree := ⟨[([], .directory), (["c"], .directory), (["c", ".a.html.tmp"], .file [1]),
      (["c", "a.html"], .file [2]), (["c", "a.md"], .file [])]⟩
    let sources : List Source :=
      [⟨"/c/.a.html.tmp", ⟨[".a.html.tmp"]⟩⟩, ⟨"/c/a.html", ⟨["a.html"]⟩⟩, ⟨"/c/a.md", ⟨["a.md"]⟩⟩]
    let hidden := BuildTask.copy ⟨"/c/.a.html.tmp", ⟨[".a.html.tmp"]⟩⟩
    let copied := BuildTask.copy ⟨"/c/a.html", ⟨["a.html"]⟩⟩
    let page := BuildTask.render ⟨"/c/a.md", ⟨["a.md"]⟩⟩ ⟨0, ⟨["a.md"]⟩, []⟩
    let p : Plan :=
      ⟨.root [("layout", .value (.str "page"))], [("page", [.expression (.variable "contentBody")])], "/t", "/o"⟩
    let forth := runTasks p tree [hidden, copied, page]
    let back := runTasks p tree [page, copied, hidden]
    tree.WellFormed ∧ collectSources tree "/o" [] ["/c"] = .ok sources ∧ Chosen sources [hidden, copied, page] ∧
      page.target "/o" = copied.target "/o" ∧ temporaryPath (copied.target "/o") = hidden.target "/o" ∧
      forth.tally = ⟨3, none⟩ ∧ back.tally = ⟨3, none⟩ ∧
      forth.tree.get? ["o", "a.html"] = some (.file []) ∧ back.tree.get? ["o", "a.html"] = some (.file [2]) ∧
      forth.tree.get? ["o", ".a.html.tmp"] = none ∧ back.tree.get? ["o", ".a.html.tmp"] = some (.file [1]) := by
  intro tree sources hidden copied page p forth back
  refine ⟨?_, ?_, .copied ?_ (.copied ?_ (.rendered ?_ rfl .nil)), ?_⟩ <;> decide +kernel

end Folio
