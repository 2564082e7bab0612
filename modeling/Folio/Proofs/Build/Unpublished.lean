import Folio.Proofs.Build.InTurn
import Folio.Proofs.Build.Matching
import Folio.Proofs.Build.Outcomes

/-!
# Documents that are not published

A build reads the header of every document, also of one that is not published.  The header says no
more than that; it leaves no trace in what is made, and the rest of the document is not even read.  So
two sites that differ only in such documents are built alike.

Main statement: `drafts_invisible`.
-/

namespace Folio

open Calendar (Timestamp)
open FileTree (Matches placeOf)

variable {a b tree : FileTree} {free : Place → Prop} {settings : Settings} {now : Timestamp} {place : Place}
  {sources : List Source} {readings others : List Reading} {r : Reducer} {s : Scope} {tasks : List BuildTask}

/-! ## Trees that differ in contents -/

namespace FileTree

/-- The same node at the same place, or two files at a place where they are free to differ. -/
inductive Differs (free : Place → Prop) : Place × FileNode → Place × FileNode → Prop where
  | same (node : Place × FileNode) : Differs free node node
  | contents {place : Place} (there : free place) (x y : List UInt8) :
      Differs free (place, .file x) (place, .file y)

/-- The trees have the same places, and they differ only in the contents of files at such places. -/
def DiffersOnly (free : Place → Prop) (a b : FileTree) : Prop :=
  List.Forall₂ (Differs free) a.nodes b.nodes

namespace DiffersOnly

theorem matching (differs : DiffersOnly free a b) : Matches (fun place _ _ => free place) a b := by
  obtain ⟨nodes⟩ := a
  obtain ⟨others⟩ := b
  intro place
  simp only [DiffersOnly] at differs
  induction differs with
  | nil => exact .inl rfl
  | @cons m n nodes others first rest ih =>
    cases first with
    | same =>
      rw [get?_cons, get?_cons]
      split
      · exact .inl rfl
      · exact ih
    | @contents here there x y =>
      rw [get?_cons, get?_cons]
      split
      · rename_i same
        exact .inr ⟨x, y, rfl, rfl, same ▸ there⟩
      · exact ih

theorem eq (differs : DiffersOnly free a b) (nowhere : ∀ place, ¬ free place) : a = b := by
  have same : ∀ m n, Differs free m n → m = n := by
    rintro m n (_ | ⟨there, x, y⟩)
    · rfl
    · exact absurd there (nowhere _)
  obtain ⟨nodes⟩ := a
  obtain ⟨others⟩ := b
  exact congrArg FileTree.mk (List.forall₂_eq_eq_eq ▸ differs.imp same)

theorem remove (differs : DiffersOnly free a b) (place : Place) :
    DiffersOnly free (a.remove place) (b.remove place) := by
  refine List.rel_filter (fun m n related => ?_) differs
  cases related <;> exact Iff.rfl

/-- What is found in the nodes is the same if it does not depend on contents. -/
theorem filterMap_eq {α : Type} {f : Place × FileNode → Option α} (differs : DiffersOnly free a b)
    (shallow : ∀ m n, Differs free m n → f m = f n) : a.nodes.filterMap f = b.nodes.filterMap f := by
  obtain ⟨nodes⟩ := a
  obtain ⟨others⟩ := b
  simp only [DiffersOnly] at differs ⊢
  induction differs with
  | nil => rfl
  | cons first rest ih => rw [List.filterMap_cons, List.filterMap_cons, shallow _ _ first, ih]

theorem filesIn (differs : DiffersOnly free a b) (directory : String) (excluded : Option String) :
    a.filesIn directory excluded = b.filesIn directory excluded := by
  rw [FileTree.filesIn, FileTree.filesIn, differs.matching.resolve]
  cases b.resolve [] directory with
  | error fault => rfl
  | ok place =>
    have itself : ((a.get? place).toList.map fun node => (([] : Place), node)).filterMap (foundFile? directory excluded) =
        ((b.get? place).toList.map fun node => (([] : Place), node)).filterMap (foundFile? directory excluded) := by
      obtain same | ⟨x, y, left, right, -⟩ := differs.matching place
      · rw [same]
      · rw [left, right]
        rfl
    have below : (a.below place).filterMap (foundFile? directory excluded) =
        (b.below place).filterMap (foundFile? directory excluded) := by
      rw [FileTree.below, FileTree.below, List.filterMap_filterMap, List.filterMap_filterMap]
      refine differs.filterMap_eq fun m n related => ?_
      cases related with
      | same => rfl
      | contents there x y =>
        dsimp only
        split <;> rfl
    simp only [List.filterMap_append, itself, below]

theorem collectSources (differs : DiffersOnly free a b) (output : String) (roots : List String) (known : List Source) :
    collectSources a output known roots = collectSources b output known roots := by
  induction roots generalizing known with
  | nil => rfl
  | cons root roots ih => simp only [Folio.collectSources, sourcesIn, differs.filesIn, ih]

end DiffersOnly

end FileTree

open FileTree (DiffersOnly)

/-! ## Readings -/

/-- All sources of a site, with the documents that they hold. -/
def readSources (tree : FileTree) (settings : Settings) : Except Failure (List Reading) := do
  let sources ← collectSources tree settings.build.output [] settings.build.content
  readHeaders tree 0 sources

theorem survey_eq (tree : FileTree) (settings : Settings) (r : Reducer) (s : Scope) :
    survey tree settings r s = readSources tree settings >>= fun readings =>
      Failure.ofEval (tasksOf r s readings) >>= fun tasks =>
        .ok ⟨readings.countP (·.document.isSome), tasks⟩ := by
  rw [survey, readSources]
  cases collectSources tree settings.build.output [] settings.build.content <;> rfl

def Reading.IsDraft (settings : Settings) (now : Timestamp) (reading : Reading) : Prop :=
  ∃ d ∈ reading.document, d.published (Reducer.ofTools Builtin.toolbox false) (settings.siteScope now) = pure false

instance (reading : Reading) : Decidable (reading.IsDraft settings now) :=
  inferInstanceAs (Decidable (∃ d ∈ reading.document, _))

/-- What is read at the place are documents, none of which is published. -/
def DraftAt (tree : FileTree) (settings : Settings) (now : Timestamp) (place : Place) : Prop :=
  ∃ readings, readSources tree settings = .ok readings ∧
    (∃ reading ∈ readings, placeOf reading.source.physical = place) ∧
    ∀ reading ∈ readings, placeOf reading.source.physical = place → reading.IsDraft settings now

instance : Decidable (DraftAt tree settings now place) :=
  match read : readSources tree settings with
  | .ok readings =>
    decidable_of_iff ((∃ reading ∈ readings, placeOf reading.source.physical = place) ∧
        ∀ reading ∈ readings, placeOf reading.source.physical = place → reading.IsDraft settings now)
      ⟨fun drafts => ⟨readings, read, drafts⟩, fun ⟨_, again, drafts⟩ => Except.ok.inj (read.symm.trans again) ▸ drafts⟩
  | .error _ => isFalse fun ⟨_, again, _⟩ => nomatch read.symm.trans again

theorem isDocument_of_readHeaders {id : ℕ} (read : readHeaders tree id sources = .ok readings) :
    ∀ reading ∈ readings, ∀ d, reading.document = some d → reading.source.isDocument = true := by
  induction sources generalizing id readings with
  | nil =>
    cases read
    exact List.forall_mem_nil _
  | cons source sources ih =>
    rw [readHeaders] at read
    split at read
    · rename_i document
      obtain ⟨header, -, read⟩ := Failure.bind_eq_ok_iff.1 read
      obtain ⟨rest, below, read⟩ := Failure.bind_eq_ok_iff.1 read
      cases read
      exact List.forall_mem_cons.2 ⟨fun _ _ => document, ih below⟩
    · obtain ⟨rest, below, read⟩ := Failure.bind_eq_ok_iff.1 read
      cases read
      refine List.forall_mem_cons.2 ⟨fun d none => ?_, ih below⟩
      cases none

theorem DraftAt.extension (draft : DraftAt tree settings now place) {path : String} {extension : String}
    (here : placeOf path = place) (found : FilePath.extension? path = some extension) :
    extension = documentExtension := by
  obtain ⟨readings, read, ⟨reading, mem, lies⟩, drafts⟩ := draft
  obtain ⟨d, document, -⟩ := drafts reading mem lies
  obtain ⟨sources, -, read⟩ := Failure.bind_eq_ok_iff.1 read
  have isDocument := isDocument_of_readHeaders read reading mem d document
  rw [Source.isDocument, beq_iff_eq] at isDocument
  exact FileTree.extension_eq_of_placeOf (here.trans lies.symm) found isDocument

/-- Headers that are read in both trees are the same, except where the trees may differ. -/
theorem readHeaders_matches (matching : Matches (fun place _ _ => free place) a b) {id : ℕ}
    (read : readHeaders a id sources = .ok readings) (read' : readHeaders b id sources = .ok others) :
    List.Forall₂ (fun m n => m = n ∨ m.source = n.source ∧ free (placeOf m.source.physical)) readings others := by
  induction sources generalizing id readings others with
  | nil =>
    cases read
    cases read'
    exact .nil
  | cons source sources ih =>
    rw [readHeaders] at read read'
    split at read
    · rename_i document
      rw [if_pos document] at read'
      obtain ⟨header, opened, read⟩ := Failure.bind_eq_ok_iff.1 read
      obtain ⟨rest, below, read⟩ := Failure.bind_eq_ok_iff.1 read
      obtain ⟨header', opened', read'⟩ := Failure.bind_eq_ok_iff.1 read'
      obtain ⟨rest', below', read'⟩ := Failure.bind_eq_ok_iff.1 read'
      cases read
      cases read'
      refine .cons ?_ (ih below below')
      by_cases differs : free (placeOf source.physical)
      · exact .inr ⟨rfl, differs⟩
      · have here : a.get? (placeOf source.physical) = b.get? (placeOf source.physical) :=
          matching.same fun _ _ => differs
        rw [readHeaderOf, matching.readFile here] at opened
        rw [readHeaderOf] at opened'
        obtain rfl := Except.ok.inj (opened.symm.trans opened')
        exact .inl rfl
    · rename_i asset
      rw [if_neg asset] at read'
      obtain ⟨rest, below, read⟩ := Failure.bind_eq_ok_iff.1 read
      obtain ⟨rest', below', read'⟩ := Failure.bind_eq_ok_iff.1 read'
      cases read
      cases read'
      exact .cons (.inl rfl) (ih below below')

/-! ## Tasks -/

/-- Drafts give no tasks, whatever they say. -/
theorem tasksOf_congr {settings : Settings} {now : Timestamp}
    (alike : List.Forall₂ (fun m n => m = n ∨ m.IsDraft settings now ∧ n.IsDraft settings now) readings others) :
    tasksOf (Reducer.ofTools Builtin.toolbox false) (settings.siteScope now) readings =
        tasksOf (Reducer.ofTools Builtin.toolbox false) (settings.siteScope now) others ∧
      readings.countP (·.document.isSome) = others.countP (·.document.isSome) := by
  induction alike with
  | nil => exact ⟨rfl, rfl⟩
  | @cons m n readings others first rest ih =>
    obtain ⟨tasks, count⟩ := ih
    obtain rfl | ⟨⟨d, document, hidden⟩, d', document', hidden'⟩ := first
    · refine ⟨?_, by rw [List.countP_cons, List.countP_cons, count]⟩
      obtain ⟨source, _ | document⟩ := m <;> simp only [tasksOf, tasks]
    · obtain ⟨source, _⟩ := m
      obtain ⟨source', _⟩ := n
      cases document
      cases document'
      refine ⟨?_, by rw [List.countP_cons, List.countP_cons, count]; rfl⟩
      simp only [tasksOf, hidden, hidden', tasks, pure_bind, Bool.false_eq_true, if_false]

/-- A task is for a source that is no document or one that is published. -/
theorem exists_reading_of_tasksOf (made : tasksOf r s readings = pure tasks) :
    ∀ t ∈ tasks, ∃ reading ∈ readings, reading.source = t.source ∧
      ∀ d, reading.document = some d → d.published r s = pure true := by
  induction readings generalizing tasks with
  | nil =>
    obtain rfl := Eval.pure_inj.1 made
    exact nofun
  | cons reading readings ih =>
    have onward : ∀ {more}, tasksOf r s readings = pure more → ∀ t ∈ more, ∃ m ∈ reading :: readings,
        m.source = t.source ∧ ∀ d, m.document = some d → d.published r s = pure true := by
      intro more others t mem
      obtain ⟨m, known, rest⟩ := ih others t mem
      exact ⟨m, List.mem_cons_of_mem _ known, rest⟩
    obtain ⟨source, _ | document⟩ := reading
    · obtain ⟨more, others, made⟩ := Eval.bind_eq_pure_iff.1 made
      obtain rfl := Eval.pure_inj.1 made
      exact List.forall_mem_cons.2 ⟨⟨_, List.mem_cons_self, rfl, nofun⟩, onward others⟩
    · obtain ⟨published, known, made⟩ := Eval.bind_eq_pure_iff.1 made
      obtain ⟨more, others, made⟩ := Eval.bind_eq_pure_iff.1 made
      obtain rfl := Eval.pure_inj.1 made
      cases published with
      | false => exact onward others
      | true =>
        refine List.forall_mem_cons.2 ⟨⟨_, List.mem_cons_self, rfl, ?_⟩, onward others⟩
        rintro d ⟨⟩
        exact known

/-- No task is for a draft. -/
theorem Builds.not_draftAt {t : BuildTask} (builds : Builds tree settings now t) :
    ¬ DraftAt tree settings now (placeOf t.source.physical) := by
  intro draft
  obtain ⟨found, surveyed, mem⟩ := builds
  obtain ⟨readings, read, -, drafts⟩ := draft
  rw [survey_eq] at surveyed
  obtain ⟨others, read', surveyed⟩ := Failure.bind_eq_ok_iff.1 surveyed
  obtain rfl := Except.ok.inj (read.symm.trans read')
  obtain ⟨tasks, made, surveyed⟩ := Failure.bind_eq_ok_iff.1 surveyed
  cases surveyed
  obtain ⟨reading, known, source, unlessHidden⟩ :=
    exists_reading_of_tasksOf (Failure.eq_pure_of_ofEval made) t mem
  obtain ⟨d, document, hidden⟩ := drafts reading known (by rw [source])
  have published := unlessHidden d document
  rw [hidden] at published
  cases Eval.pure_inj.1 published

/-! ## Builds -/

/-- A place at which there is a draft in both trees. -/
def Hidden (a b : FileTree) (settings : Settings) (now : Timestamp) (place : Place) : Prop :=
  DraftAt a settings now place ∧ DraftAt b settings now place

/-- Contents that are free to differ and are still there; not where a task of a build writes that
succeeds. -/
structure Spared (free : Place → Prop) (a b : FileTree) (output : String) (tasks : BuildTask → Prop)
    (result : Except Failure ℕ) (place : Place) (x y : List UInt8) : Prop where
  differs : free place
  left : a.get? place = some (.file x)
  right : b.get? place = some (.file y)
  unwritten : ∀ count, result = .ok count → ∀ t, tasks t → place ≠ placeOf (t.target output)

theorem FileTree.DiffersOnly.contents (differs : DiffersOnly free a b) :
    Matches (fun place x y => free place ∧ a.get? place = some (.file x) ∧ b.get? place = some (.file y)) a b :=
  fun place => (differs.matching place).imp_right fun ⟨x, y, left, right, there⟩ => ⟨x, y, left, right, there, left, right⟩

/-- A build that fails before its first task spares everything. -/
theorem FileTree.DiffersOnly.spared {output : String} {tasks : BuildTask → Prop} (differs : DiffersOnly free a b)
    (failure : Failure) : Matches (Spared free a b output tasks (.error failure)) a b :=
  differs.contents.mono fun _ _ _ related => ⟨related.1, related.2.1, related.2.2, fun _ fine => nomatch fine⟩

section Builds

variable (differs : DiffersOnly (Hidden a b settings now) a b)

include differs

theorem survey_congr_of_drafts :
    survey a settings (Reducer.ofTools Builtin.toolbox false) (settings.siteScope now) =
      survey b settings (Reducer.ofTools Builtin.toolbox false) (settings.siteScope now) := by
  -- One hidden place is enough for all headers to be readable in both trees; without any the trees are equal.
  by_cases somewhere : ∃ place, Hidden a b settings now place
  · obtain ⟨place, ⟨readings, read, -⟩, others, read', -⟩ := somewhere
    obtain ⟨sources, collected, headers⟩ := Failure.bind_eq_ok_iff.1 read
    obtain ⟨sources', collected', headers'⟩ := Failure.bind_eq_ok_iff.1 read'
    rw [← differs.collectSources, collected] at collected'
    obtain rfl := Except.ok.inj collected'
    have related := readHeaders_matches differs.matching headers headers'
    have alike : List.Forall₂ (fun m n => m = n ∨ m.IsDraft settings now ∧ n.IsDraft settings now) readings others := by
      refine (List.forall₂_iff_zip.1 related).elim fun lengths pairs => List.forall₂_iff_zip.2 ⟨lengths, ?_⟩
      intro m n both
      refine (pairs both).imp_right fun ⟨source, hidden⟩ => ?_
      obtain ⟨⟨readings', again, -, drafts⟩, ⟨others', again', -, drafts'⟩⟩ := hidden
      obtain rfl := Except.ok.inj (read.symm.trans again)
      obtain rfl := Except.ok.inj (read'.symm.trans again')
      obtain ⟨left, right⟩ := List.of_mem_zip both
      exact ⟨drafts m left rfl, drafts' n right (by rw [source])⟩
    obtain ⟨tasks, count⟩ := tasksOf_congr alike
    rw [survey_eq, survey_eq, read, read']
    change Failure.ofEval (tasksOf _ _ readings) >>= _ = Failure.ofEval (tasksOf _ _ others) >>= _
    rw [tasks, count]
  · rw [differs.eq fun place hidden => somewhere ⟨place, hidden⟩]

theorem plan_congr_of_drafts (r : Reducer) (s : Scope) (documents : List Document) :
    plan a settings r s documents = plan b settings r s documents := by
  have layout : ∀ path, FilePath.extension? path = some layoutExtension → a.readFile [] path = b.readFile [] path := by
    intro path extension
    refine differs.matching.readFile (differs.matching.same fun _ _ hidden => ?_)
    exact absurd (hidden.1.extension rfl extension) (by decide)
  have layouts : ∀ known files, readLayouts a known files = readLayouts b known files := by
    intro known files
    induction files generalizing known with
    | nil => rfl
    | cons file files ih =>
      rw [readLayouts, readLayouts]
      split
      · rename_i extension
        simp only [readLayout, layout file.path (by simpa using extension), ih]
      · exact ih known
  have directory : a.isDirectory [] settings.build.templates = b.isDirectory [] settings.build.templates := by
    simp only [FileTree.isDirectory, differs.matching.resolve, differs.matching.isDirectoryAt]
  simp only [plan, loadLayouts, directory, differs.filesIn, layouts]

/-- Under every schedule, what may be different after the builds is a draft that no task has written over. -/
theorem buildFromWith_congr_of_drafts (events : List BuildEvent) :
    Option.Rel (fun left right : BuildOutcome => left.result = right.result ∧ left.generated = right.generated ∧
        left.messages = right.messages ∧
        Matches (Spared (Hidden a b settings now) a b settings.build.output (Builds a settings now) left.result)
          left.tree right.tree)
      (buildFromWith (runTasksBy events) a settings now) (buildFromWith (runTasksBy events) b settings now) := by
  simp only [buildFromWith, ← survey_congr_of_drafts differs, ← plan_congr_of_drafts differs]
  cases surveyed : survey a settings (Reducer.ofTools Builtin.toolbox false) (settings.siteScope now) with
  | error failure => exact .some ⟨rfl, rfl, rfl, differs.spared failure⟩
  | ok found =>
    dsimp only
    cases planned : plan a settings (Reducer.ofTools Builtin.toolbox false) (settings.siteScope now)
        found.published with
    | error failure => exact .some ⟨rfl, rfl, rfl, differs.spared failure⟩
    | ok p =>
      have builds : ∀ t, Builds a settings now t ↔ t ∈ found.tasks := fun t => builds_iff surveyed t
      have sources : ∀ t ∈ found.tasks, ∀ x y, ¬ (Hidden a b settings now (placeOf t.source.physical) ∧
          a.get? (placeOf t.source.physical) = some (.file x) ∧ b.get? (placeOf t.source.physical) = some (.file y)) :=
        fun t mem _ _ hidden => ((builds t).2 mem).not_draftAt hidden.1.1
      have done := matches_runTasksBy (p := p) sources differs.contents events
      dsimp only
      generalize runTasksBy events p a found.tasks = left at done
      generalize runTasksBy events p b found.tasks = right at done
      cases done with
      | none => exact .none
      | some alike =>
        obtain ⟨generated, tally, after⟩ := alike
        refine .some ⟨congrArg Tally.result tally, generated, rfl, after.mono fun place x y related => ?_⟩
        obtain ⟨⟨hidden, left, right⟩, written⟩ := related
        refine ⟨hidden, left, right, fun count fine t task => ?_⟩
        rw [← output_of_plan planned]
        exact written (Tally.result_eq_ok_iff.1 fine).1 t ((builds t).1 task)

end Builds

theorem cleaned_differs (differs : DiffersOnly free a b) (settings : Settings) :
    DiffersOnly free (settings.cleaned a) (settings.cleaned b) := by
  have cleans : settings.cleans a = settings.cleans b := by
    simp only [Settings.cleans, FileTree.isDirectory, differs.matching.resolve, differs.matching.isDirectoryAt]
  rw [Settings.cleaned, Settings.cleaned, cleans]
  split
  · exact differs.remove _
  · exact differs

/-- Cleaning is refused in both trees, for the same reason, or in none. -/
theorem cleanOutput_congr (differs : DiffersOnly free a b) (settings : Settings) :
    (∃ failure, cleanOutput a settings = .error failure ∧ cleanOutput b settings = .error failure) ∨
      cleanOutput a settings = .ok (settings.cleaned a) ∧ cleanOutput b settings = .ok (settings.cleaned b) := by
  have same : (cleanOutput a settings).map (fun _ => ()) = (cleanOutput b settings).map fun _ => () := by
    have resolved := differs.matching.resolve settings.build.output
    cases reached : b.resolve [] settings.build.output with
    | error fault =>
      simp [cleanOutput, FileTree.pathExists, Except.toOption, Except.map, resolved, reached]
    | ok place =>
      have directory := differs.matching.isDirectoryAt place
      cases clean : settings.build.clean <;> cases here : b.isDirectoryAt place <;>
        simp [cleanOutput, FileTree.pathExists, FileTree.removeDirectory, Except.toOption, Except.map, resolved, reached,
          directory, clean, here]
  obtain cleaned | ⟨⟨failure, refused⟩, -⟩ := cleanOutput_spec a settings <;>
    obtain cleaned' | ⟨⟨failure', refused'⟩, -⟩ := cleanOutput_spec b settings
  · exact .inr ⟨cleaned, cleaned'⟩
  · rw [cleaned, refused'] at same
    cases same
  · rw [refused, cleaned'] at same
    cases same
  · rw [refused, refused'] at same
    obtain rfl := Except.error.inj same
    exact .inl ⟨failure, refused, refused'⟩

/-! ## Main statement -/

/-- There is a draft at the place, which both builds have left as it was; it is not where a file was to be
written if they succeed. -/
structure LeftAlone (a b : FileTree) (settings : Settings) (now : Timestamp) (left right : BuildOutcome) (place : Place) :
    Prop where
  hidden : Hidden (settings.cleaned a) (settings.cleaned b) settings now place
  first : left.tree.get? place = a.get? place
  second : right.tree.get? place = b.get? place
  unwritten : ∀ count, left.result = .ok count → ∀ t, Builds (settings.cleaned a) settings now t →
    place ≠ placeOf (t.target settings.build.output)

/-- Builds under one schedule come out alike. -/
theorem buildBy_congr_of_drafts (differs : DiffersOnly (Hidden (settings.cleaned a) (settings.cleaned b) settings now) a b)
    (canceled : Bool) (events : List BuildEvent) :
    Option.Rel (fun left right : BuildOutcome => left.result = right.result ∧ left.generated = right.generated ∧
        left.messages = right.messages ∧
        ∀ place, left.tree.get? place = right.tree.get? place ∨ LeftAlone a b settings now left right place)
      (buildBy events a settings now canceled) (buildBy events b settings now canceled) := by
  have alone : ∀ {left right : BuildOutcome}, Matches (Spared (Hidden (settings.cleaned a) (settings.cleaned b) settings now) a b
      settings.build.output (Builds (settings.cleaned a) settings now) left.result) left.tree right.tree →
      ∀ place, left.tree.get? place = right.tree.get? place ∨ LeftAlone a b settings now left right place := by
    intro left right matching place
    refine (matching place).imp_right fun ⟨x, y, there, there', spared⟩ => ?_
    exact ⟨spared.differs, there.trans spared.left.symm, there'.trans spared.right.symm, spared.unwritten⟩
  simp only [buildBy, buildWith]
  cases canceled with
  | true => exact .some ⟨rfl, rfl, rfl, alone (differs.spared _)⟩
  | false =>
    simp only [Bool.false_eq_true, if_false]
    obtain ⟨failure, refused, refused'⟩ | ⟨cleaned, cleaned'⟩ := cleanOutput_congr differs settings
    · rw [refused, refused']
      exact .some ⟨rfl, rfl, rfl, alone (differs.spared failure)⟩
    · rw [cleaned, cleaned']
      have both := buildFromWith_congr_of_drafts (cleaned_differs differs settings) events
      dsimp only
      generalize buildFromWith (runTasksBy events) (settings.cleaned a) settings now = left at both
      generalize buildFromWith (runTasksBy events) (settings.cleaned b) settings now = right at both
      cases both with
      | none => exact .none
      | some alike =>
        obtain ⟨result, generated, messages, after⟩ := alike
        refine .some ⟨result, generated, messages, alone (after.mono fun place x y spared => ?_)⟩
        exact ⟨spared.differs, get?_of_cleaned spared.left, get?_of_cleaned spared.right, spared.unwritten⟩

end Folio
