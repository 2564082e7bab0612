import Folio.Proofs.Build.Targets
import Folio.Proofs.SitePath.NormalForm

/-!
# Relative links lead to their targets

A link climbs out of what its source does not share with its target and goes down from there.  The
`..` of the climb take back exactly the names that were not shared, so that the link, read
from the directory of its source, is its target.  A directory that begins with `..` cannot be
climbed out of like this, unless the target begins with these `..` as well.

Main statement: `links_reach_targets`.
-/

namespace Folio

namespace SitePath

variable {p q : SitePath} {names : List String}

/-! ## What two paths share -/

theorem exists_common (as bs : List String) :
    ∃ common, as = common ++ (dropCommon as bs).1 ∧ bs = common ++ (dropCommon as bs).2 := by
  fun_induction dropCommon as bs with
  | case1 as a bs ih =>
    obtain ⟨common, source, target⟩ := ih
    exact ⟨a :: common, congrArg (a :: ·) source, congrArg (a :: ·) target⟩
  | case2 | case3 => exact ⟨[], rfl, rfl⟩

theorem dropCommon_append (common as bs : List String) :
    dropCommon (common ++ as) (common ++ bs) = dropCommon as bs := by
  induction common with
  | nil => rfl
  | cons name common ih => rw [List.cons_append, List.cons_append, dropCommon, if_pos rfl, ih]

/-- All `..` at the beginning are shared if the target has no fewer of them. -/
theorem Normal.straight_up (normal : p.Normal) (fewer : p.climbs ≤ q.climbs) :
    ".." ∉ (dropCommon p.segments q.segments).1 := by
  have shared : q.segments = List.replicate p.climbs ".." ++
      (List.replicate (q.climbs - p.climbs) ".." ++ q.segments.dropWhile (· == "..")) := by
    rw [← List.append_assoc, List.replicate_append_replicate, Nat.add_sub_cancel' fewer, ← segments_eq]
  rw [shared, segments_eq p, dropCommon_append]
  obtain ⟨common, source, -⟩ := exists_common (p.segments.dropWhile (· == ".."))
    (List.replicate (q.climbs - p.climbs) ".." ++ q.segments.dropWhile (· == ".."))
  exact fun up => normal.upFirst (source ▸ List.mem_append_right common up)

/-- A link goes up out of what is not shared and then down, and reads as these steps. -/
theorem exists_steps (normal : p.Normal) (normal' : q.Normal) (fewer : p.directory.climbs ≤ q.climbs) :
    ∃ common up down, p.directory.segments = common ++ up ∧ q.segments = common ++ down ∧ ".." ∉ up ∧
      parse (relative p q) = ofSegments (List.replicate up.length ".." ++ down) := by
  obtain ⟨common, source, target⟩ := exists_common p.directory.segments q.segments
  refine ⟨common, _, _, source, target, normal.directory.straight_up fewer, ?_⟩
  rw [relative]
  generalize dropCommon p.directory.segments q.segments = parts at target ⊢
  obtain ⟨up, down⟩ := parts
  dsimp only at target ⊢
  rw [List.map_const']
  split
  · rename_i here
    rw [here]
    rfl
  · rename_i away
    rw [parse, pieces_intercalate away]
    intro name mem
    obtain climb | below := List.mem_append.mp mem
    · rw [List.eq_of_mem_replicate climb]
      simp [isSeparator]
    · exact (normal'.segment name (target ▸ List.mem_append_right _ below)).flat

/-! ## Going back -/

/-- Climbing takes back as many names. -/
theorem foldl_fold_climb (straight : ".." ∉ names) (stack : List String) :
    (List.replicate names.length "..").foldl fold (names ++ stack) = stack := by
  induction names with
  | nil => rfl
  | cons name names ih =>
    obtain ⟨notUp, straight⟩ := not_or.mp (mt List.mem_cons.mpr straight)
    rw [List.length_cons, List.replicate_succ, List.foldl_cons, List.cons_append, fold_up (Ne.symm notUp), ih straight]

theorem foldl_fold_back (segment : ∀ name ∈ names, Segment name) (straight : ".." ∉ names) (stack : List String) :
    (names ++ List.replicate names.length "..").foldl fold stack = stack := by
  rw [List.foldl_append, foldl_fold_names segment straight, ← List.length_reverse,
    foldl_fold_climb (by simpa using straight)]

theorem join_relative (normal : p.Normal) (normal' : q.Normal) (fewer : p.directory.climbs ≤ q.climbs) :
    p.directory.join (parse (relative p q)) = q := by
  obtain ⟨common, up, down, source, target, straight, read⟩ := exists_steps normal normal' fewer
  have segment : ∀ name ∈ up, Segment name := fun name mem =>
    normal.directory.segment name (source ▸ List.mem_append_right _ mem)
  calc p.directory.join (parse (relative p q))
      = ofSegments (common ++ (up ++ List.replicate up.length "..") ++ down) := by
        rw [read, join, ofSegments_append_right, source]
        simp only [List.append_assoc]
    _ = ofSegments (common ++ down) := by
        rw [ofSegments, List.foldl_append, List.foldl_append, foldl_fold_back segment straight, ← List.foldl_append]
        rfl
    _ = q := by rw [← target, normal'.ofSegments_eq]

theorem climbs_eq_zero (straight : ".." ∉ p.segments) : p.climbs = 0 := by
  rw [climbs, List.length_eq_zero_iff, List.eq_nil_iff_forall_not_mem]
  intro name mem
  obtain rfl : name = ".." := by simpa using List.mem_takeWhile_imp mem
  exact straight ((List.takeWhile_prefix _).subset mem)

end SitePath

/-! ## Links on pages -/

variable {tree : FileTree} {settings : Settings} {r : Reducer} {scope : Scope} {found : Survey} {d : Document}

/-- No page lies above the output directory. -/
theorem climbs_page (formed : tree.WellFormed) (surveyed : survey tree settings r scope = .ok found)
    (rendered : d ∈ found.published) : d.path.directory.climbs = 0 := by
  obtain ⟨sources, collected, chosen⟩ := survey_chosen surveyed
  obtain ⟨t, task, document⟩ := List.mem_filterMap.mp rendered
  obtain ⟨-, same⟩ := chosen.suits t task d document
  have mem : t.source ∈ sources := chosen.sublist.subset (List.mem_map_of_mem task)
  obtain none | ⟨root, -, here, listed, mem⟩ := mem_of_collectSources collected mem
  · contradiction
  obtain ⟨names, relative, plain, -⟩ :=
    names_of_sourcesIn (fun node known name mem => (formed.named node known name mem).1) listed mem
  rw [Document.path, same, relative]
  refine SitePath.climbs_eq_zero fun up => ?_
  exact (plain_page plain ".." (List.mem_of_mem_dropLast up)).notUp rfl

/-! ## Main statement -/

open SitePath (parse relative)

/-- A link that is read from the directory of its source is its target, if this directory begins with no
more `..` than the target.  The directory of a page begins with none. -/
theorem links_reach_targets :
    (∀ s t : String, (parse s).directory.climbs ≤ (parse t).climbs →
      (parse s).directory.join (parse (relative (parse s) (parse t))) = parse t) ∧
    ∀ (tree : FileTree) (settings : Settings) (r : Reducer) (scope : Scope) (found : Survey), tree.WellFormed →
      survey tree settings r scope = .ok found → ∀ d ∈ found.published, d.path.directory.climbs = 0 :=
  ⟨fun s t => SitePath.join_relative (SitePath.normal_parse s) (SitePath.normal_parse t),
    fun _ _ _ _ _ formed surveyed _ => climbs_page formed surveyed⟩

/-- Out of two directories that are not shared, and from a page to the directory above its own. -/
theorem links_reach_targets_above :
    let tree : FileTree := ⟨[([], .directory), (["c"], .directory), (["c", "b"], .directory),
      (["c", "b", "a.md"], .file [])]⟩
    let settings : Settings := { Settings.default with build := ⟨some "/", ["/c"], "/o", "/t", false⟩ }
    let pages := (survey tree settings (Reducer.ofTools Builtin.toolbox false) (.root [])).map
      fun found => found.published.map Document.path
    (parse "../x/y/i.html").directory.climbs = 1 ∧ (parse "../../z").climbs = 2 ∧
      relative (parse "../x/y/i.html") (parse "../../z") = "../../../z" ∧
      (parse "../x/y").join (parse "../../../z") = parse "../../z" ∧
      pages = .ok [parse "b/a.html"] ∧ (parse "b/a.html").directory.climbs = 0 ∧
      relative (parse "b/a.html") (parse "") = ".." ∧ (parse "b").join (parse "..") = parse "" := by
  intro tree settings pages
  obtain ⟨leads, level⟩ := links_reach_targets
  have made : pages = .ok [parse "b/a.html"] := by decide +kernel
  have below : (parse "b/a.html").directory.climbs = 0 := by
    cases surveyed : survey tree settings (Reducer.ofTools Builtin.toolbox false) (.root []) with
    | error failure => simp [pages, surveyed, Except.map] at made
    | ok found =>
      have paths : found.published.map Document.path = [parse "b/a.html"] := by
        simpa [pages, surveyed, Except.map] using made
      obtain ⟨d, rendered, path⟩ := List.mem_map.mp (paths ▸ List.mem_singleton_self _)
      exact path ▸ level tree settings _ _ found (by decide +kernel) surveyed d rendered
  exact ⟨by decide +kernel, by decide +kernel, by decide +kernel,
    leads "../x/y/i.html" "../../z" (by decide +kernel), made, below, by decide +kernel,
    leads "b/a.html" "" (below ▸ Nat.zero_le _)⟩

end Folio
