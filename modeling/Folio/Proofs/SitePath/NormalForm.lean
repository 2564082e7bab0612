import Mathlib.Data.List.Induction
import Mathlib.Data.List.TakeWhile
import Mathlib.Tactic
import Folio.Proofs.FilePath
import Folio.Proofs.SitePath

/-!
# Paths in normal form

To fold segments is to cancel each `..` against the name before it.  It does not matter where the
cancelling begins: what is left of some segments does to the others what the segments would
have done.  So joining paths is associative, and to join is to read one text after the other.

Main statement: `paths_form_monoid`.
-/

namespace Folio.SitePath

variable {p q : SitePath} {name last : String} {names segments reversed stack : List String}

/-! ## Normal forms -/

/-- What can stand between the separators of a path in normal form. -/
structure Segment (name : String) : Prop where
  present : name ≠ ""
  notHere : name ≠ "."
  flat : ∀ c ∈ name.toList, isSeparator c = false

/-- There are names between the separators, and only the first of them are `..`. -/
structure Normal (p : SitePath) : Prop where
  segment : ∀ name ∈ p.segments, Segment name
  upFirst : ".." ∉ p.segments.dropWhile (· == "..")

def climbs (p : SitePath) : ℕ :=
  (p.segments.takeWhile (· == "..")).length

theorem segments_eq (p : SitePath) :
    p.segments = List.replicate p.climbs ".." ++ p.segments.dropWhile (· == "..") := by
  have ups : p.segments.takeWhile (· == "..") = List.replicate p.climbs ".." :=
    List.eq_replicate_iff.mpr ⟨rfl, fun _ mem => by simpa using List.mem_takeWhile_imp mem⟩
  rw [← ups, List.takeWhile_append_dropWhile]

theorem upFirst_append (below : ".." ∉ names) (ups : ℕ) :
    ".." ∉ (List.replicate ups ".." ++ names).dropWhile (· == "..") := by
  rw [List.dropWhile_append_of_pos (by simp)]
  exact fun mem => below ((List.dropWhile_suffix _).subset mem)

/-! ## Folding one segment -/

/-- A segment vanishes, is put at the end, or takes back a name. -/
theorem fold_cases (reversed : List String) (name : String) :
    (fold reversed name = reversed ∧ (name = "" ∨ name = ".")) ∨
    (fold reversed name = name :: reversed ∧ name ≠ "" ∧ name ≠ "." ∧
      (name = ".." → ∀ last ∈ reversed.head?, last = "..")) ∨
    (name = ".." ∧ ∃ last, last ≠ ".." ∧ reversed = last :: fold reversed name) := by
  by_cases nothing : name = "" ∨ name = "."
  · exact .inl ⟨if_pos nothing, nothing⟩
  obtain ⟨present, notHere⟩ := not_or.mp nothing
  rw [fold.eq_def, if_neg nothing]
  by_cases up : name = ".."
  · rw [if_pos up]
    cases reversed with
    | nil => exact .inr (.inl ⟨rfl, present, notHere, by simp⟩)
    | cons last rest =>
      dsimp only
      split
      · rename_i above
        exact .inr (.inl ⟨rfl, present, notHere, by simp [above]⟩)
      · rename_i notUp
        exact .inr (.inr ⟨up, last, notUp, rfl⟩)
  · rw [if_neg up]
    exact .inr (.inl ⟨rfl, present, notHere, fun same => absurd same up⟩)

theorem fold_name (present : name ≠ "") (notHere : name ≠ ".") (notUp : name ≠ "..") (reversed : List String) :
    fold reversed name = name :: reversed := by
  simp [fold, present, notHere, notUp]

theorem fold_up (notUp : last ≠ "..") (reversed : List String) : fold (last :: reversed) ".." = reversed := by
  simp [fold, notUp]

theorem fold_up_up (ups : ℕ) : fold (List.replicate ups "..") ".." = List.replicate (ups + 1) ".." := by
  cases ups <;> simp [fold, List.replicate_succ]

/-! ## Folding many -/

theorem mem_foldl_fold (mem : name ∈ segments.foldl fold reversed) :
    name ∈ reversed ∨ (name ∈ segments ∧ name ≠ "" ∧ name ≠ ".") := by
  induction segments using List.reverseRecOn with
  | nil => exact .inl mem
  | append_singleton before latest ih =>
    rw [List.foldl_append, List.foldl_cons, List.foldl_nil] at mem
    have earlier : name ∈ before.foldl fold reversed →
        name ∈ reversed ∨ (name ∈ before ++ [latest] ∧ name ≠ "" ∧ name ≠ ".") := fun mem =>
      (ih mem).imp_right fun ⟨mem, proper⟩ => ⟨List.mem_append_left _ mem, proper⟩
    obtain ⟨same, -⟩ | ⟨put, present, notHere, -⟩ | ⟨-, last, -, taken⟩ :=
      fold_cases (before.foldl fold reversed) latest
    · exact earlier (same ▸ mem)
    · rw [put] at mem
      obtain rfl | mem := List.mem_cons.mp mem
      · exact .inr ⟨by simp, present, notHere⟩
      · exact earlier mem
    · exact earlier (taken ▸ List.mem_cons_of_mem _ mem)

/-- What is left of segments does what the segments do. -/
theorem foldl_fold_reverse (segments stack : List String) :
    (segments.foldl fold []).reverse.foldl fold stack = segments.foldl fold stack := by
  induction segments using List.reverseRecOn with
  | nil => rfl
  | append_singleton before latest ih =>
    rw [List.foldl_append, List.foldl_cons, List.foldl_nil, List.foldl_append, List.foldl_cons, List.foldl_nil, ← ih]
    obtain ⟨same, nothing⟩ | ⟨put, -⟩ | ⟨rfl, last, notUp, taken⟩ := fold_cases (before.foldl fold []) latest
    · rw [same, show ∀ stack, fold stack latest = stack from fun _ => if_pos nothing]
    · rw [put, List.reverse_cons, List.foldl_append, List.foldl_cons, List.foldl_nil]
    · -- The name that is taken back is a proper one, so it is there to be taken back in both.
      have proper : last ≠ "" ∧ last ≠ "." := by
        have mem : last ∈ before.foldl fold [] := taken ▸ List.mem_cons_self
        simpa using ((mem_foldl_fold mem).resolve_left (by simp)).2
      generalize before.foldl fold [] = above at taken ⊢
      generalize fold above ".." = rest at taken ⊢
      rw [taken, List.reverse_cons, List.foldl_append, List.foldl_cons, List.foldl_nil,
        fold_name proper.1 proper.2 notUp, fold_up notUp]

theorem upFirst_foldl (segments : List String) :
    ∃ ups below, segments.foldl fold [] = below ++ List.replicate ups ".." ∧ ".." ∉ below := by
  induction segments using List.reverseRecOn with
  | nil => exact ⟨0, [], rfl, by simp⟩
  | append_singleton before latest ih =>
    obtain ⟨ups, below, folded, straight⟩ := ih
    rw [List.foldl_append, List.foldl_cons, List.foldl_nil, folded]
    obtain ⟨same, -⟩ | ⟨put, -, -, climbing⟩ | ⟨rfl, last, notUp, taken⟩ :=
      fold_cases (below ++ List.replicate ups "..") latest
    · exact ⟨ups, below, same, straight⟩
    · rw [put]
      by_cases up : latest = ".."
      · -- No name stands before this `..`.
        obtain rfl : below = [] := by
          cases below with
          | nil => rfl
          | cons last below => exact absurd (climbing up last rfl ▸ List.mem_cons_self) straight
        exact ⟨ups + 1, [], by rw [up, List.replicate_succ, List.nil_append, List.nil_append], by simp⟩
      · exact ⟨ups, latest :: below, rfl, by simp [straight, Ne.symm up]⟩
    · cases below with
      | nil =>
        have up : last ∈ List.replicate ups ".." := by
          rw [List.nil_append] at taken
          exact taken ▸ List.mem_cons_self
        exact absurd (List.eq_of_mem_replicate up) notUp
      | cons name below =>
        rw [List.cons_append, List.cons_eq_cons] at taken
        exact ⟨ups, below, taken.2.symm, fun mem => straight (List.mem_cons_of_mem _ mem)⟩

/-! ## Paths of segments -/

theorem normal_ofSegments (flat : ∀ name ∈ segments, ∀ c ∈ name.toList, isSeparator c = false) :
    (ofSegments segments).Normal := by
  constructor
  · intro name mem
    obtain ⟨mem, present, notHere⟩ := (mem_foldl_fold (List.mem_reverse.mp mem)).resolve_left (by simp)
    exact ⟨present, notHere, flat name mem⟩
  · obtain ⟨ups, below, folded, straight⟩ := upFirst_foldl segments
    rw [ofSegments, folded, List.reverse_append, List.reverse_replicate]
    exact upFirst_append (by simpa using straight) ups

theorem foldl_fold_ups (ups more : ℕ) :
    (List.replicate more "..").foldl fold (List.replicate ups "..") = List.replicate (ups + more) ".." := by
  induction more generalizing ups with
  | zero => rfl
  | succ more ih => rw [List.replicate_succ, List.foldl_cons, fold_up_up, ih, Nat.add_right_comm, Nat.add_assoc]

theorem foldl_fold_names (segment : ∀ name ∈ names, Segment name) (straight : ".." ∉ names) (stack : List String) :
    names.foldl fold stack = names.reverse ++ stack := by
  induction names generalizing stack with
  | nil => rfl
  | cons name names ih =>
    obtain ⟨proper, others⟩ := List.forall_mem_cons.mp segment
    obtain ⟨notUp, straight⟩ := not_or.mp (mt List.mem_cons.mpr straight)
    rw [List.foldl_cons, fold_name proper.present proper.notHere (Ne.symm notUp), ih others straight]
    simp

theorem Normal.ofSegments_eq (normal : p.Normal) : ofSegments p.segments = p := by
  have below : ∀ name ∈ p.segments.dropWhile (· == ".."), Segment name := fun name mem =>
    normal.segment name ((List.dropWhile_suffix _).subset mem)
  have folded : p.segments.foldl fold [] = p.segments.reverse := by
    rw [segments_eq p, List.foldl_append, show ([] : List String) = List.replicate 0 ".." from rfl, foldl_fold_ups,
      foldl_fold_names below normal.upFirst]
    simp
  rw [ofSegments, folded, List.reverse_reverse]

theorem ofSegments_append_left (front back : List String) :
    ofSegments ((ofSegments front).segments ++ back) = ofSegments (front ++ back) := by
  rw [ofSegments, ofSegments, ofSegments, List.foldl_append, List.foldl_append, foldl_fold_reverse]

theorem ofSegments_append_right (front back : List String) :
    ofSegments (front ++ (ofSegments back).segments) = ofSegments (front ++ back) := by
  rw [ofSegments, ofSegments, ofSegments, List.foldl_append, List.foldl_append, foldl_fold_reverse]

theorem join_assoc (p q r : SitePath) : (p.join q).join r = p.join (q.join r) := by
  rw [join, join, join, join, ofSegments_append_left, ofSegments_append_right, List.append_assoc]

theorem Normal.root_join (normal : p.Normal) : root.join p = p :=
  normal.ofSegments_eq

theorem Normal.join_root (normal : p.Normal) : p.join root = p := by
  rw [join, root, List.append_nil, normal.ofSegments_eq]

/-! ## Texts -/

theorem parse_join (s t : String) : parse (s ++ "/" ++ t) = (parse s).join (parse t) := by
  have cut : pieces isSeparator (s ++ "/" ++ t).toList =
      pieces isSeparator s.toList ++ pieces isSeparator t.toList := by
    have separated : (s ++ "/" ++ t).toList = s.toList ++ '/' :: t.toList := by simp
    rw [separated, pieces_append (by decide)]
  rw [join, parse, parse, parse, cut, List.map_append, ofSegments_append_left, ofSegments_append_right]

theorem normal_parse (text : String) : (parse text).Normal := by
  refine normal_ofSegments fun name mem => ?_
  obtain ⟨piece, cut, rfl⟩ := List.mem_map.mp mem
  rw [String.toList_ofList]
  exact absent_of_mem_pieces cut

theorem pieces_intercalate (present : names ≠ [])
    (flat : ∀ name ∈ names, ∀ c ∈ name.toList, isSeparator c = false) :
    (pieces isSeparator (String.intercalate "/" names).toList).map String.ofList = names := by
  rw [String.toList_intercalate]
  induction names with
  | nil => exact absurd rfl present
  | cons name names ih =>
    obtain ⟨here, below⟩ := List.forall_mem_cons.mp flat
    cases names with
    | nil => simp [List.intercalate, pieces_of_absent here]
    | cons next more =>
      have spelled : "/".toList.intercalate ((name :: next :: more).map String.toList) =
          name.toList ++ '/' :: "/".toList.intercalate ((next :: more).map String.toList) := by
        simp [List.intercalate]
      rw [spelled, pieces_append (by decide), pieces_of_absent here, List.singleton_append, List.map_cons,
        String.ofList_toList, ih (by simp) below]

theorem Normal.parse_text (normal : p.Normal) : parse p.text = p := by
  by_cases none : p.segments = []
  · obtain rfl : p = root := congrArg SitePath.mk none
    rfl
  · rw [text, parse, pieces_intercalate none fun name mem => (normal.segment name mem).flat, normal.ofSegments_eq]

/-! ## What keeps the normal form -/

theorem upFirst_of_prefix {front : List String} (before : front <+: segments)
    (upFirst : ".." ∉ segments.dropWhile (· == "..")) : ".." ∉ front.dropWhile (· == "..") := by
  obtain ⟨back, rfl⟩ := before
  intro mem
  rw [List.dropWhile_append, if_neg (by simpa using List.ne_nil_of_mem mem)] at upFirst
  exact upFirst (List.mem_append_left _ mem)

theorem Normal.directory (normal : p.Normal) : p.directory.Normal where
  segment name mem := normal.segment name (List.mem_of_mem_dropLast mem)
  upFirst := upFirst_of_prefix (List.dropLast_prefix _) normal.upFirst

theorem plain_page_name (segment : Segment name) : FilePath.Plain (stemOf name ++ ".html") :=
  FilePath.plain_html fun slash => absurd (segment.flat '/' (FilePath.mem_of_mem_stemOf slash)) (by decide)

theorem segment_page (segment : Segment name) : Segment (stemOf name ++ ".html") := by
  obtain ⟨present, -, notHere, -⟩ := plain_page_name segment
  refine ⟨present, notHere, fun c mem => ?_⟩
  rw [String.toList_append] at mem
  obtain stem | extension := List.mem_append.mp mem
  · exact segment.flat c (FilePath.mem_of_mem_stemOf stem)
  · have letters : ∀ c ∈ ".html".toList, isSeparator c = false := by simp [isSeparator]
    exact letters c extension

theorem Normal.page (normal : p.Normal) : (p.withExtension "html").Normal := by
  obtain ⟨segments⟩ := p
  obtain rfl | ⟨directory, name, rfl⟩ := List.eq_nil_or_concat segments
  · exact normal
  · rw [List.concat_eq_append] at normal ⊢
    have last : Segment name := normal.segment name (by simp)
    have upFirst := upFirst_of_prefix (List.prefix_append directory [name]) normal.upFirst
    have notUp : ".." ∉ [stemOf name ++ ".html"] := by simpa using (plain_page_name last).notUp.symm
    constructor
    · rw [segments_page]
      intro other mem
      obtain above | new := List.mem_append.mp mem
      · exact normal.segment other (List.mem_append_left _ above)
      · exact List.mem_singleton.mp new ▸ segment_page last
    · -- The last segment has become another, and whatever it was it is no `..` now.
      rw [segments_page, List.dropWhile_append]
      split
      · exact fun mem => notUp ((List.dropWhile_suffix _).subset mem)
      · exact fun mem => (List.mem_append.mp mem).elim upFirst notUp

theorem Normal.join (normal : p.Normal) (normal' : q.Normal) : (p.join q).Normal := by
  refine normal_ofSegments fun name mem => ?_
  obtain mem | mem := List.mem_append.mp mem
  · exact (normal.segment name mem).flat
  · exact (normal'.segment name mem).flat

/-! ## Main statement -/

/-- The normal forms are what reading yields.  Reading the text of a path gives the path back, and
reading two texts with a slash between them is joining what they read as.  Joining is
associative, the root can be left out on both sides, and directories, pages and joins of normal
forms are normal forms. -/
theorem paths_form_monoid :
    (∀ p : SitePath, p.Normal ↔ ∃ text, parse text = p) ∧
    (∀ text, parse (parse text).text = parse text) ∧
    (∀ s t, parse (s ++ "/" ++ t) = (parse s).join (parse t)) ∧
    (∀ p q r : SitePath, (p.join q).join r = p.join (q.join r)) ∧
    (parse "" = root ∧ ∀ p : SitePath, p.Normal → root.join p = p ∧ p.join root = p) ∧
    ∀ p : SitePath, p.Normal →
      p.directory.Normal ∧ (p.withExtension "html").Normal ∧ ∀ q : SitePath, q.Normal → (p.join q).Normal := by
  refine ⟨fun p => ⟨fun normal => ⟨p.text, normal.parse_text⟩, ?_⟩, fun text => (normal_parse text).parse_text,
    parse_join, join_assoc, ⟨rfl, fun p normal => ⟨normal.root_join, normal.join_root⟩⟩,
    fun p normal => ⟨normal.directory, normal.page, fun q => normal.join⟩⟩
  rintro ⟨text, rfl⟩
  exact normal_parse text

/-- The page of the directory above the one above, where no name is left to take back. -/
theorem paths_form_monoid_up :
    let p := parse "a/..\\..//../."
    let q := parse "../b.md"
    p.Normal ∧ q.Normal ∧ p = ⟨["..", ".."]⟩ ∧ root.join p = p ∧ p.withExtension "html" = ⟨["..", "..html"]⟩ ∧
      (p.withExtension "html").Normal ∧ (p.join q).Normal ∧ p.join q = ⟨["..", "..", "..", "b.md"]⟩ := by
  intro p q
  obtain ⟨normal_iff, -, -, -, ⟨-, unit⟩, keeps⟩ := paths_form_monoid
  have normal : p.Normal := (normal_iff p).mpr ⟨_, rfl⟩
  have normal' : q.Normal := (normal_iff q).mpr ⟨_, rfl⟩
  exact ⟨normal, normal', by decide +kernel, (unit p normal).1, by decide +kernel, (keeps p normal).2.1,
    (keeps p normal).2.2 q normal', by decide +kernel⟩

end Folio.SitePath
