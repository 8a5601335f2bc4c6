/-
# The normal form of a path

Normalization walks over the segments of a path with a stack.  What it does can be said without one:
segments that lead nowhere are taken out, one after the other (`Shortens`).  A walk takes out nothing else
(`shortens_resolved`), and it does not see what was taken out before (`Shortens.resolved_eq`).

* What a walk leaves has each `..` before all names (`IsSettled`), and nothing more can be taken out of it
  (`IsReduced.not_shortens`).
* So a normal form is its own (`normalize_normalize`), and two paths have one normal form exactly if the same is
  left of them in the end (`normalize_eq_iff`).
* What was resolved already may stand before what was not (`resolved_resolved_append`), so paths may be joined
  in any grouping (`join_join`).

All of it is `joining_associative_and_canonical`.
-/
import Mathlib.Logic.Relation
import Bindery.Proofs.EntryPath.Link

namespace Bindery.EntryPath

open Relation

variable {rooted : Bool} {segment : String} {walked names long short : List String}

/-! ## 1. Segments that lead nowhere -/

/-- Segments are taken out that lead nowhere, so the others lead where all of them led. -/
inductive Shortens (rooted : Bool) : List String → List String → Prop
  /-- An empty segment and `.` stay in the directory. -/
  | still {before after : List String} {segment : String} (h : segment = "" ∨ segment = ".") :
    Shortens rooted (before ++ segment :: after) (before ++ after)
  /-- After a name, `..` takes it back. -/
  | back {before after : List String} {name : String} (h : IsName name) :
    Shortens rooted (before ++ name :: ".." :: after) (before ++ after)
  /-- Nothing lies above the root. -/
  | top {after : List String} (h : rooted = true) : Shortens rooted (".." :: after) after

theorem walk_still (h : segment = "" ∨ segment = ".") : walk rooted walked segment = walked :=
  if_pos h

/-- A walk does not see what was taken out. -/
theorem Shortens.resolved_eq (h : Shortens rooted long short) :
    resolved rooted long = resolved rooted short := by
  cases h with
  | still h => simp only [resolved, List.foldl_append, List.foldl_cons, walk_still h]
  | back h => simp only [resolved, List.foldl_append, List.foldl_cons, h.walk, h.walk_dots]
  | top h => simp [resolved, walk, h]

theorem resolved_empty_cons (after : List String) :
    resolved rooted ("" :: after) = resolved rooted after := by
  rw [resolved, List.foldl_cons, walk_still (.inl rfl), ← resolved]

/-! ## 2. What a walk leaves -/

/-- A stack with names on top and `..` below them.  At the root there is no `..`. -/
inductive IsSettled (rooted : Bool) : List String → Prop
  | climb (levels : Nat) (h : rooted = true → levels = 0) :
    IsSettled rooted (List.replicate levels "..")
  | name {name : String} {walked : List String} (h : IsName name) (below : IsSettled rooted walked) :
    IsSettled rooted (name :: walked)

/-- A segment leads nowhere, or up, or is a name. -/
theorem segment_cases (h : '/' ∉ segment.toList) :
    (segment = "" ∨ segment = ".") ∨ segment = ".." ∨ IsName segment := by
  by_cases hstill : segment = "" ∨ segment = "."
  · exact .inl hstill
  by_cases hdots : segment = ".."
  · exact .inr (.inl hdots)
  · rw [not_or] at hstill
    exact .inr (.inr ⟨hstill.1, hstill.2, hdots, h⟩)

/-- Where no name stands, `..` is lost at the root and piles up elsewhere. -/
theorem walk_climb {levels : Nat} (h : rooted = true → levels = 0) :
    walk rooted (List.replicate levels "..") ".." =
      if rooted = true then [] else List.replicate (levels + 1) ".." := by
  cases rooted with
  | true => simp [walk, h rfl]
  | false => cases levels <;> simp [walk, List.replicate_succ]

namespace IsSettled

theorem step (h : IsSettled rooted walked) (hsegment : '/' ∉ segment.toList) :
    IsSettled rooted (walk rooted walked segment) := by
  rcases segment_cases hsegment with hstill | rfl | hname
  · rwa [walk_still hstill]
  · cases h with
    | climb levels hlevels =>
      rw [walk_climb hlevels]
      split
      · exact .climb 0 fun _ => rfl
      · rename_i hrooted
        exact .climb (levels + 1) fun htrue => absurd htrue hrooted
    | name hname below => rwa [hname.walk_dots]
  · rw [hname.walk]
    exact .name hname h

/-- One step of a walk takes out its segment, with the name before it, or puts it on the stack. -/
theorem shortens_step (h : IsSettled rooted walked) (hsegment : '/' ∉ segment.toList)
    (after : List String) : ReflTransGen (Shortens rooted) (walked.reverse ++ segment :: after)
      ((walk rooted walked segment).reverse ++ after) := by
  rcases segment_cases hsegment with hstill | rfl | hname
  · rw [walk_still hstill]
    exact .single (.still hstill)
  · cases h with
    | climb levels hlevels =>
      rw [walk_climb hlevels]
      split
      · rename_i hrooted
        rw [hlevels hrooted]
        exact .single (.top hrooted)
      · rw [List.replicate_succ, List.reverse_cons, List.append_assoc]
        exact .refl
    | name hname below =>
      rw [hname.walk_dots, List.reverse_cons, List.append_assoc]
      exact .single (.back hname)
  · rw [hname.walk, List.reverse_cons, List.append_assoc]
    exact .refl

/-- A walk takes out segments that lead nowhere, and what it leaves is settled, whatever settled stack it
starts with. -/
theorem foldl_walk : ∀ {names walked : List String}, IsSettled rooted walked →
    (∀ name ∈ names, '/' ∉ name.toList) →
      IsSettled rooted (names.foldl (walk rooted) walked) ∧
      ReflTransGen (Shortens rooted) (walked.reverse ++ names)
        (names.foldl (walk rooted) walked).reverse
  | [], walked, h, _ => ⟨h, by rw [List.append_nil]; exact .refl⟩
  | segment :: names, walked, h, hnames => by
    have hsegment := hnames segment List.mem_cons_self
    obtain ⟨hsettled, hshortens⟩ := (h.step hsegment).foldl_walk fun other hother =>
      hnames other (List.mem_cons_of_mem _ hother)
    exact ⟨hsettled, (h.shortens_step hsegment names).trans hshortens⟩

theorem isName_or_dots (h : IsSettled rooted walked) : ∀ s ∈ walked, IsName s ∨ s = ".." := by
  induction h with
  | climb levels => exact fun s hs => .inr (List.eq_of_mem_replicate hs)
  | name hname below ih =>
    intro s hs
    rcases List.mem_cons.mp hs with rfl | hs
    · exact .inl hname
    · exact ih s hs

end IsSettled

/-- Components in normal form: none is empty or `.`, and before `..` there is nothing but `..`. -/
structure IsReduced (components : List String) : Prop where
  ne_empty : ∀ component ∈ components, component ≠ ""
  ne_dot : ∀ component ∈ components, component ≠ "."
  climbs_first : components.Pairwise fun before after => after = ".." → before = ".."

theorem IsSettled.isReduced (h : IsSettled rooted walked) : IsReduced walked.reverse where
  ne_empty component hcomponent := by
    rcases h.isName_or_dots component (List.mem_reverse.mp hcomponent) with hname | rfl
    · exact hname.ne_empty
    · decide
  ne_dot component hcomponent := by
    rcases h.isName_or_dots component (List.mem_reverse.mp hcomponent) with hname | rfl
    · exact hname.ne_dot
    · decide
  climbs_first := by
    rw [List.pairwise_reverse]
    induction h with
    | climb levels =>
      exact List.pairwise_of_forall_mem_list fun _ _ _ hbefore _ =>
        List.eq_of_mem_replicate hbefore
    | name hname below ih =>
      exact List.pairwise_cons.mpr ⟨fun _ _ hdots => absurd hdots hname.ne_dots, ih⟩

/-- Nothing can be taken out of components in normal form. -/
theorem IsReduced.not_shortens (h : IsReduced long) : ¬ Shortens false long short := by
  intro hshortens
  cases hshortens with
  | still hstill =>
    rcases hstill with rfl | rfl
    · exact h.ne_empty "" (by simp) rfl
    · exact h.ne_dot "." (by simp) rfl
  | back hname =>
    have hpair := (List.pairwise_append.mp h.climbs_first).2.1
    exact hname.ne_dots ((List.pairwise_cons.mp hpair).1 ".." List.mem_cons_self rfl)
  | top hrooted => cases hrooted

/-! ## 3. Resolved segments -/

theorem resolved_eq_of_shortens (h : ReflTransGen (Shortens rooted) long short) :
    resolved rooted long = resolved rooted short := by
  induction h with
  | refl => rfl
  | tail _ hstep ih => exact ih.trans hstep.resolved_eq

section Resolved

-- As segments of a path are.
variable (hnames : ∀ name ∈ names, '/' ∉ name.toList)

include hnames

theorem isSettled_resolved : IsSettled rooted (resolved rooted names).reverse := by
  rw [resolved, List.reverse_reverse]
  exact ((IsSettled.climb 0 fun _ => rfl).foldl_walk hnames).1

/-- Resolving takes out segments that lead nowhere. -/
theorem shortens_resolved : ReflTransGen (Shortens rooted) names (resolved rooted names) :=
  ((IsSettled.climb 0 fun _ => rfl).foldl_walk hnames).2

theorem isReduced_resolved : IsReduced (resolved rooted names) := by
  simpa using (isSettled_resolved hnames).isReduced

/-- What is left can be written as a path and read again. -/
theorem proper_resolved : ∀ s ∈ resolved rooted names, s ≠ "" ∧ '/' ∉ s.toList := by
  intro s hs
  rcases (isSettled_resolved hnames).isName_or_dots s (List.mem_reverse.mpr hs) with hname | rfl
  · exact ⟨hname.ne_empty, hname.no_slash⟩
  · decide

theorem resolved_resolved : resolved rooted (resolved rooted names) = resolved rooted names :=
  (resolved_eq_of_shortens (shortens_resolved hnames)).symm

/-- Components in normal form are left alone. -/
theorem resolved_eq_self_iff : resolved false names = names ↔ IsReduced names := by
  constructor
  · intro h
    exact h ▸ isReduced_resolved hnames
  · intro h
    exact (reflTransGen_iff_eq fun _ => h.not_shortens).mp (shortens_resolved hnames)

end Resolved

theorem resolved_append (names after : List String) : resolved rooted (names ++ after) =
    (after.foldl (walk rooted) (resolved rooted names).reverse).reverse := by
  simp [resolved]

/-- What was resolved already may stand before what was not. -/
theorem resolved_resolved_append (hnames : ∀ name ∈ names, '/' ∉ name.toList) (after : List String) :
    resolved rooted (resolved rooted names ++ after) = resolved rooted (names ++ after) := by
  rw [resolved_append, resolved_resolved hnames, ← resolved_append]

/-- Segments are resolved alike exactly if the same is left of them when what leads nowhere is taken out. -/
theorem resolved_eq_iff {left right : List String} (hleft : ∀ name ∈ left, '/' ∉ name.toList)
    (hright : ∀ name ∈ right, '/' ∉ name.toList) :
    resolved rooted left = resolved rooted right ↔
      Join (ReflTransGen (Shortens rooted)) left right := by
  constructor
  · intro h
    exact ⟨resolved rooted left, shortens_resolved hleft, h ▸ shortens_resolved hright⟩
  · rintro ⟨short, hshortLeft, hshortRight⟩
    exact (resolved_eq_of_shortens hshortLeft).trans (resolved_eq_of_shortens hshortRight).symm

/-! ## 4. Normal forms -/

theorem root_cases (path : String) : root path = "" ∨ root path = "/" ∨ root path = "//" := by
  unfold root
  split
  · exact .inl rfl
  · exact .inr (.inr rfl)
  · exact .inr (.inl rfl)

theorem root_append {path tail : String} (htail : tail.toList.head? ≠ some '/') :
    root (root path ++ tail) = root path := by
  have hwhile : tail.toList.takeWhile (· = '/') = [] := by
    cases hchars : tail.toList with
    | nil => rfl
    | cons c rest =>
      have hc : c ≠ '/' := by simpa [hchars] using htail
      simp [hc]
  rcases root_cases path with h | h | h <;> rw [h] <;> simp [root, hwhile]

theorem resolved_segments_root (path tail : String) :
    resolved rooted (segments (root path ++ tail)) = resolved rooted (segments tail) := by
  rcases root_cases path with h | h | h
  · rw [h, String.empty_append]
  · rw [h, ← String.empty_append (s := "/"), segments_below]
    exact resolved_empty_cons _
  · rw [h, show "//" = "/" ++ "/" from rfl, segments_below]
    exact (resolved_empty_cons _).trans (resolved_empty_cons _)

/-- A path that is written from segments has these, and where there is none an empty one, which a walk does
not see. -/
theorem resolved_segments_append (hnames : ∀ name ∈ names, '/' ∉ name.toList) (after : List String) :
    resolved rooted (segments (ofSegments names) ++ after) = resolved rooted (names ++ after) := by
  by_cases hempty : names = []
  · rw [hempty]
    exact resolved_empty_cons after
  · rw [segments_ofSegments hempty hnames]

theorem resolved_segments_ofSegments (hnames : ∀ name ∈ names, '/' ∉ name.toList) :
    resolved rooted (segments (ofSegments names)) = resolved rooted names := by
  simpa using resolved_segments_append hnames []

theorem ofSegments_inj {left right : List String} (hleft : ∀ s ∈ left, s ≠ "" ∧ '/' ∉ s.toList)
    (hright : ∀ s ∈ right, s ≠ "" ∧ '/' ∉ s.toList) (h : ofSegments left = ofSegments right) :
    left = right := by
  have hread : ∀ names : List String, (∀ s ∈ names, s ≠ "" ∧ '/' ∉ s.toList) →
      (segments (ofSegments names)).filter (· ≠ "") = names := by
    intro names hnames
    by_cases hempty : names = []
    · rw [hempty]
      rfl
    · rw [segments_ofSegments hempty fun s hs => (hnames s hs).2]
      exact List.filter_eq_self.mpr fun s hs => by simpa using (hnames s hs).1
  rw [← hread left hleft, h, hread right hright]

/-- The segments that are left of a path can be written as a path and read again. -/
theorem proper_normalized (path : String) :
    ∀ s ∈ resolved rooted (segments path), s ≠ "" ∧ '/' ∉ s.toList :=
  proper_resolved fun _ => slash_not_mem_of_mem_segments

theorem root_normalize (path : String) : root (normalize path) = root path :=
  root_append (head?_ofSegments_ne_slash (proper_normalized path))

/-- **A normal form is its own.** -/
theorem normalize_normalize (path : String) : normalize (normalize path) = normalize path := by
  have hproper : ∀ s ∈ resolved (root path != "") (segments path), s ≠ "" ∧ '/' ∉ s.toList :=
    proper_normalized path
  rw [normalize, root_normalize, normalize, resolved_segments_root,
    resolved_segments_ofSegments fun s hs => (hproper s hs).2,
    resolved_resolved fun _ => slash_not_mem_of_mem_segments]

/-- **Two paths have one normal form** exactly if they have one root, and the same is left of them when what
leads nowhere is taken out. -/
theorem normalize_eq_iff {left right : String} : normalize left = normalize right ↔
    root left = root right ∧
      Join (ReflTransGen (Shortens (root left != ""))) (segments left) (segments right) := by
  rw [← resolved_eq_iff (fun _ => slash_not_mem_of_mem_segments) fun _ =>
    slash_not_mem_of_mem_segments]
  constructor
  · intro h
    -- A normal form starts with the root of its path, so both paths have one root.
    have hroot : root left = root right := by rw [← root_normalize left, h, root_normalize]
    rw [normalize, normalize, ← hroot, String.append_right_inj] at h
    exact ⟨hroot, ofSegments_inj (proper_normalized left) (proper_normalized right) h⟩
  · rintro ⟨hroot, h⟩
    rw [normalize, h, hroot, normalize]

/-- Only what is made of slashes alone ends in one. -/
theorem eq_slash_of_mem_normalize {path : String} (h : (normalize path).toList.getLast? = some '/') :
    ∀ c ∈ (normalize path).toList, c = '/' := by
  have hproper : ∀ s ∈ resolved (root path != "") (segments path), s ≠ "" ∧ '/' ∉ s.toList :=
    proper_normalized path
  rw [normalize] at h ⊢
  rcases List.eq_nil_or_concat' (resolved (root path != "") (segments path)) with
    hnil | ⟨front, last, hlast⟩
  · rw [hnil]
    rcases root_cases path with hroot | hroot | hroot <;> rw [hroot] <;> simp [ofSegments]
  -- The last character is one of the last component, so it is no slash.
  · obtain ⟨hne, hslash⟩ := hproper last (by simp [hlast])
    obtain ⟨before, hbefore⟩ := exists_ofSegments_concat front last
    rw [hlast, String.toList_append, hbefore, ← List.append_assoc,
      List.getLast?_append_of_ne_nil _ (by simpa using hne)] at h
    exact absurd (List.mem_of_getLast? h) hslash

/-- The normal form of a relative path: it is empty, or its components are in normal form. -/
def IsCanonical (path : String) : Prop :=
  path = "" ∨ IsReduced (segments path)

theorem isCanonical_normalize {path : String} (h : path.toList.head? ≠ some '/') :
    IsCanonical (normalize path) := by
  have hproper : ∀ s ∈ resolved false (segments path), s ≠ "" ∧ '/' ∉ s.toList :=
    proper_normalized path
  have hreduced : IsReduced (resolved false (segments path)) :=
    isReduced_resolved fun _ => slash_not_mem_of_mem_segments
  rw [normalize_eq_of_relative h]
  by_cases hnil : resolved false (segments path) = []
  · rw [hnil]
    exact .inl rfl
  · rw [IsCanonical, segments_ofSegments hnil fun s hs => (hproper s hs).2]
    exact .inr hreduced

theorem normalize_eq_self_iff {path : String} (h : path.toList.head? ≠ some '/') :
    normalize path = path ↔ IsCanonical path := by
  constructor
  · intro hsame
    exact hsame ▸ isCanonical_normalize h
  · rintro (rfl | hreduced)
    · rfl
    · rw [normalize_eq_of_relative h,
        (resolved_eq_self_iff fun _ => slash_not_mem_of_mem_segments).mpr hreduced, ofSegments_segments]

/-! ## 5. Joining -/

/-- A path from some directory and not from the root, without the null character that ends a path on disk. -/
structure IsRelative (path : String) : Prop where
  no_root : path.toList.head? ≠ some '/'
  no_null : '\x00' ∉ path.toList

variable {directory path below : String}

theorem head?_below (h : directory ≠ "") :
    (directory ++ "/" ++ path).toList.head? = directory.toList.head? := by
  obtain ⟨c, rest, hchars⟩ := List.exists_cons_of_ne_nil (l := directory.toList) (by simpa using h)
  simp [hchars]

/-- To join is to resolve the segments of both. -/
theorem join_eq_of_relative (hdirectory : directory.toList.head? ≠ some '/')
    (hpath : path.toList.head? ≠ some '/') :
    join directory path = ofSegments (resolved false (segments directory ++ segments path)) := by
  rw [join]
  split
  · rename_i hempty
    rw [hempty, normalize_eq_of_relative hpath]
    -- The empty text has one segment, and that leads nowhere.
    exact congrArg ofSegments (resolved_empty_cons _).symm
  · rename_i hne
    rw [normalize_eq_of_relative (by rwa [head?_below hne]), segments_below]

theorem slash_not_mem_segments_append : ∀ s ∈ segments directory ++ segments path, '/' ∉ s.toList := by
  intro s hs
  rcases List.mem_append.mp hs with hs | hs <;> exact slash_not_mem_of_mem_segments hs

theorem IsRelative.join (hdirectory : IsRelative directory) (hpath : IsRelative path) :
    IsRelative (join directory path) where
  no_root := by
    rw [join_eq_of_relative hdirectory.no_root hpath.no_root]
    exact head?_ofSegments_ne_slash (proper_resolved slash_not_mem_segments_append)
  no_null h := by
    rcases mem_of_mem_join h with h | h | h
    · exact absurd h (by decide)
    · exact hdirectory.no_null h
    · exact hpath.no_null h

/-- **Paths may be joined in any grouping.** -/
theorem join_join (hdirectory : IsRelative directory) (hpath : IsRelative path)
    (hbelow : IsRelative below) (hne : path ≠ "") :
    join (join directory path) below = join directory (path ++ "/" ++ below) := by
  have hslash : ∀ s ∈ segments directory ++ segments path, '/' ∉ s.toList :=
    slash_not_mem_segments_append
  have hrest : (path ++ "/" ++ below).toList.head? ≠ some '/' := by
    rw [head?_below hne]
    exact hpath.no_root
  calc join (join directory path) below
      = ofSegments (resolved false (segments (join directory path) ++ segments below)) :=
        join_eq_of_relative (hdirectory.join hpath).no_root hbelow.no_root
    _ = ofSegments (resolved false
          (resolved false (segments directory ++ segments path) ++ segments below)) := by
        rw [join_eq_of_relative hdirectory.no_root hpath.no_root,
          resolved_segments_append fun s hs => (proper_resolved hslash s hs).2]
    _ = ofSegments (resolved false (segments directory ++ segments path ++ segments below)) := by
        rw [resolved_resolved_append hslash]
    _ = join directory (path ++ "/" ++ below) := by
        rw [join_eq_of_relative hdirectory.no_root hrest, segments_below, List.append_assoc]

/-- With an empty path in the middle, the slash after it leads to the root. -/
example : join (join "" "") "toc.ncx" = "toc.ncx" ∧ join "" ("" ++ "/" ++ "toc.ncx") = "/toc.ncx" := by
  decide +kernel

/-- **Joining is associative, and normal forms are canonical.**  Paths that are relative may be joined in any
grouping, if the one in the middle is not empty.  Every normal form is its own, ends in a slash only if it is
made of slashes, and, if the path was relative, is empty or has components in normal form; just such paths are
left alone.  Paths with the same normal form differ by segments that lead nowhere, and by nothing else. -/
theorem joining_associative_and_canonical :
    (∀ directory path below, IsRelative directory → IsRelative path → IsRelative below → path ≠ "" →
      IsRelative (join directory path) ∧
        join (join directory path) below = join directory (path ++ "/" ++ below)) ∧
    (∀ path : String, '\x00' ∉ path.toList →
      '\x00' ∉ (normalize path).toList ∧
        normalize (normalize path) = normalize path ∧
        ((normalize path).toList.getLast? = some '/' → ∀ c ∈ (normalize path).toList, c = '/') ∧
        (path.toList.head? ≠ some '/' →
          IsCanonical (normalize path) ∧ (normalize path = path ↔ IsCanonical path))) ∧
    ∀ left right : String, '\x00' ∉ left.toList → '\x00' ∉ right.toList →
      (normalize left = normalize right ↔ root left = root right ∧
        Join (ReflTransGen (Shortens (root left != ""))) (segments left) (segments right)) := by
  refine ⟨fun directory path below hdirectory hpath hbelow hne => ?_, fun path hnull => ?_,
    fun left right _ _ => normalize_eq_iff⟩
  · exact ⟨hdirectory.join hpath, join_join hdirectory hpath hbelow hne⟩
  · refine ⟨fun hmem => ?_, normalize_normalize path, eq_slash_of_mem_normalize, fun hrelative => ?_⟩
    · rcases mem_of_mem_normalize hmem with hslash | hmem
      · exact absurd hslash (by decide)
      · exact hnull hmem
    · exact ⟨isCanonical_normalize hrelative, normalize_eq_self_iff hrelative⟩

/-- Paths in which `..` takes back names of the path before, one that climbs, one that is lost at its root, and
two that lead the same way. -/
theorem climbing_paths_canonical :
    (IsRelative "../OEBPS" ∧ IsRelative "text/..//." ∧ IsRelative "../../images/cover.png" ∧
      "text/..//." ≠ "" ∧
      IsRelative (join "../OEBPS" "text/..//.") ∧
        join (join "../OEBPS" "text/..//.") "../../images/cover.png" =
          join "../OEBPS" ("text/..//." ++ "/" ++ "../../images/cover.png")) ∧
    ('\x00' ∉ "OEBPS//../../text/".toList ∧ "OEBPS//../../text/".toList.head? ≠ some '/' ∧
      '\x00' ∉ (normalize "OEBPS//../../text/").toList ∧
        normalize (normalize "OEBPS//../../text/") = normalize "OEBPS//../../text/" ∧
        IsCanonical (normalize "OEBPS//../../text/") ∧
        (normalize "OEBPS//../../text/" = "OEBPS//../../text/" ↔ IsCanonical "OEBPS//../../text/")) ∧
    ('\x00' ∉ "//../book/..".toList ∧ (normalize "//../book/..").toList.getLast? = some '/' ∧
      ∀ c ∈ (normalize "//../book/..").toList, c = '/') ∧
    '\x00' ∉ "./book/cover".toList ∧ '\x00' ∉ "book//text/../cover".toList ∧
      (normalize "./book/cover" = normalize "book//text/../cover" ↔
        root "./book/cover" = root "book//text/../cover" ∧
          Join (ReflTransGen (Shortens (root "./book/cover" != ""))) (segments "./book/cover")
            (segments "book//text/../cover")) := by
  have hdirectory : IsRelative "../OEBPS" := ⟨by decide, by decide⟩
  have hpath : IsRelative "text/..//." := ⟨by decide, by decide⟩
  have hbelow : IsRelative "../../images/cover.png" := ⟨by decide, by decide⟩
  have hne : "text/..//." ≠ "" := by decide
  have hclimbing : '\x00' ∉ "OEBPS//../../text/".toList := by decide
  have hrelative : "OEBPS//../../text/".toList.head? ≠ some '/' := by decide
  have hrooted : '\x00' ∉ "//../book/..".toList := by decide
  have hends : (normalize "//../book/..").toList.getLast? = some '/' := by decide +kernel
  have hleft : '\x00' ∉ "./book/cover".toList := by decide
  have hright : '\x00' ∉ "book//text/../cover".toList := by decide
  obtain ⟨hjoins, hnormal, halike⟩ := joining_associative_and_canonical
  obtain ⟨hplain, hsame, -, hcanonical⟩ := hnormal _ hclimbing
  obtain ⟨-, -, hslashes, -⟩ := hnormal _ hrooted
  exact ⟨⟨hdirectory, hpath, hbelow, hne, hjoins _ _ _ hdirectory hpath hbelow hne⟩,
    ⟨hclimbing, hrelative, hplain, hsame, hcanonical hrelative⟩, ⟨hrooted, hends, hslashes hends⟩,
    hleft, hright, halike _ _ hleft hright⟩

end Bindery.EntryPath
