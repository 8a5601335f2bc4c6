/-
# Following a link leads to its target

`relative` tells four cases apart, but they write one link: up once for each directory of the source
that is not shared, then down to the target (`relativeFrom_eq`).  Below the directory of the source
the steps up take back just the names that are not shared, so the link leads to the target
(`follow_relative`).  Both together are `links_lead_back`.
-/
import Bindery.EntryPath.Link
import Bindery.Proofs.EntryPath.Valid

namespace Bindery.EntryPath

/-! ## 1. The directory of a path -/

/-- All of a text up to its last slash. -/
theorem dropWhile_ne_slash {before after : List Char} (h : '/' ∉ after) :
    ((before ++ '/' :: after).reverse.dropWhile (· ≠ '/')).reverse = before ++ ['/'] := by
  have hafter : ∀ c ∈ after.reverse, decide (c ≠ '/') = true := by
    intro c hc
    simpa using fun e : c = '/' => h (e ▸ List.mem_reverse.mp hc)
  rw [List.reverse_append, List.reverse_cons, List.append_assoc,
    List.dropWhile_append_of_pos hafter]
  simp

theorem trimSlashes_concat {chars : List Char} {c : Char} (hc : c ≠ '/') :
    trimSlashes (chars ++ [c] ++ ['/']) = chars ++ [c] := by
  unfold trimSlashes
  simp [hc]

/-- A path ends as its last segment does. -/
theorem exists_ofSegments_concat (names : List String) (last : String) :
    ∃ before, (ofSegments (names ++ [last])).toList = before ++ last.toList := by
  by_cases hnames : names = []
  · exact ⟨[], by simp [hnames, ofSegments]⟩
  · refine ⟨(ofSegments names ++ "/").toList, ?_⟩
    rw [ofSegments, String.intercalate_append_of_ne_nil hnames (by simp), String.toList_append]
    simp [ofSegments]

/-- The directory of a path of names is the path without its last name. -/
theorem parent_ofSegments {directory : List String} {name : String}
    (hdirectory : ∀ other ∈ directory, IsName other) (hname : IsName name) :
    parent (ofSegments (directory ++ [name])) = ofSegments directory := by
  have hall : ∀ other ∈ directory ++ [name], IsName other := by
    simpa [or_imp, forall_and] using ⟨hdirectory, hname⟩
  rw [parent, normalize_ofSegments hall]
  rcases List.eq_nil_or_concat' directory with rfl | ⟨above, last, rfl⟩
  · have hslash : ∀ c ∈ name.toList.reverse, decide (c ≠ '/') = true := by
      intro c hc
      simpa using fun e : c = '/' => hname.no_slash (e ▸ List.mem_reverse.mp hc)
    have hempty : (name.toList.reverse ++ []).dropWhile (· ≠ '/') = [] :=
      List.dropWhile_append_of_pos hslash
    rw [List.append_nil] at hempty
    simp only [List.nil_append, ofSegments, String.intercalate_singleton, String.intercalate_nil]
    rw [hempty]
    rfl
  · have hlast := hdirectory last (by simp)
    obtain ⟨front, c, hchars⟩ := (List.eq_nil_or_concat' last.toList).resolve_left
      (by simpa using hlast.ne_empty)
    have hc : c ≠ '/' := by
      rintro rfl
      exact hlast.no_slash (by simp [hchars])
    obtain ⟨before, hbefore⟩ := exists_ofSegments_concat above last
    have hpath : (ofSegments (above ++ [last] ++ [name])).toList =
        (before ++ front ++ [c]) ++ '/' :: name.toList := by
      rw [ofSegments, String.intercalate_append_of_ne_nil (by simp) (by simp), ← ofSegments]
      simp [hbefore, hchars]
    rw [hpath, dropWhile_ne_slash hname.no_slash, trimSlashes_concat hc, ← String.toList_inj]
    simp [hbefore, hchars]

theorem IsValid.parent_eq {path : String} (h : IsValid path) :
    parent path = ofSegments (segments path).dropLast := by
  obtain ⟨directory, name, hpath⟩ :=
    (List.eq_nil_or_concat' (segments path)).resolve_left (segments_ne_nil path)
  rw [hpath, List.dropLast_concat, ← ofSegments_segments path, hpath]
  have hall := hpath ▸ h.isName
  exact parent_ofSegments (fun other hother => hall other (by simp [hother]))
    (hall name (by simp))

/-! ## 2. Shared directories -/

theorem sharedLength_le_right : ∀ lefts rights : List String,
    sharedLength lefts rights ≤ rights.length
  | [], _ => by simp [sharedLength]
  | _ :: _, [] => by simp [sharedLength]
  | left :: lefts, right :: rights => by
    have ih := sharedLength_le_right lefts rights
    unfold sharedLength
    split
    · simpa using ih
    · omega

/-- What two paths share they spell alike. -/
theorem take_sharedLength : ∀ lefts rights : List String,
    lefts.take (sharedLength lefts rights) = rights.take (sharedLength lefts rights)
  | [], _ => by simp [sharedLength]
  | _ :: _, [] => by simp [sharedLength]
  | left :: lefts, right :: rights => by
    have ih := take_sharedLength lefts rights
    unfold sharedLength
    split
    · rename_i heq
      simp [heq, ih]
    · rfl

/-- A directory at the start of a path is shared as a whole. -/
theorem sharedLength_eq_length : ∀ {lefts rights : List String},
    lefts.take rights.length = rights → sharedLength lefts rights = rights.length
  | [], rights, h => by
    have : rights = [] := by simpa using h.symm
    simp [this, sharedLength]
  | _ :: _, [], _ => by simp [sharedLength]
  | left :: lefts, right :: rights, h => by
    simp only [List.length_cons, List.take_succ_cons, List.cons.injEq] at h
    simp [sharedLength, h.1, sharedLength_eq_length h.2]

/-- Nothing longer is shared. -/
theorem length_le_sharedLength : ∀ {shared lefts rights : List String},
    shared <+: lefts → shared <+: rights → shared.length ≤ sharedLength lefts rights
  | [], _, _, _, _ => Nat.zero_le _
  | name :: shared, lefts, rights, hlefts, hrights => by
    obtain ⟨_, rfl, hlefts'⟩ := List.cons_prefix_iff.mp hlefts
    obtain ⟨_, rfl, hrights'⟩ := List.cons_prefix_iff.mp hrights
    rw [sharedLength, if_pos rfl, List.length_cons]
    exact Nat.succ_le_succ (length_le_sharedLength hlefts' hrights')

/-- The directory that two directories have in common, all three given by their names. -/
structure IsSharedDirectory (shared source target : List String) : Prop where
  above_source : shared <+: source
  above_target : shared <+: target
  deepest : ∀ other, other <+: source → other <+: target → other <+: shared

theorem isSharedDirectory_take (source target : List String) :
    IsSharedDirectory (source.take (sharedLength source target)) source target where
  above_source := List.take_prefix _ _
  above_target := take_sharedLength source target ▸ List.take_prefix _ _
  deepest _ hsource htarget :=
    List.prefix_take_iff.mpr ⟨hsource, length_le_sharedLength hsource htarget⟩

/-- **The one formula behind the four cases**: up once for each directory of the source below what is
shared, and down along what is left of the target. -/
theorem relativeFrom_eq (source directory : List String) (name : String) :
    relativeFrom source directory name =
      climb (source.length - sharedLength source directory) ++
        ofSegments ((directory ++ [name]).drop (sharedLength source directory)) := by
  unfold relativeFrom
  split
  · rename_i heq
    subst heq
    simp [sharedLength_eq_length, climb, ofSegments]
  split
  · rename_i hbelow
    simp [sharedLength_eq_length hbelow.2, ofSegments]
  · dsimp only
    split
    · rfl
    · rename_i hnone
      simp [Classical.not_not.mp hnone]

/-! ## 3. Following a link -/

/-- Steps up are segments like others. -/
theorem climb_append_ofSegments {names : List String} (hne : names ≠ []) : ∀ levels : Nat,
    climb levels ++ ofSegments names = ofSegments (List.replicate levels ".." ++ names)
  | 0 => by simp [climb]
  | levels + 1 => by
    have ih := climb_append_ofSegments hne levels
    simp only [climb, List.replicate_succ, String.join_cons, List.cons_append] at ih ⊢
    rw [String.append_assoc, ih, ofSegments, ofSegments,
      String.intercalate_cons_of_ne_nil (by simp [hne])]
    rfl

theorem join_ofSegments {directory names : List String} (hne : names ≠ [])
    (hdirectory : ∀ name ∈ directory, IsName name) :
    join (ofSegments directory) (ofSegments names) = normalize (ofSegments (directory ++ names)) := by
  by_cases hempty : directory = []
  · simp [join, hempty, ofSegments]
  · have hpath : ofSegments directory ≠ "" := by
      intro h
      have := segments_ofSegments hempty fun name hname => (hdirectory name hname).no_slash
      rw [h] at this
      exact (hdirectory "" (this ▸ by decide)).ne_empty rfl
    rw [join, if_neg hpath, ofSegments, ofSegments, ofSegments,
      String.intercalate_append_of_ne_nil hempty hne]

/-- A valid path below a valid directory has the segments of both. -/
theorem IsValid.segments_join {directory path : String} (hdirectory : IsValid directory)
    (hpath : IsValid path) :
    segments (join directory path) = segments directory ++ segments path := by
  have hnames : ∀ name ∈ segments directory ++ segments path, IsName name := by
    simpa [or_imp, forall_and] using ⟨hdirectory.isName, hpath.isName⟩
  have hjoin := join_ofSegments (segments_ne_nil path) hdirectory.isName
  rw [ofSegments_segments, ofSegments_segments, normalize_ofSegments hnames] at hjoin
  rw [hjoin, segments_ofSegments (by simp [segments_ne_nil]) fun name hname =>
    (hnames name hname).no_slash]

/-- From a directory of names, as many steps up as some of them take just these back. -/
theorem resolved_climb {kept left names : List String} (hkept : ∀ name ∈ kept, IsName name)
    (hleft : ∀ name ∈ left, IsName name) (hnames : ∀ name ∈ names, IsName name) :
    resolved false (kept ++ left ++ (List.replicate left.length ".." ++ names)) = kept ++ names := by
  have hclimb : (List.replicate left.reverse.length "..").foldl (walk false)
      (left.reverse ++ kept.reverse) = kept.reverse :=
    foldl_walk_climb (by simpa using hleft)
  rw [List.length_reverse] at hclimb
  rw [resolved, List.foldl_append, List.foldl_append, List.foldl_append, foldl_walk_names hkept,
    foldl_walk_names hleft, List.append_nil, hclimb, foldl_walk_names hnames]
  simp

/-- From a directory, the link to a path leads to the path. -/
theorem join_relativeFrom {source directory : List String} {name : String}
    (hsource : ∀ other ∈ source, IsName other)
    (htarget : ∀ other ∈ directory ++ [name], IsName other) :
    join (ofSegments source) (relativeFrom source directory name) =
      ofSegments (directory ++ [name]) := by
  rw [relativeFrom_eq]
  generalize hshared : sharedLength source directory = shared
  have hle : shared ≤ directory.length := hshared ▸ sharedLength_le_right source directory
  have hne : (directory ++ [name]).drop shared ≠ [] := by
    simp only [ne_eq, List.drop_eq_nil_iff, List.length_append, List.length_singleton]
    omega
  rw [climb_append_ofSegments hne, join_ofSegments (by simp [hne]) hsource]
  have htake : source.take shared = (directory ++ [name]).take shared := by
    rw [List.take_append_of_le_length hle, ← hshared, take_sharedLength]
  have hkept : ∀ other ∈ source.take shared, IsName other :=
    fun other hother => hsource other (List.mem_of_mem_take hother)
  have hleft : ∀ other ∈ source.drop shared, IsName other :=
    fun other hother => hsource other (List.mem_of_mem_drop hother)
  have hrest : ∀ other ∈ (directory ++ [name]).drop shared, IsName other :=
    fun other hother => htarget other (List.mem_of_mem_drop hother)
  -- Neither names nor steps up are empty, so the path starts below the top.
  rw [normalize_ofSegments_eq]
  · have hclimb := resolved_climb hkept hleft hrest
    rw [List.take_append_drop, List.length_drop, htake, List.take_append_drop] at hclimb
    rw [hclimb]
  · intro other hother
    rcases List.mem_append.mp hother with hother | hother
    · exact ⟨(hsource other hother).ne_empty, (hsource other hother).no_slash⟩
    rcases List.mem_append.mp hother with hother | hother
    · rw [List.eq_of_mem_replicate hother]
      decide
    · exact ⟨(hrest other hother).ne_empty, (hrest other hother).no_slash⟩

/-- A valid path can be linked to from everywhere. -/
theorem relative_eq_ok {source target : String} (htarget : IsValid target) :
    relative source target = .ok (relativeFrom (components source).dropLast
      (segments target).dropLast (fileName target)) := by
  rw [relative, htarget.components_eq, fileName,
    List.getLast?_eq_getLast_of_ne_nil (segments_ne_nil target)]
  rfl

/-- **Following the link to a path leads to the path.** -/
theorem follow_relative {source target link : String} (hsource : IsValid source)
    (htarget : IsValid target) (h : relative source target = .ok link) :
    follow source link = target := by
  rw [relative_eq_ok htarget, hsource.components_eq, Except.ok.injEq] at h
  rw [follow, hsource.parent_eq, ← h, join_relativeFrom, dropLast_append_fileName,
    ofSegments_segments]
  · exact fun other hother => hsource.isName other ((List.dropLast_sublist _).subset hother)
  · rw [dropLast_append_fileName]
    exact htarget.isName

/-- The link to a path that has components: up to the directory that is shared, and down again. -/
theorem exists_relative_eq (source : String) {target : String} (htarget : components target ≠ []) :
    ∃ shared up down, (components source).dropLast = shared ++ up ∧
      components target = shared ++ down ∧
      IsSharedDirectory shared (components source).dropLast (components target).dropLast ∧
      relative source target = .ok (climb up.length ++ ofSegments down) := by
  obtain ⟨directory, name, hcomponents⟩ := (List.eq_nil_or_concat' _).resolve_left htarget
  rw [relative, hcomponents, List.dropLast_concat, List.getLast?_concat]
  generalize (components source).dropLast = source
  have hle : sharedLength source directory ≤ directory.length := sharedLength_le_right _ _
  refine ⟨source.take (sharedLength source directory), source.drop (sharedLength source directory),
    (directory ++ [name]).drop (sharedLength source directory),
    (List.take_append_drop _ _).symm, ?_, isSharedDirectory_take source directory, ?_⟩
  · rw [take_sharedLength, ← List.take_append_of_le_length hle, List.take_append_drop]
  · rw [List.length_drop, ← relativeFrom_eq]

/-- **A link is up and down by way of the deepest shared directory, and leads to its target** when it is
followed from where it was written. -/
theorem links_lead_back :
    (∀ source target, check source = .ok () → check target = .ok () →
      ∃ link, relative source target = .ok link ∧ follow source link = target) ∧
    ∀ source target, components target ≠ [] →
      ∃ shared up down, (components source).dropLast = shared ++ up ∧
        components target = shared ++ down ∧
        IsSharedDirectory shared (components source).dropLast (components target).dropLast ∧
        relative source target = .ok (climb up.length ++ ofSegments down) := by
  constructor
  · intro source target hsource htarget
    have hvalid := check_eq_ok_iff.mp htarget
    obtain ⟨link, hlink⟩ : ∃ link, relative source target = .ok link := ⟨_, relative_eq_ok hvalid⟩
    exact ⟨link, hlink, follow_relative (check_eq_ok_iff.mp hsource) hvalid hlink⟩
  · intro source target htarget
    exact exists_relative_eq source htarget

/-- A link between two directories, and one between paths that are neither valid nor in normal form. -/
theorem links_between_directories :
    (check "OEBPS/text/page.xhtml" = .ok () ∧ check "OEBPS/images/cover.png" = .ok () ∧
      ∃ link, relative "OEBPS/text/page.xhtml" "OEBPS/images/cover.png" = .ok link ∧
        follow "OEBPS/text/page.xhtml" link = "OEBPS/images/cover.png") ∧
    components "OEBPS//images\\./cover.png" ≠ [] ∧
      ∃ shared up down, (components "/OEBPS/text/../notes/page.xhtml").dropLast = shared ++ up ∧
        components "OEBPS//images\\./cover.png" = shared ++ down ∧
        IsSharedDirectory shared (components "/OEBPS/text/../notes/page.xhtml").dropLast
          (components "OEBPS//images\\./cover.png").dropLast ∧
        relative "/OEBPS/text/../notes/page.xhtml" "OEBPS//images\\./cover.png" =
          .ok (climb up.length ++ ofSegments down) := by
  have hsource : check "OEBPS/text/page.xhtml" = .ok () := by decide +kernel
  have htarget : check "OEBPS/images/cover.png" = .ok () := by decide +kernel
  have hcomponents : components "OEBPS//images\\./cover.png" ≠ [] := by decide +kernel
  exact ⟨⟨hsource, htarget, links_lead_back.1 _ _ hsource htarget⟩, hcomponents,
    links_lead_back.2 _ _ hcomponents⟩

end Bindery.EntryPath
