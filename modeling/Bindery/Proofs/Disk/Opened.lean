/-
# Directories are opened out

A walk that succeeds gives the files of the tree that it starts at, each once and with its bytes, in the
order of the names that lead to them (`Reader.opensTo_of_walkLevels`).  The order of all files is the order
of the entries of each directory: these come one after the other, and the files of an entry have its name
in front.
-/
import Mathlib.Data.List.Perm.Basic
import Mathlib.Data.String.Basic
import Bindery.Proofs.Disk.Descent
import Bindery.Proofs.EntryPath.Link

namespace Bindery

open EntryPath

/-! ## 1. Names in order -/

namespace FileTree

/-- The names of a proper directory come in strict order. -/
theorem orderedNames_pairwise {entries : List (String × FileTree)}
    (h : (entries.map (·.1)).Nodup) : (orderedNames entries).Pairwise (· < ·) := by
  have hsorted : (orderedNames entries).Pairwise fun left right => decide (left ≤ right) = true := by
    refine List.pairwise_mergeSort ?_ ?_ _
    · intro left middle right hleft hright
      rw [decide_eq_true_eq] at hleft hright ⊢
      exact le_trans hleft hright
    · intro left right
      rw [Bool.or_eq_true, decide_eq_true_eq, decide_eq_true_eq]
      exact le_total left right
  have hnodup : (orderedNames entries).Nodup := (orderedNames_perm entries).nodup_iff.mpr h
  refine (hsorted.and hnodup).imp ?_
  rintro left right ⟨hle, hne⟩
  rw [decide_eq_true_eq] at hle
  exact lt_of_le_of_ne hle hne

/-- A file with one more name in front. -/
def inDirectory (name : String) (file : List String × ByteArray) : List String × ByteArray :=
  (name :: file.1, file.2)

theorem filesAll_eq_flatMap : ∀ entries : List (String × FileTree),
    filesAll entries = entries.flatMap fun entry => entry.2.files.map (inDirectory entry.1)
  | [] => rfl
  | (name, tree) :: rest => by
    rw [filesAll, List.flatMap_cons, filesAll_eq_flatMap rest]
    rfl

/-- Entries of a directory that are opened out one after the other are the directory opened out. -/
theorem exists_ordered_files {entries : List (String × FileTree)}
    (hproper : (directory entries).isProper = true)
    {files : String → List (List String × ByteArray)}
    (h : ∀ name ∈ orderedNames entries, ∃ tree, entries.lookup name = some tree ∧
      (files name).Perm tree.files ∧ (files name).Pairwise fun first second => first.1 < second.1) :
    ((orderedNames entries).flatMap fun name => (files name).map (inDirectory name)).Perm
        (directory entries).files ∧
      ((orderedNames entries).flatMap fun name => (files name).map (inDirectory name)).Pairwise
        fun first second => first.1 < second.1 := by
  obtain ⟨hnodup, -, -⟩ := isProper_directory_iff.mp hproper
  constructor
  · rw [FileTree.files, filesAll_eq_flatMap]
    refine ((orderedNames_perm entries).flatMap_right _).trans ?_
    rw [List.flatMap_map]
    refine List.Perm.flatMap_left _ fun entry hentry => List.Perm.map _ ?_
    have hname : entry.1 ∈ orderedNames entries :=
      (orderedNames_perm entries).mem_iff.mpr (List.mem_map_of_mem hentry)
    obtain ⟨tree, hlookup, hperm, -⟩ := h entry.1 hname
    rw [lookup_of_mem hnodup hentry, Option.some.injEq] at hlookup
    rwa [hlookup]
  · rw [List.pairwise_flatMap]
    constructor
    · intro name hname
      obtain ⟨tree, -, -, hpairwise⟩ := h name hname
      refine List.pairwise_map.mpr (hpairwise.imp fun hlt => ?_)
      exact List.cons_lt_cons_iff.mpr (.inr ⟨rfl, hlt⟩)
    · refine (orderedNames_pairwise hnodup).imp fun hlt first hfirst second hsecond => ?_
      obtain ⟨firstFile, -, rfl⟩ := List.mem_map.mp hfirst
      obtain ⟨secondFile, -, rfl⟩ := List.mem_map.mp hsecond
      exact List.cons_lt_cons_iff.mpr (.inl hlt)

end FileTree

/-! ## 2. Paths below a path -/

/-- The archive path of an entry is that of the directory, a slash, and the name. -/
theorem EntryPath.join_name {inside name : String} (hinside : ∀ segment ∈ segments inside, IsName segment)
    (hname : IsName name) :
    join inside name = ofSegments [inside, name] ∧
      ∀ segment ∈ segments (join inside name), IsName segment := by
  have hnames : ∀ segment ∈ segments inside ++ [name], IsName segment := by
    intro segment hsegment
    rcases List.mem_append.mp hsegment with h | h
    · exact hinside segment h
    · exact List.mem_singleton.mp h ▸ hname
  have hsegments : ofSegments (segments inside ++ [name]) = ofSegments [inside, name] := by
    rw [ofSegments, String.intercalate_append_of_ne_nil (segments_ne_nil inside) (List.cons_ne_nil _ _)]
    show ofSegments (segments inside) ++ "/" ++ _ = _
    rw [ofSegments_segments]
    rfl
  have hjoin : join inside name = ofSegments (segments inside ++ [name]) := by
    have hjoined := join_ofSegments (List.cons_ne_nil name []) hinside
    rw [ofSegments_segments, normalize_ofSegments hnames] at hjoined
    exact hjoined
  refine ⟨hjoin.trans hsegments, ?_⟩
  rw [hjoin, segments_ofSegments (by simp) fun segment hsegment => (hnames segment hsegment).no_slash]
  exact hnames

/-- A path below a path below a path. -/
theorem EntryPath.ofSegments_nested (inside name : String) (names : List String) :
    ofSegments (ofSegments [inside, name] :: names) = ofSegments (inside :: name :: names) := by
  cases names with
  | nil => rfl
  | cons next rest =>
    simp only [ofSegments, String.intercalate_cons_cons, String.intercalate_singleton,
      String.append_assoc]

/-- Entries that are opened out to their archive paths, one after the other, are the directory opened out. -/
theorem FileTree.opensTo_directory {entries : List (String × FileTree)} {inside : String}
    (hproper : (directory entries).isProper = true) {parts : String → List (String × ByteArray)}
    (h : ∀ name ∈ orderedNames entries, ∃ tree, entries.lookup name = some tree ∧
      tree.OpensTo (ofSegments [inside, name]) (parts name)) :
    (directory entries).OpensTo inside ((orderedNames entries).flatMap parts) := by
  have hopened : ∀ name ∈ orderedNames entries, ∃ files : List (List String × ByteArray),
      (∃ tree, entries.lookup name = some tree ∧ files.Perm tree.files ∧
        files.Pairwise fun first second => first.1 < second.1) ∧
      parts name = (files.map (inDirectory name)).map fun file =>
        (ofSegments (inside :: file.1), file.2) := by
    intro name hname
    obtain ⟨tree, hlookup, files, hperm, hpairwise, hparts⟩ := h name hname
    refine ⟨files, ⟨tree, hlookup, hperm, hpairwise⟩, ?_⟩
    rw [hparts, List.map_map]
    exact List.map_congr_left fun file _ => by rw [ofSegments_nested]; rfl
  choose! files hfiles hparts using hopened
  obtain ⟨hperm, hpairwise⟩ := exists_ordered_files hproper hfiles
  refine ⟨_, hperm, hpairwise, ?_⟩
  rw [List.map_flatMap]
  exact List.flatMap_congr hparts

/-! ## 3. Walks -/

namespace Reader

variable {reader : Reader}

theorem exists_find_of_walkLevels {levels : Nat} {path inside : String} {location : Location}
    {found : List (String × ByteArray)} (hresolve : reader.resolve path = .ok location)
    (h : reader.walkLevels (levels + 1) path inside = .ok found) :
    ∃ tree, reader.disk.find location = .ok tree := by
  obtain ⟨-, ⟨data, hfind, -⟩ | ⟨entries, hfind, -⟩⟩ := (walkLevels_eq_ok_iff_find hresolve).mp h
  · exact ⟨_, hfind⟩
  · exact ⟨_, hfind⟩

/-- **A walk opens the tree out that it starts at**, where the location of an entry that is read again is
the location of the entry. -/
theorem opensTo_of_walkLevels (htop : reader.disk.top.isProper = true) : ∀ {levels : Nat}
    {path inside : String} {location : Location} {tree : FileTree}
    {found : List (String × ByteArray)}, reader.resolve path = .ok location → location.IsNormal →
    location.Untilded → (location.isAbsolute = true ∨ reader.base = ⟨"", []⟩) →
    (∀ segment ∈ segments inside, IsName segment) → reader.disk.find location = .ok tree →
    tree.height < levels → reader.walkLevels levels path inside = .ok found →
    tree.OpensTo inside found := by
  intro levels
  induction levels with
  | zero =>
    intro path inside location tree found _ _ _ _ _ _ hheight
    exact absurd hheight (Nat.not_lt_zero _)
  | succ levels ih =>
    intro path inside location tree found hresolve hnormal huntilded hbase hinside hfind hheight hwalk
    obtain ⟨-, ⟨data, hfile, rfl⟩ | ⟨entries, hentries, below, hbelow, rfl⟩⟩ :=
      (walkLevels_eq_ok_iff_find hresolve).mp hwalk
    · rw [hfile, Except.ok.injEq] at hfind
      subst hfind
      exact ⟨[([], data)], List.Perm.refl _, List.pairwise_singleton _ _, rfl⟩
    · rw [hentries, Except.ok.injEq] at hfind
      subst hfind
      have hproper := Disk.isProper_of_find htop hentries
      have hopened : ∀ name ∈ FileTree.orderedNames entries, ∃ part : List (String × ByteArray),
          (∃ tree, entries.lookup name = some tree ∧
            tree.OpensTo (ofSegments [inside, name]) part) ∧
          reader.walkLevels levels (location.child name).text (EntryPath.join inside name) =
            .ok part := by
        intro name hname
        have hnameProper := FileTree.isProperName_of_mem hproper hname
        obtain ⟨hjoin, hsegments⟩ :=
          EntryPath.join_name hinside (FileTree.isProperName_iff.mp hnameProper).1
        have hchild := hnormal.child hnameProper
        have hchildBase : (location.child name).isAbsolute = true ∨ reader.base = ⟨"", []⟩ := hbase
        have hchildResolve := resolve_text hchild (huntilded.child name) hchildBase
        obtain ⟨part, -, hpart⟩ := exists_of_mapM_mem hbelow hname
        rw [FileTree.height] at hheight
        obtain ⟨levels, rfl⟩ := Nat.exists_eq_succ_of_ne_zero (show levels ≠ 0 by omega)
        obtain ⟨tree, htree⟩ := exists_find_of_walkLevels hchildResolve hpart
        obtain ⟨-, hlookup⟩ := (Disk.find_child hentries hnameProper).mp htree
        have hlower : tree.height ≤ FileTree.heightAll entries :=
          FileTree.height_le_heightAll (FileTree.mem_of_lookup hlookup)
        have hopens : tree.OpensTo (EntryPath.join inside name) part :=
          ih hchildResolve hchild (huntilded.child name) hchildBase hsegments htree
            (show tree.height < levels + 1 by omega) hpart
        exact ⟨part, ⟨tree, hlookup, hjoin ▸ hopens⟩, hpart⟩
      choose! parts hparts hwalks using hopened
      rw [mapM_eq_ok_map hwalks, Except.ok.injEq] at hbelow
      rw [← hbelow, ← List.flatMap_def]
      exact FileTree.opensTo_directory hproper hparts

end Reader
end Bindery
