/-
# Reading a directory in its place and by itself

The tree at a base directory can be read where it is or as a disk of its own.  What leads down from the
base is found on both (`Disk.find_moved`), unless its location gets too long under the base.  A walk finds
the same on both if it starts at a file, or if the base is given from the top of the disk
(`Reader.walk_moved`).  It need not do so if the base is given from the working directory: the locations of
entries are then read below a second copy of the base.
-/
import Bindery.Proofs.Disk.Base

namespace Bindery

/-! ## 1. Looking up -/

/-- A tree as a disk of its own, for the same users. -/
def Disk.moved (disk : Disk) (tree : FileTree) : Disk :=
  { disk with top := tree, workingDirectory := [] }

theorem Disk.find_moved_dot (disk : Disk) (tree : FileTree) :
    (disk.moved tree).find ⟨"", []⟩ = .ok tree := rfl

/-- No location below a base is too long. -/
def FileTree.FitsUnder (tree : FileTree) (base : Location) : Prop :=
  ∀ names below, tree.get? names = some below →
    (base.under ⟨"", names⟩).text.utf8ByteSize < maxLocationBytes

theorem EntryPath.size_ofSegments_le (more : List String) {names : List String} (hne : names ≠ []) :
    (ofSegments names).utf8ByteSize ≤ (ofSegments (more ++ names)).utf8ByteSize := by
  by_cases hmore : more = []
  · subst hmore
    exact Nat.le_refl _
  · rw [ofSegments, ofSegments, String.intercalate_append_of_ne_nil hmore hne, String.utf8ByteSize_append]
    exact Nat.le_add_left _ _

/-- A location is not longer than it is below a base, unless it is the working directory. -/
theorem Location.size_text_le {base location : Location} (hrelative : location.isAbsolute = false)
    (hne : location.names ≠ []) :
    location.text.utf8ByteSize ≤ (base.under location).text.utf8ByteSize := by
  obtain ⟨root, names⟩ := location
  obtain rfl : root = "" := root_of_relative hrelative
  have hnames : base.names ++ names ≠ [] := by simp [show names ≠ [] from hne]
  have hown : text ⟨"", names⟩ = EntryPath.ofSegments names := by
    rw [text, if_neg (by simp [show names ≠ [] from hne])]
    exact String.empty_append
  rw [under_of_relative hrelative, hown, text, if_neg (fun h => hnames h.2), String.utf8ByteSize_append]
  exact Nat.le_trans (EntryPath.size_ofSegments_le base.names hne) (Nat.le_add_left _ _)

/-- Short names make a path longer by little each. -/
theorem EntryPath.size_ofSegments_append_le : ∀ {names : List String} (more : List String),
    (∀ name ∈ names, name.utf8ByteSize ≤ maxNameBytes) →
    (ofSegments (more ++ names)).utf8ByteSize ≤
      (ofSegments more).utf8ByteSize + (maxNameBytes + 1) * names.length
  | [], more, _ => by rw [List.append_nil]; exact Nat.le_add_right _ _
  | name :: names, more, h => by
    have hrest := size_ofSegments_append_le (more ++ [name]) fun other hother =>
      h other (List.mem_cons_of_mem _ hother)
    have hname := h name List.mem_cons_self
    have hone : (ofSegments (more ++ [name])).utf8ByteSize ≤
        (ofSegments more).utf8ByteSize + (maxNameBytes + 1) := by
      by_cases hmore : more = []
      · rw [hmore]
        exact Nat.le_trans hname (Nat.le_succ_of_le (Nat.le_add_left _ _))
      · have hslash : "/".utf8ByteSize = 1 := rfl
        have hlast : ("/".intercalate [name]) = name := String.intercalate_singleton
        rw [ofSegments, String.intercalate_append_of_ne_nil hmore (List.cons_ne_nil _ _),
          String.utf8ByteSize_append, String.utf8ByteSize_append, hslash, hlast, ← ofSegments]
        omega
    rw [List.append_assoc, List.singleton_append] at hrest
    rw [List.length_cons, Nat.mul_succ]
    omega

theorem Location.size_text_under_le (base : Location) {names : List String}
    (h : ∀ name ∈ names, name.utf8ByteSize ≤ maxNameBytes) :
    (base.under ⟨"", names⟩).text.utf8ByteSize ≤
      base.text.utf8ByteSize + (maxNameBytes + 1) * names.length := by
  have hlonger := EntryPath.size_ofSegments_append_le base.names h
  rw [under_of_relative rfl, text, text]
  dsimp only
  split
  · rename_i hdot
    rw [if_pos ⟨hdot.1, (List.append_eq_nil_iff.mp hdot.2).1⟩]
    exact Nat.le_add_right _ _
  · rw [String.utf8ByteSize_append]
    split
    · rename_i hdot
      rw [hdot.2] at hlonger
      rw [hdot.1, hdot.2]
      have hnone : (EntryPath.ofSegments []).utf8ByteSize = 0 := rfl
      rw [hnone] at hlonger
      exact Nat.le_trans (Nat.add_le_add_left hlonger _) (by simp)
    · rw [String.utf8ByteSize_append, Nat.add_assoc]
      exact Nat.add_le_add_left hlonger _

theorem FileTree.names_of_get? : ∀ {names : List String} {tree below : FileTree},
    tree.isProper = true → tree.get? names = some below →
      names.length ≤ tree.height ∧ ∀ name ∈ names, name.utf8ByteSize ≤ maxNameBytes
  | [], _, _, _, _ => ⟨Nat.zero_le _, by simp⟩
  | name :: names, .file _, _, _, h => by cases h
  | name :: names, .directory entries, below, hproper, h => by
    rw [get?, Option.bind_eq_some_iff] at h
    obtain ⟨next, hlookup, hbelow⟩ := h
    have hmem := mem_of_lookup hlookup
    have hname := (isProper_directory_iff.mp hproper).2.1 _ hmem
    have hnext : next.isProper = true := isProper_of_mem hproper hmem
    obtain ⟨hlength, hnames⟩ := names_of_get? hnext hbelow
    have hlower : next.height < (directory entries).height := height_lt_of_mem hmem
    refine ⟨by rw [List.length_cons]; omega, ?_⟩
    intro other hother
    rcases List.mem_cons.mp hother with rfl | hother
    · exact (isProperName_iff.mp hname).2.1
    · exact hnames other hother

/-- A tree of few levels has no location that is too long. -/
theorem FileTree.fitsUnder_of_height {tree : FileTree} {base : Location}
    (hproper : tree.isProper = true)
    (hheight : base.text.utf8ByteSize + (maxNameBytes + 1) * tree.height < maxLocationBytes) :
    tree.FitsUnder base := by
  intro names below h
  obtain ⟨hlength, hnames⟩ := names_of_get? hproper h
  have hsize := base.size_text_under_le hnames
  have hlevels := Nat.mul_le_mul_left (maxNameBytes + 1) hlength
  omega

namespace Disk

variable {disk : Disk} {base location : Location} {subtree tree : FileTree}

/-- **What leads down from a base is found in its tree**, and the other way round. -/
theorem find_moved (hfind : disk.find base = .ok subtree) (hfits : subtree.FitsUnder base)
    (hrelative : location.isAbsolute = false) (hdots : ".." ∉ location.names) :
    disk.find (base.under location) = .ok tree ↔ (disk.moved subtree).find location = .ok tree := by
  have hown := find_under (disk.find_moved_dot subtree) hrelative hdots
  rw [Location.under_nil] at hown
  rw [find_under hfind hrelative hdots, hown]
  cases hseek : subtree.seek location.names with
  | error refusal =>
    constructor
    · intro h
      split at h <;> cases h
    · intro h
      split at h <;> cases h
  | ok found =>
    have hlocation : location = ⟨"", location.names⟩ := by
      rw [← Location.root_of_relative hrelative]
    have hshort : (base.under location).text.utf8ByteSize < maxLocationBytes := by
      rw [hlocation]
      exact hfits _ _ (FileTree.get?_of_seek hseek)
    have hownShort : location.text.utf8ByteSize < maxLocationBytes := by
      by_cases hne : location.names = []
      · rw [hlocation, hne]
        decide
      · exact Nat.lt_of_le_of_lt (Location.size_text_le hrelative hne) hshort
    rw [if_neg (Nat.not_le.mpr hshort), if_neg (Nat.not_le.mpr hownShort)]

end Disk

/-! ## 2. Walks -/

namespace Reader

variable {disk : Disk} {base : Location} {subtree : FileTree}

section

variable (htop : disk.top.isProper = true) (hfind : disk.find base = .ok subtree)
  (hfits : subtree.FitsUnder base)
include htop hfind hfits

/-- A base that is given from the top of the disk only changes where a walk starts. -/
theorem walkLevels_moved (hbase : base.isAbsolute = true) : ∀ {levels : Nat}
    {path movedPath inside : String} {location : Location} {files : List (String × ByteArray)},
    Stands ⟨disk, base⟩ path location → Stands ⟨disk.moved subtree, ⟨"", []⟩⟩ movedPath location →
    (walkLevels ⟨disk, base⟩ levels path inside = .ok files ↔
      walkLevels ⟨disk.moved subtree, ⟨"", []⟩⟩ levels movedPath inside = .ok files) := by
  have hproper := Disk.isProper_of_find htop hfind
  intro levels
  induction levels with
  | zero =>
    intro path movedPath inside location files _ _
    exact Iff.rfl
  | succ levels ih =>
    intro path movedPath inside location files h hmoved
    have hself := location.under_nil
    have hresolve : resolve ⟨disk.moved subtree, ⟨"", []⟩⟩ movedPath = .ok location :=
      hmoved.resolve.trans (congrArg _ hself)
    refine walkLevels_step_iff htop hproper h.resolve hresolve
      (fun tree => Disk.find_moved hfind hfits h.relative h.no_dots) ?_
    intro entries hentries name hname found
    have hdirectory := Disk.isProper_of_find htop hentries
    have hnameProper := FileTree.isProperName_of_mem hdirectory hname
    have hagain : base.again location name = location.child name := by
      rw [Location.again, hbase, if_pos rfl]
    have hmovedAgain : Location.again ⟨"", []⟩ location name = location.child name :=
      congrArg (Location.child · name) hself
    have hchild := h.child (.inl hbase) hnameProper
    have hmovedChild := hmoved.child (.inr (by simp)) hnameProper
    dsimp only at hchild hmovedChild
    rw [hagain] at hchild
    rw [hmovedAgain, hself] at hmovedChild
    exact ih hchild hmovedChild

variable {source inside : String} {files : List (String × ByteArray)}
  (hdown : (Location.ofText source).LeadsDown)
include hdown

/-- A walk that starts at no directory looks at one location only. -/
theorem walk_moved_of_ne_directory (hfile : isDirectory ⟨disk, base⟩ source ≠ .ok true) :
    walk ⟨disk, base⟩ source inside = .ok files ↔
      walk ⟨disk.moved subtree, ⟨"", []⟩⟩ source inside = .ok files := by
  have hresolve := resolve_of_leadsDown hdown ⟨disk, base⟩
  have hmoved : resolve ⟨disk.moved subtree, ⟨"", []⟩⟩ source = .ok (Location.ofText source) :=
    (resolve_of_leadsDown hdown _).trans (congrArg _ (Location.under_nil _))
  refine walkLevels_step_iff htop (Disk.isProper_of_find htop hfind) hresolve hmoved
    (fun tree => Disk.find_moved hfind hfits hdown.relative hdown.no_dots) ?_
  intro entries hentries
  have hdirectory := (isDirectory_eq_true_iff hresolve).mpr
    ⟨Disk.hasNul_of_find htop hentries, entries, hentries⟩
  exact absurd hdirectory hfile

/-- A walk below a base that is given from the top of the disk reads the locations of entries as they are. -/
theorem walk_moved_of_absolute (hbase : base.IsNormal) (habsolute : base.isAbsolute = true)
    (hdot : (Location.ofText source).text ≠ ".") :
    walk ⟨disk, base⟩ source inside = .ok files ↔
      walk ⟨disk.moved subtree, ⟨"", []⟩⟩ source inside = .ok files := by
  have habove : (base.under (Location.ofText source)).Untilded := by
    rw [Location.under_of_relative hdown.relative]
    exact .inl habsolute
  have hstands : Stands ⟨disk, base⟩ source (Location.ofText source) :=
    stands_of_leadsDown hdown hbase habove
  have hbelow : (Location.under ⟨"", []⟩ (Location.ofText source)).Untilded := by
    rw [Location.under_nil]
    exact Location.IsPlain.untilded ⟨hdown.relative, hdot, hdown.no_tilde⟩
      (Location.isNormal_ofText source)
  have hmoved : Stands ⟨disk.moved subtree, ⟨"", []⟩⟩ source (Location.ofText source) :=
    stands_of_leadsDown hdown ⟨.inl rfl, by simp⟩ hbelow
  have hends : EndsWithin ⟨disk, base⟩ (subtree.height + 1) source :=
    hstands.endsWithin (Disk.isProper_of_find htop hfind) (.inl habsolute) hfind (Nat.le_add_left _ _)
  have hheight := Disk.height_of_find hfind
  have hlevels : walk ⟨disk, base⟩ source inside =
      walkLevels ⟨disk, base⟩ (subtree.height + 2) source inside := by
    rw [walk, hends.walkLevels_eq (by dsimp only; omega)]
    exact (hends.walkLevels_eq (Nat.le_succ _)).symm
  rw [hlevels]
  exact walkLevels_moved htop hfind hfits habsolute hstands hmoved

/-- **A walk finds the same in a directory as in the tree of the directory alone**, if it starts at no
directory, or if the directory is given from the top of the disk and the walk does not start at the
directory itself. -/
theorem walk_moved (hbase : base.IsNormal)
    (hplain : isDirectory ⟨disk, base⟩ source ≠ .ok true ∨
      base.isAbsolute = true ∧ (Location.ofText source).text ≠ ".") :
    walk ⟨disk, base⟩ source inside = .ok files ↔
      walk ⟨disk.moved subtree, ⟨"", []⟩⟩ source inside = .ok files := by
  rcases hplain with hfile | ⟨habsolute, hdot⟩
  · exact walk_moved_of_ne_directory htop hfind hfits hdown hfile
  · exact walk_moved_of_absolute htop hfind hfits hdown hbase habsolute hdot

end

end Reader
end Bindery
