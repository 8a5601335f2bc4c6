/-
# Walks from a base directory

A walk that leads down from the base directory never leaves it.  The location of an entry, read again,
stands below the base directory once more (`Reader.Stands.child`): at the entry if the base is given from
the top of the disk, and below a second copy of the base if it is given from the working directory.  So such
a walk depends on the tree at the base alone (`Reader.walk_eq_of_find_eq`).
-/
import Bindery.Proofs.Disk.Descent

namespace Bindery

/-! ## 1. Locations below the base -/

namespace Location

variable {base location : Location}

theorem IsNormal.of_under (hrelative : location.isAbsolute = false)
    (h : (base.under location).IsNormal) : base.IsNormal := by
  rw [under_of_relative hrelative] at h
  exact ⟨h.root, fun name hname => h.names name (List.mem_append_left _ hname)⟩

theorem LeadsDown.expandHome (h : location.LeadsDown) (hnormal : location.IsNormal) (disk : Disk) :
    disk.expandHome location = .ok location := by
  obtain ⟨root, names⟩ := location
  obtain rfl : root = "" := root_of_relative h.relative
  cases names with
  | nil => rfl
  | cons first rest =>
    have hplain : IsPlain ⟨"", first :: rest⟩ := by
      refine ⟨h.relative, ?_, h.no_tilde⟩
      intro hdot
      have hread := hnormal.ofText_text
      rw [hdot] at hread
      exact List.cons_ne_nil _ _ (congrArg names hread).symm
    exact (hplain.untilded hnormal).expandHome disk

theorem under_child (h : location.isAbsolute = false) (name : String) :
    base.under (location.child name) = (base.under location).child name := by
  have hchild : (location.child name).isAbsolute = false := h
  rw [under_of_relative hchild, under_of_relative h, child, child, List.append_assoc]

/-- Below itself once more a location starts as it did. -/
theorem Untilded.again (h : (base.under location).Untilded) (hrelative : location.isAbsolute = false)
    (hbase : base.isAbsolute = false) (name : String) :
    (base.under ((base.under location).child name)).Untilded := by
  have hbelow : ((base.under location).child name).Untilded := h.child name
  have hchild : ((base.under location).child name).isAbsolute = false := by
    rw [under_of_relative hrelative]
    exact hbase
  rw [under_of_relative hchild]
  rw [under_of_relative hrelative] at hbelow ⊢
  rcases hbelow with habsolute | ⟨first, rest, hnames, hfirst⟩
  · exact .inl habsolute
  · cases hbaseNames : base.names with
    | nil =>
      rw [hbaseNames] at hnames
      exact .inr ⟨first, rest, hnames, hfirst⟩
    | cons other others =>
      rw [hbaseNames, Location.child, List.cons_append, List.cons_append, List.cons.injEq] at hnames
      obtain ⟨rfl, -⟩ := hnames
      exact .inr ⟨other, _, by rw [List.cons_append], hfirst⟩

/-- A base directory from which no walk climbs: given from the top of the disk, or without `..`. -/
def StaysBelow (base : Location) : Prop :=
  base.isAbsolute = true ∨ ".." ∉ base.names

/-- Where the location of an entry stands below the base when it is read again. -/
def again (base location : Location) (name : String) : Location :=
  if base.isAbsolute then location.child name else (base.under location).child name

theorem length_again (hrelative : location.isAbsolute = false) (name : String) :
    location.names.length < (base.again location name).names.length := by
  unfold again
  split
  · simp [child]
  · rw [under_of_relative hrelative]
    simp only [child, List.length_append, List.length_singleton]
    omega

end Location

namespace Reader

/-- A path is resolved to a location that leads down from the base. -/
structure Stands (reader : Reader) (path : String) (location : Location) : Prop where
  resolve : reader.resolve path = .ok (reader.base.under location)
  relative : location.isAbsolute = false
  no_dots : ".." ∉ location.names
  normal : (reader.base.under location).IsNormal
  untilded : (reader.base.under location).Untilded

variable {reader : Reader} {path inside : String} {location : Location} {subtree : FileTree}

/-- A path that leads down is resolved below the base, whether it names an entry or the base itself. -/
theorem resolve_of_leadsDown (hdown : (Location.ofText path).LeadsDown) (reader : Reader) :
    reader.resolve path = .ok (reader.base.under (Location.ofText path)) := by
  rw [Reader.resolve, hdown.expandHome (Location.isNormal_ofText path)]
  rfl

theorem stands_of_leadsDown (hdown : (Location.ofText path).LeadsDown) (hbase : reader.base.IsNormal)
    (huntilded : (reader.base.under (Location.ofText path)).Untilded) :
    reader.Stands path (Location.ofText path) where
  resolve := resolve_of_leadsDown hdown reader
  relative := hdown.relative
  no_dots := hdown.no_dots
  normal := hbase.under (Location.isNormal_ofText path)
  untilded := huntilded

/-- The location of an entry below a base that is given from the top of the disk is read as itself. -/
theorem Stands.child_of_absolute (h : reader.Stands path location)
    (hbase : reader.base.isAbsolute = true) {name : String}
    (hname : FileTree.isProperName name = true) :
    reader.Stands ((reader.base.under location).child name).text (location.child name) where
  resolve := by
    rw [Location.under_child h.relative]
    refine resolve_text (h.normal.child hname) (h.untilded.child name) (.inl ?_)
    rw [Location.under_of_relative h.relative]
    exact hbase
  relative := h.relative
  no_dots := by
    have hdots : ".." ≠ name := (FileTree.isProperName_iff.mp hname).1.ne_dots.symm
    simp [Location.child, h.no_dots, hdots]
  normal := Location.under_child h.relative name ▸ h.normal.child hname
  untilded := Location.under_child h.relative name ▸ h.untilded.child name

/-- The location of an entry below any other base is read below the base once more. -/
theorem Stands.child_of_relative (h : reader.Stands path location)
    (hbase : reader.base.isAbsolute = false) (hbaseDots : ".." ∉ reader.base.names) {name : String}
    (hname : FileTree.isProperName name = true) :
    reader.Stands ((reader.base.under location).child name).text
      ((reader.base.under location).child name) where
  resolve := by
    have hread := (h.normal.child hname).ofText_text
    have hresolve : reader.resolve _ = _ := resolve_eq (hread.symm ▸ h.untilded.child name)
    rwa [hread] at hresolve
  relative := by
    rw [Location.under_of_relative h.relative]
    exact hbase
  no_dots := by
    have hdots : ".." ≠ name := (FileTree.isProperName_iff.mp hname).1.ne_dots.symm
    rw [Location.under_of_relative h.relative]
    simp [Location.child, h.no_dots, hdots, hbaseDots]
  normal := (Location.IsNormal.of_under h.relative h.normal).under (h.normal.child hname)
  untilded := h.untilded.again h.relative hbase name

/-- **The location of an entry leads down from the base again.** -/
theorem Stands.child (h : reader.Stands path location) (hbase : reader.base.StaysBelow) {name : String}
    (hname : FileTree.isProperName name = true) :
    reader.Stands ((reader.base.under location).child name).text
      (reader.base.again location name) := by
  unfold Location.again
  split
  · rename_i habsolute
    exact h.child_of_absolute habsolute hname
  · rename_i hrelative
    exact h.child_of_relative (Bool.eq_false_iff.mpr hrelative) (hbase.resolve_left hrelative) hname

/-! ## 2. What stands below the base -/

/-- What a path below the base leads to, by the tree at the base. -/
theorem find_of_stands (hfind : reader.disk.find reader.base = .ok subtree)
    (h : reader.Stands path location) : reader.disk.find (reader.base.under location) =
      if maxLocationBytes ≤ (reader.base.under location).text.utf8ByteSize then .error .nameTooLong
      else subtree.seek location.names :=
  Disk.find_under hfind h.relative h.no_dots

theorem seek_of_find {tree : FileTree} (hfind : reader.disk.find reader.base = .ok subtree)
    (h : reader.Stands path location)
    (htree : reader.disk.find (reader.base.under location) = .ok tree) :
    subtree.seek location.names = .ok tree := by
  rw [find_of_stands hfind h] at htree
  split at htree
  · cases htree
  · exact htree

/-- **A walk that leads down from the base ends**: each location is longer than the one before. -/
theorem Stands.endsWithin (hproper : subtree.isProper = true) (hbase : reader.base.StaysBelow)
    (hfind : reader.disk.find reader.base = .ok subtree) : ∀ {levels : Nat} {path : String}
    {location : Location}, reader.Stands path location →
    subtree.height ≤ location.names.length + levels → reader.EndsWithin (levels + 1) path := by
  intro levels
  induction levels with
  | zero =>
    intro path location h hheight
    refine .step fun listed hdirectory _ _ _ => ?_
    obtain ⟨-, entries, hentries⟩ := (isDirectory_eq_true_iff h.resolve).mp hdirectory
    have hbelow := FileTree.height_of_seek (seek_of_find hfind h hentries)
    rw [FileTree.height] at hbelow
    omega
  | succ levels ih =>
    intro path location h hheight
    refine .step fun listed _ hlist entry hentry => ?_
    obtain ⟨-, entries, hentries, rfl⟩ := (list_eq_ok_iff h.resolve).mp hlist
    obtain ⟨name, hname, rfl⟩ := List.mem_map.mp hentry
    have hdirectory := FileTree.isProper_of_seek hproper (seek_of_find hfind h hentries)
    have hchild := h.child hbase (FileTree.isProperName_of_mem hdirectory hname)
    have hlonger : location.names.length < (reader.base.again location name).names.length :=
      Location.length_again h.relative name
    exact ih hchild (by omega)

/-! ## 3. Two disks -/

section Disks

variable {disk other : Disk} {base : Location}

/-- A walk that leads down from the base finds the same, or stops for the same reason, on two disks that have
the same tree at the base. -/
theorem walkLevels_eq_of_find_eq (hproper : subtree.isProper = true) (hbase : base.StaysBelow)
    (hfind : disk.find base = .ok subtree) (hother : other.find base = .ok subtree) :
    ∀ {levels : Nat} {path inside : String} {location : Location},
      Stands ⟨disk, base⟩ path location → Stands ⟨other, base⟩ path location →
      walkLevels ⟨disk, base⟩ levels path inside = walkLevels ⟨other, base⟩ levels path inside := by
  intro levels
  induction levels with
  | zero =>
    intro path inside location _ _
    rfl
  | succ levels ih =>
    intro path inside location h hsame
    have hfound : disk.find (base.under location) = other.find (base.under location) :=
      (find_of_stands hfind h).trans (find_of_stands hother hsame).symm
    obtain ⟨hdirectory, hlist, hread⟩ := agree_of_find_eq h.resolve hsame.resolve hfound
    refine walkLevels_congr hdirectory hlist hread fun listed _ hlisted entry hentry => ?_
    obtain ⟨-, entries, hentries, rfl⟩ := (list_eq_ok_iff hsame.resolve).mp hlisted
    obtain ⟨name, hname, rfl⟩ := List.mem_map.mp hentry
    have hproperBelow := FileTree.isProper_of_seek hproper (seek_of_find hother hsame hentries)
    have hnameProper := FileTree.isProperName_of_mem hproperBelow hname
    exact ih (h.child hbase hnameProper) (hsame.child hbase hnameProper)

/-- **A walk that leads down from the base depends on the tree at the base alone.** -/
theorem walk_eq_of_find_eq (hproper : subtree.isProper = true) (hbase : base.StaysBelow)
    (hfind : disk.find base = .ok subtree) (hother : other.find base = .ok subtree)
    (h : Stands ⟨disk, base⟩ path location) (hsame : Stands ⟨other, base⟩ path location) :
    walk ⟨disk, base⟩ path inside = walk ⟨other, base⟩ path inside := by
  have hends : EndsWithin ⟨disk, base⟩ (subtree.height + 1) path :=
    h.endsWithin hproper hbase hfind (Nat.le_add_left _ _)
  have hotherEnds : EndsWithin ⟨other, base⟩ (subtree.height + 1) path :=
    hsame.endsWithin hproper hbase hother (Nat.le_add_left _ _)
  have hheight := Disk.height_of_find hfind
  have hotherHeight := Disk.height_of_find hother
  rw [walk, walk, hends.walkLevels_eq (by dsimp only; omega),
    hotherEnds.walkLevels_eq (by dsimp only; omega)]
  exact walkLevels_eq_of_find_eq hproper hbase hfind hother h hsame

end Disks

end Reader
end Bindery
