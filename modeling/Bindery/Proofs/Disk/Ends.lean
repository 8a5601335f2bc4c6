/-
# Every walk ends

The location of an entry is written as a text, and the walk reads that text again: a tilde at its start is
replaced, and the base comes in front.  So a location can change completely from one level to the next,
and the depth of the tree below it need not go down.  What does grow with each level is the row of names at
the end of the location that lead down (`Location.EndsDown`), since neither change reaches behind the first
name.  Such a row is no longer than the disk is high.

No home directory may be the working directory by the name of a dot: then a tilde stands for no name at all,
and a directory that holds an entry of that name is listed again and again.
-/
import Bindery.Proofs.Disk.Descent

namespace Bindery

/-! ## 1. Locations that end in names which lead down -/

namespace Location

/-- So many names at the end of a location lead down, and they are not all of it. -/
def EndsDown (count : Nat) (location : Location) : Prop :=
  ∃ before after, location.names = before ++ after ∧ after.length = count ∧ ".." ∉ after ∧
    (⟨location.root, before⟩ : Location) ≠ ⟨"", []⟩

variable {location : Location} {count : Nat}

theorem endsDown_zero (h : location ≠ ⟨"", []⟩) : location.EndsDown 0 :=
  ⟨location.names, [], by simp, rfl, by simp, h⟩

theorem EndsDown.child (h : location.EndsDown count) {name : String} (hname : name ≠ "..") :
    (location.child name).EndsDown (count + 1) := by
  obtain ⟨before, after, hnames, rfl, hdots, hbefore⟩ := h
  refine ⟨before, after ++ [name], ?_, by simp, by simp [hdots, hname.symm], hbefore⟩
  rw [Location.child, hnames, List.append_assoc]

/-- A tilde is in the first name, which does not count. -/
theorem EndsDown.expandHome {disk : Disk} {expanded : Location} (h : location.EndsDown count)
    (hhome : ∀ user, disk.homeLocation user ≠ .ok ⟨"", []⟩)
    (hexpand : disk.expandHome location = .ok expanded) : expanded.EndsDown count := by
  rcases Disk.expandHome_cases hexpand with rfl | ⟨user, rest, home, rfl, hlocated, rfl⟩
  · exact h
  · obtain ⟨before, after, hnames, hcount, hdots, hbefore⟩ := h
    cases before with
    | nil => exact absurd rfl hbefore
    | cons tilde others =>
      rw [List.cons_append, List.cons.injEq] at hnames
      refine ⟨home.names ++ others, after, ?_, hcount, hdots, ?_⟩
      · rw [under_of_relative rfl, List.append_assoc, ← hnames.2]
      · intro heq
        rw [Location.mk.injEq, List.append_eq_nil_iff] at heq
        have hnone : home = ⟨"", []⟩ := congrArg₂ Location.mk heq.1 heq.2.1
        exact hhome _ (hnone ▸ hlocated)

theorem EndsDown.under (h : location.EndsDown count) (base : Location) :
    (base.under location).EndsDown count := by
  cases hrelative : location.isAbsolute with
  | true => rwa [under_eq_self (.inl hrelative)]
  | false =>
    obtain ⟨before, after, hnames, hcount, hdots, hbefore⟩ := h
    rw [under_of_relative hrelative]
    refine ⟨base.names ++ before, after, by rw [hnames, List.append_assoc], hcount, hdots, ?_⟩
    intro heq
    rw [Location.mk.injEq, List.append_eq_nil_iff] at heq
    rw [root_of_relative hrelative, heq.2.2] at hbefore
    exact hbefore rfl

/-- Tildes are replaced by names that have been read. -/
theorem IsNormal.expandHome {disk : Disk} {expanded : Location} (h : location.IsNormal)
    (hexpand : disk.expandHome location = .ok expanded) : expanded.IsNormal := by
  rcases Disk.expandHome_cases hexpand with rfl | ⟨user, rest, home, rfl, hlocated, rfl⟩
  · exact h
  · obtain ⟨-, directory, -, -, rfl⟩ := Disk.homeLocation_eq_ok_iff.mp hlocated
    refine (isNormal_ofText _).under ⟨.inl rfl, fun name hname => ?_⟩
    exact h.names name (List.mem_cons_of_mem _ hname)

end Location

/-- **What is found below names that lead down is lower**, by one level for each name. -/
theorem Disk.height_add_le_of_find {disk : Disk} {location : Location} {tree : FileTree} {count : Nat}
    (hdown : location.EndsDown count) (h : disk.find location = .ok tree) :
    tree.height + count ≤ disk.top.height := by
  obtain ⟨before, after, hnames, rfl, hdots, -⟩ := hdown
  have hclosed : ∀ entries, (FileTree.directory entries).height ≤ disk.top.height →
      ∀ entry ∈ entries, entry.2.height ≤ disk.top.height := fun entries hheight entry hentry =>
    Nat.le_trans (Nat.le_of_lt (FileTree.height_lt_of_mem hentry)) hheight
  obtain ⟨spot, reached, hall, hfollow, rfl⟩ :=
    Disk.exists_spot_of_find (·.height ≤ disk.top.height) hclosed (Nat.le_refl _) h
  rw [hnames, Spot.follow_append] at hfollow
  obtain ⟨middle, hmiddle, hfollow⟩ := bind_eq_ok_iff.mp hfollow
  have hseek : FileTree.seek after middle.here = .ok reached.here := by
    rw [← Spot.follow_eq_seek middle hdots, hfollow]
    rfl
  exact Nat.le_trans (FileTree.height_of_seek hseek) (hall.follow hclosed hmiddle).here

/-! ## 2. Readers -/

namespace Reader

/-- A reader of a disk that can be one, from a base that has been read; no home is a dot. -/
structure IsProper (reader : Reader) : Prop where
  top : reader.disk.top.isProper = true
  base : reader.base.IsNormal
  home : ∀ user, reader.disk.homeLocation user ≠ .ok ⟨"", []⟩

variable {reader : Reader} {path : String} {location : Location}

theorem IsProper.isNormal_of_resolve (h : reader.IsProper) (hresolve : reader.resolve path = .ok location) :
    location.IsNormal := by
  obtain ⟨expanded, hexpand, rfl⟩ := map_eq_ok_iff.mp hresolve
  exact h.base.under ((Location.isNormal_ofText path).expandHome hexpand)

theorem IsProper.endsDown_of_resolve (h : reader.IsProper) {count : Nat}
    (hdown : (Location.ofText path).EndsDown count) (hresolve : reader.resolve path = .ok location) :
    location.EndsDown count := by
  obtain ⟨expanded, hexpand, rfl⟩ := map_eq_ok_iff.mp hresolve
  exact (hdown.expandHome h.home hexpand).under reader.base

/-- What is listed at a path are the texts of proper names below the location that is found there. -/
theorem IsProper.exists_of_listed (h : reader.IsProper) {listed : List (String × String)}
    {entry : String × String} (hdirectory : reader.isDirectory path = .ok true)
    (hlist : reader.list path = .ok listed) (hentry : entry ∈ listed) :
    ∃ location entries, reader.resolve path = .ok location ∧ location.IsNormal ∧
      reader.disk.find location = .ok (.directory entries) ∧ FileTree.isProperName entry.1 = true ∧
      Location.ofText entry.2 = location.child entry.1 := by
  obtain ⟨location, hresolve, -⟩ := bind_eq_ok_iff.mp hdirectory
  obtain ⟨-, entries, hfind, rfl⟩ := (list_eq_ok_iff hresolve).mp hlist
  obtain ⟨name, hname, rfl⟩ := List.mem_map.mp hentry
  have hproper := FileTree.isProperName_of_mem (Disk.isProper_of_find h.top hfind) hname
  have hnormal := h.isNormal_of_resolve hresolve
  exact ⟨location, entries, hresolve, hnormal, hfind, hproper, (hnormal.child hproper).ofText_text⟩

/-! ## 3. Walks -/

/-- A walk goes no deeper than the disk is high, less the names that already lead down. -/
theorem IsProper.endsWithin_of_endsDown (h : reader.IsProper) : ∀ {levels count : Nat} {path : String},
    (∀ location, reader.resolve path = .ok location → location.EndsDown count) →
    reader.disk.top.height ≤ levels + count → reader.EndsWithin (levels + 1) path := by
  intro levels
  induction levels with
  | zero =>
    intro count path hdown hheight
    refine .step fun listed hdirectory hlist entry hentry => ?_
    obtain ⟨location, entries, hresolve, -, hfind, -⟩ := h.exists_of_listed hdirectory hlist hentry
    have hbound := Disk.height_add_le_of_find (hdown location hresolve) hfind
    rw [FileTree.height] at hbound
    omega
  | succ levels ih =>
    intro count path hdown hheight
    refine .step fun listed hdirectory hlist entry hentry => ?_
    obtain ⟨location, entries, hresolve, hnormal, hfind, hproper, hread⟩ :=
      h.exists_of_listed hdirectory hlist hentry
    have hname := (FileTree.isProperName_iff.mp hproper).1.ne_dots
    have hchild : (Location.ofText entry.2).EndsDown (count + 1) :=
      hread ▸ (hdown location hresolve).child hname
    exact ih (fun below hbelow => h.endsDown_of_resolve hchild hbelow) (by omega)

/-- **Every walk ends within the levels that `walk` has**, wherever it begins. -/
theorem IsProper.endsWithin (h : reader.IsProper) (path : String) :
    reader.EndsWithin (reader.disk.top.height + 2) path := by
  refine .step fun listed hdirectory hlist entry hentry => ?_
  obtain ⟨location, -, -, -, -, -, hread⟩ := h.exists_of_listed hdirectory hlist hentry
  -- Where the walk begins there may be no name, but a listed entry has one.
  have hchild : (Location.ofText entry.2).EndsDown 0 :=
    Location.endsDown_zero (by simp [hread, Location.child])
  exact h.endsWithin_of_endsDown (fun below hbelow => h.endsDown_of_resolve hchild hbelow) (Nat.le_refl _)

end Reader
end Bindery
