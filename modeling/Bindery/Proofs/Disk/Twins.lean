/-
# Names that differ by case on disk

All that a walk finds lies below the path that it begins with, each file on its own way down
(`Reader.prefix_of_walkLevels`).  Two files part in some directory, at two names.  So one of them is above the
other only if these two names differ by case alone (`Reader.partAtTwins_of_walkLevels`, by induction on the
levels), which some disks allow.
-/
import Bindery.Disk.Stops
import Bindery.Proofs.Disk.Opened
import Bindery.Proofs.EntryPath.Above

namespace Bindery

open EntryPath Text

/-- The path of an entry of a directory has the name of the entry as its last segment. -/
theorem EntryPath.segments_join_name {inside name : String}
    (hinside : ∀ segment ∈ segments inside, IsName segment) (hname : IsName name) :
    segments (join inside name) = segments inside ++ [name] := by
  have hsingle : segments name = [name] := by
    have h : segments (ofSegments [name]) = [name] :=
      segments_ofSegments (by simp) (by simpa using hname.no_slash)
    rwa [ofSegments, String.intercalate_singleton] at h
  have hjoin : join inside name = inside ++ "/" ++ name := (join_name hinside hname).1
  rw [hjoin, segments_below, hsingle]

namespace Reader

/-- In one of some directories two names differ by case alone, and two paths go on with one of them each. -/
def PartAtTwins (reader : Reader) (directories : List String) (upper lower : String) : Prop :=
  ∃ directory ∈ directories, ∃ listed, reader.list directory = .ok listed ∧
    ∃ left ∈ listed.map (·.1), ∃ right ∈ listed.map (·.1),
      left ≠ right ∧ foldCase left = foldCase right ∧
        ∃ front, front ++ [left] <+: segments upper ∧ front ++ [right] <+: segments lower

variable {reader : Reader}

theorem PartAtTwins.mono {directories more : List String} {upper lower : String}
    (h : reader.PartAtTwins directories upper lower) (hmore : directories ⊆ more) :
    reader.PartAtTwins more upper lower := by
  obtain ⟨directory, hdirectory, htwins⟩ := h
  exact ⟨directory, hmore hdirectory, htwins⟩

/-- The entries of a directory have proper names, and each name has one entry. -/
theorem of_mem_listed (htop : reader.disk.top.isProper = true) {path : String}
    {listed : List (String × String)} (hdirectory : reader.isDirectory path = .ok true)
    (hlist : reader.list path = .ok listed) :
    (∀ entry ∈ listed, IsName entry.1) ∧
      ∀ left ∈ listed, ∀ right ∈ listed, left.1 = right.1 → left = right := by
  obtain ⟨location, hresolve, -⟩ := bind_eq_ok_iff.mp hdirectory
  obtain ⟨-, entries, hfind, rfl⟩ := (list_eq_ok_iff hresolve).mp hlist
  constructor
  · intro entry hentry
    obtain ⟨name, hname, rfl⟩ := List.mem_map.mp hentry
    have hproper := FileTree.isProperName_of_mem (Disk.isProper_of_find htop hfind) hname
    exact (FileTree.isProperName_iff.mp hproper).1
  · intro left hleft right hright heq
    obtain ⟨name, -, rfl⟩ := List.mem_map.mp hleft
    obtain ⟨other, -, rfl⟩ := List.mem_map.mp hright
    obtain rfl : name = other := heq
    rfl

/-- All that a walk finds lies below the path that it begins with. -/
theorem prefix_of_walkLevels (htop : reader.disk.top.isProper = true) :
    ∀ {levels : Nat} {path inside : String} {found : List (String × ByteArray)},
      (∀ segment ∈ segments inside, IsName segment) →
      reader.walkLevels levels path inside = .ok found →
      ∀ file ∈ found, segments inside <+: segments file.1
  | 0, _, _, _, _, h => by
    cases h
    simp
  | levels + 1, path, inside, _, hinside, h => by
    rcases walkLevels_eq_ok_iff.mp h with
      ⟨-, data, -, rfl⟩ | ⟨hdirectory, listed, hlist, parts, hparts, rfl⟩
    · intro file hfile
      rw [List.mem_singleton.mp hfile]
    · intro file hfile
      obtain ⟨part, hpart, hfile⟩ := List.mem_flatten.mp hfile
      obtain ⟨entry, hentry, hwalk⟩ := exists_of_mem_mapM hparts hpart
      have hname := (of_mem_listed htop hdirectory hlist).1 entry hentry
      have hbelow := prefix_of_walkLevels htop (join_name hinside hname).2 hwalk file hfile
      rw [segments_join_name hinside hname] at hbelow
      exact (List.prefix_append _ _).trans hbelow

/-- **Of the files that a walk finds one is above another only where names differ by case alone.** -/
theorem partAtTwins_of_walkLevels (htop : reader.disk.top.isProper = true) :
    ∀ {levels : Nat} {path inside : String} {found : List (String × ByteArray)},
      (∀ segment ∈ segments inside, IsName segment) →
      reader.walkLevels levels path inside = .ok found →
      ∀ upper ∈ found, ∀ lower ∈ found, IsAbove upper.1 lower.1 →
        reader.PartAtTwins (reader.descentLevels levels path) upper.1 lower.1
  | 0, _, _, _, _, h => by
    cases h
    simp
  | levels + 1, path, inside, _, hinside, h => by
    intro upper hupper lower hlower habove
    rcases walkLevels_eq_ok_iff.mp h with
      ⟨-, data, -, rfl⟩ | ⟨hdirectory, listed, hlist, parts, hparts, rfl⟩
    · rw [List.mem_singleton.mp hupper, List.mem_singleton.mp hlower] at habove
      exact absurd habove (IsAbove.irrefl inside)
    · obtain ⟨upperPart, hupperPart, hupper⟩ := List.mem_flatten.mp hupper
      obtain ⟨lowerPart, hlowerPart, hlower⟩ := List.mem_flatten.mp hlower
      obtain ⟨left, hleft, hupperWalk⟩ := exists_of_mem_mapM hparts hupperPart
      obtain ⟨right, hright, hlowerWalk⟩ := exists_of_mem_mapM hparts hlowerPart
      obtain ⟨hnames, hone⟩ := of_mem_listed htop hdirectory hlist
      by_cases hname : left.1 = right.1
      · -- The files part further down, in the directory of this one entry.
        obtain rfl := hone left hleft right hright hname
        obtain rfl : upperPart = lowerPart := Except.ok.inj (hupperWalk.symm.trans hlowerWalk)
        have hbelow := partAtTwins_of_walkLevels htop (join_name hinside (hnames left hleft)).2
          hupperWalk upper hupper lower hlower habove
        have hlisted : reader.below path = listed.map (·.2) := by
          rw [below, hdirectory, hlist]
        refine hbelow.mono fun directory hmem => ?_
        rw [descentLevels, hlisted]
        exact List.mem_cons_of_mem _
          (List.mem_flatMap.mpr ⟨left.2, List.mem_map_of_mem hleft, hmem⟩)
      · have hupperPrefix := prefix_of_walkLevels htop (join_name hinside (hnames left hleft)).2
          hupperWalk upper hupper
        have hlowerPrefix := prefix_of_walkLevels htop (join_name hinside (hnames right hright)).2
          hlowerWalk lower hlower
        rw [segments_join_name hinside (hnames left hleft)] at hupperPrefix
        rw [segments_join_name hinside (hnames right hright)] at hlowerPrefix
        exact ⟨path, List.mem_cons_self, listed, hlist, left.1, List.mem_map_of_mem hleft,
          right.1, List.mem_map_of_mem hright, hname,
          habove.foldCase_eq hupperPrefix hlowerPrefix, segments inside, hupperPrefix, hlowerPrefix⟩

end Reader
end Bindery
