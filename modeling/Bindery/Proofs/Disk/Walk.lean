/-
# What a walk over files finds

A walk finds a file where there is no directory, and else what the walks over the entries of the
directory find (`walkLevels_eq_ok_iff`).  A path with the character U+0000 leads nowhere, so no name
with that character is ever found, whatever the names on the disk are (`walk_no_nul`).
-/
import Bindery.Disk.Reader
import Bindery.Proofs.Disk.Home
import Bindery.Proofs.EntryPath.Segments

namespace Bindery

/-! ## 1. Locations with U+0000 -/

namespace Location

/-- Reading a location drops empty names and dots, and no other character but the slashes. -/
theorem exists_mem_names {text : String} {c : Char} (hc : c ∈ text.toList) (hslash : c ≠ '/')
    (hdot : c ≠ '.') : ∃ name ∈ (ofText text).names, c ∈ name.toList := by
  rw [← EntryPath.ofSegments_segments text] at hc
  obtain ⟨segment, hsegment, hmem⟩ := (EntryPath.mem_ofSegments hc).resolve_left hslash
  refine ⟨segment, List.mem_filter.mpr ⟨hsegment, ?_⟩, hmem⟩
  rw [decide_eq_true_eq]
  constructor
  · rintro rfl
    simp at hmem
  · rintro rfl
    simp [hdot] at hmem

theorem mem_of_mem_names {text name : String} {c : Char} (hname : name ∈ (ofText text).names)
    (hc : c ∈ name.toList) : c ∈ text.toList :=
  EntryPath.mem_of_mem_segments (List.mem_filter.mp hname).1 hc

theorem mem_text_child {directory : Location} {name : String} {c : Char} (hc : c ∈ name.toList) :
    c ∈ (directory.child name).text.toList := by
  have hnames : ¬((directory.child name).root = "" ∧ (directory.child name).names = []) := by
    simp [child]
  rw [text, if_neg hnames, String.toList_append, List.mem_append]
  exact .inr (EntryPath.mem_ofSegments_of_mem hc (by simp [child]))

end Location

namespace Disk

theorem hasNul_iff {location : Location} :
    hasNul location = true ↔ ∃ name ∈ location.names, '\x00' ∈ name.toList := by
  simp [hasNul]

/-- What takes the place of a tilde and a user's name takes no other name away. -/
theorem hasNul_of_expandHome {disk : Disk} {location expanded : Location}
    (hnul : hasNul location = true) (h : disk.expandHome location = .ok expanded) :
    hasNul expanded = true := by
  rcases expandHome_cases h with rfl | ⟨user, rest, home, rfl, hhome, rfl⟩
  · exact hnul
  · obtain ⟨name, hname, hmem⟩ := hasNul_iff.mp hnul
    rcases List.mem_cons.mp hname with rfl | hname
    · rw [String.toList_ofList, List.mem_cons] at hmem
      have huser := (homeLocation_eq_ok_iff.mp hhome).1
      rw [String.toList_ofList] at huser
      exact absurd (hmem.resolve_left (by decide)) huser
    · exact hasNul_iff.mpr ⟨name, List.mem_append_right home.names hname, hmem⟩

end Disk

namespace Reader

variable {reader : Reader} {path inside : String} {files : List (String × ByteArray)}

theorem hasNul_of_resolve {location : Location} (hpath : '\x00' ∈ path.toList)
    (h : reader.resolve path = .ok location) : Disk.hasNul location = true := by
  obtain ⟨expanded, hexpand, rfl⟩ := map_eq_ok_iff.mp h
  obtain ⟨name, hname, hmem⟩ := Location.exists_mem_names hpath (by decide) (by decide)
  have hnul := Disk.hasNul_of_expandHome (Disk.hasNul_iff.mpr ⟨name, hname, hmem⟩) hexpand
  obtain ⟨name, hname, hmem⟩ := Disk.hasNul_iff.mp hnul
  refine Disk.hasNul_iff.mpr ⟨name, ?_, hmem⟩
  unfold Location.under
  split
  · exact hname
  · exact List.mem_append_right _ hname

/-! ## 2. Steps of a walk -/

theorem read_ne_ok_of_nul (hpath : '\x00' ∈ path.toList) (data : ByteArray) :
    reader.read path ≠ .ok data := by
  intro h
  obtain ⟨location, hresolve, h⟩ := bind_eq_ok_iff.mp h
  rw [hasNul_of_resolve hpath hresolve] at h
  cases h

theorem list_ne_ok_of_nul (hpath : '\x00' ∈ path.toList) (entries : List (String × String)) :
    reader.list path ≠ .ok entries := by
  intro h
  obtain ⟨location, hresolve, h⟩ := bind_eq_ok_iff.mp h
  rw [hasNul_of_resolve hpath hresolve] at h
  cases h

/-- The entries of a directory come with their names and the locations in the directory. -/
theorem exists_child_of_list {entries : List (String × String)} {entry : String × String}
    (h : reader.list path = .ok entries) (hentry : entry ∈ entries) :
    ∃ directory : Location, entry.2 = (directory.child entry.1).text := by
  obtain ⟨location, -, h⟩ := bind_eq_ok_iff.mp h
  by_cases hnul : Disk.hasNul location = true
  · rw [if_pos hnul] at h
    cases h
  · rw [if_neg hnul] at h
    split at h
    · cases h
      obtain ⟨name, -, rfl⟩ := List.mem_map.mp hentry
      exact ⟨location, rfl⟩
    · cases h
    · cases h

/-- What one step of a walk does. -/
theorem walkLevels_eq_ok_iff {levels : Nat} :
    reader.walkLevels (levels + 1) path inside = .ok files ↔
      (reader.isDirectory path = .ok false ∧
        ∃ data, reader.read path = .ok data ∧ files = [(inside, data)]) ∨
      (reader.isDirectory path = .ok true ∧ ∃ entries, reader.list path = .ok entries ∧
        ∃ found, (entries.mapM fun entry =>
            reader.walkLevels levels entry.2 (EntryPath.join inside entry.1)) = .ok found ∧
          files = found.flatten) := by
  simp only [walkLevels, bind_eq_ok_iff]
  constructor
  · rintro ⟨isDirectory, hdirectory, h⟩
    cases isDirectory with
    | false =>
      obtain ⟨data, hread, h⟩ := bind_eq_ok_iff.mp h
      exact .inl ⟨hdirectory, data, hread, (pure_eq_ok_iff.mp h).symm⟩
    | true =>
      obtain ⟨entries, hlist, h⟩ := bind_eq_ok_iff.mp h
      obtain ⟨found, hfound, h⟩ := bind_eq_ok_iff.mp h
      exact .inr ⟨hdirectory, entries, hlist, found, hfound, (pure_eq_ok_iff.mp h).symm⟩
  · rintro (⟨hdirectory, data, hread, rfl⟩ | ⟨hdirectory, entries, hlist, found, hfound, rfl⟩)
    · refine ⟨false, hdirectory, ?_⟩
      simp [hread, pure, Except.pure, bind, Except.bind]
    · refine ⟨true, hdirectory, ?_⟩
      simp [hlist, hfound, pure, Except.pure, bind, Except.bind]

/-- A file that is no directory is all that is found. -/
theorem walk_file (h : reader.isDirectory path = .ok false) :
    reader.walk path inside = .ok files ↔
      ∃ data, reader.read path = .ok data ∧ files = [(inside, data)] := by
  rw [walk, walkLevels_eq_ok_iff]
  simp [h]

/-! ## 3. What is found -/

/-- Nothing is found at a path with U+0000. -/
theorem eq_nil_of_walkLevels_nul (hpath : '\x00' ∈ path.toList) : ∀ {levels : Nat},
    reader.walkLevels levels path inside = .ok files → files = []
  | 0, h => (Except.ok.inj h).symm
  | levels + 1, h => by
    rcases walkLevels_eq_ok_iff.mp h with ⟨-, data, hread, -⟩ | ⟨-, entries, hlist, -⟩
    · exact absurd hread (read_ne_ok_of_nul hpath data)
    · exact absurd hlist (list_ne_ok_of_nul hpath entries)

theorem walkLevels_no_nul : ∀ {levels : Nat} {path inside : String}
    {files : List (String × ByteArray)}, '\x00' ∉ inside.toList →
    reader.walkLevels levels path inside = .ok files → ∀ file ∈ files, '\x00' ∉ file.1.toList
  | 0, _, _, _, _, h => by
    cases h
    simp
  | levels + 1, path, inside, files, hinside, h => by
    rcases walkLevels_eq_ok_iff.mp h with ⟨-, data, -, rfl⟩ | ⟨-, entries, hlist, found, hfound, rfl⟩
    · simpa using hinside
    · intro file hfile
      obtain ⟨below, hbelow, hfile⟩ := List.mem_flatten.mp hfile
      obtain ⟨entry, hentry, hwalk⟩ := exists_of_mem_mapM hfound hbelow
      by_cases hname : '\x00' ∈ entry.1.toList
      · -- The name is part of the location that is walked, and there nothing is found.
        obtain ⟨directory, hlocation⟩ := exists_child_of_list hlist hentry
        have hnil := eq_nil_of_walkLevels_nul
          (hlocation ▸ Location.mem_text_child hname) hwalk
        simp [hnil] at hfile
      · refine walkLevels_no_nul (fun hmem => ?_) hwalk file hfile
        rcases EntryPath.mem_of_mem_join hmem with hslash | hmem | hmem
        · exact absurd hslash (by decide)
        · exact hinside hmem
        · exact hname hmem

/-- **No name with U+0000 is found** if the archive path that the walk begins with has that character
only where the path on disk has it. -/
theorem walk_no_nul (hinside : '\x00' ∈ inside.toList → '\x00' ∈ path.toList)
    (h : reader.walk path inside = .ok files) : ∀ file ∈ files, '\x00' ∉ file.1.toList := by
  by_cases hmem : '\x00' ∈ inside.toList
  · have hnil := eq_nil_of_walkLevels_nul (hinside hmem) h
    simp [hnil]
  · exact walkLevels_no_nul hmem h

/-! ## 4. What stops a walk -/

/-- A fault of the disk: of reading it or of saying where to read. -/
def IsDiskFault : Fault → Prop
  | .refused _ | .file _ | .pathWithNul | .unknownUser => True
  | _ => False

/-- A path has no location if its tilde stands for nobody's home. -/
theorem fault_of_resolve {fault : Fault} (h : reader.resolve path = .error fault) :
    fault = .pathWithNul ∨ fault = .unknownUser :=
  Disk.fault_of_expandHome (map_eq_error_iff.mp h)

theorem isDiskFault_of_resolve {fault : Fault} (h : reader.resolve path = .error fault) :
    IsDiskFault fault := by
  rcases fault_of_resolve h with rfl | rfl
  · trivial
  · trivial

theorem isDiskFault_of_isDirectory {fault : Fault} (h : reader.isDirectory path = .error fault) :
    IsDiskFault fault := by
  rcases bind_eq_error_iff.mp h with h | ⟨location, -, h⟩
  · exact isDiskFault_of_resolve h
  · by_cases hnul : Disk.hasNul location = true
    · rw [if_pos hnul] at h
      cases h
    · rw [if_neg hnul] at h
      split at h
      all_goals cases h
      trivial

theorem isDiskFault_of_read {fault : Fault} (h : reader.read path = .error fault) :
    IsDiskFault fault := by
  rcases bind_eq_error_iff.mp h with h | ⟨location, -, h⟩
  · exact isDiskFault_of_resolve h
  · by_cases hnul : Disk.hasNul location = true
    · rw [if_pos hnul] at h
      cases h
      trivial
    · rw [if_neg hnul] at h
      split at h
      all_goals cases h
      all_goals trivial

theorem isDiskFault_of_list {fault : Fault} (h : reader.list path = .error fault) :
    IsDiskFault fault := by
  rcases bind_eq_error_iff.mp h with h | ⟨location, -, h⟩
  · exact isDiskFault_of_resolve h
  · by_cases hnul : Disk.hasNul location = true
    · rw [if_pos hnul] at h
      cases h
      trivial
    · rw [if_neg hnul] at h
      split at h
      all_goals cases h
      all_goals trivial

/-- **Only the disk stops a walk.** -/
theorem isDiskFault_of_walkLevels {fault : Fault} : ∀ {levels : Nat} {path inside : String},
    reader.walkLevels levels path inside = .error fault → IsDiskFault fault
  | 0, _, _, h => by cases h
  | levels + 1, path, inside, h => by
    rcases bind_eq_error_iff.mp h with h | ⟨isDirectory, -, h⟩
    · exact isDiskFault_of_isDirectory h
    cases isDirectory with
    | false =>
      rcases bind_eq_error_iff.mp h with h | ⟨data, -, h⟩
      · exact isDiskFault_of_read h
      · cases h
    | true =>
      rcases bind_eq_error_iff.mp h with h | ⟨entries, -, h⟩
      · exact isDiskFault_of_list h
      rcases bind_eq_error_iff.mp h with h | ⟨found, -, h⟩
      · obtain ⟨entry, -, hentry⟩ := exists_of_mapM_eq_error h
        exact isDiskFault_of_walkLevels hentry
      · cases h

end Reader
end Bindery
