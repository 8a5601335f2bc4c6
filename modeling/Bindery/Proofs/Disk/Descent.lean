/-
# Walks go down

What a step of a walk does is settled by what is found at the location of its path
(`Reader.walkLevels_eq_ok_iff_find`).  A walk that ends within some levels of directories finds the same
with more of them (`Reader.EndsWithin.walkLevels_eq`).  It does end where the location of an entry, read
again, is the location of the entry (`Reader.endsWithin_of_height`), since the tree that is found gets
lower.
-/
import Bindery.Proofs.Disk.Find

namespace Bindery

/-- The names in a directory, in the order in which they are walked. -/
def FileTree.orderedNames (entries : List (String × FileTree)) : List String :=
  (entries.map (·.1)).mergeSort fun left right => decide (left ≤ right)

theorem FileTree.orderedNames_perm (entries : List (String × FileTree)) :
    (orderedNames entries).Perm (entries.map (·.1)) :=
  List.mergeSort_perm _ _

theorem FileTree.isProperName_of_mem {entries : List (String × FileTree)} {name : String}
    (hproper : (FileTree.directory entries).isProper = true) (h : name ∈ orderedNames entries) :
    isProperName name = true := by
  obtain ⟨entry, hentry, rfl⟩ := List.mem_map.mp ((orderedNames_perm entries).mem_iff.mp h)
  exact (isProper_directory_iff.mp hproper).2.1 entry hentry

namespace Reader

variable {reader : Reader} {path inside : String} {location : Location}

/-! ## 1. Steps, by what is found -/

theorem isDirectory_eq_true_iff (hresolve : reader.resolve path = .ok location) :
    reader.isDirectory path = .ok true ↔ Disk.hasNul location = false ∧
      ∃ entries, reader.disk.find location = .ok (.directory entries) := by
  rw [isDirectory, hresolve]
  show (if Disk.hasNul location = true then _ else _) = _ ↔ _
  split
  · rename_i hnul
    simp [hnul, pure, Except.pure]
  · rename_i hnul
    rw [Bool.not_eq_true] at hnul
    cases hfind : reader.disk.find location with
    | error refusal => cases refusal <;> simp [pure, Except.pure, throw, throwThe, MonadExceptOf.throw]
    | ok tree => cases tree <;> simp [hnul, pure, Except.pure]

theorem isDirectory_eq_false_of_file {data : ByteArray}
    (hresolve : reader.resolve path = .ok location) (hnul : Disk.hasNul location = false)
    (hfind : reader.disk.find location = .ok (.file data)) : reader.isDirectory path = .ok false := by
  rw [isDirectory, hresolve]
  show (if Disk.hasNul location = true then _ else _) = _
  rw [hnul, if_neg (by simp), hfind]
  rfl

theorem read_eq_ok_iff {data : ByteArray} (hresolve : reader.resolve path = .ok location) :
    reader.read path = .ok data ↔ Disk.hasNul location = false ∧
      reader.disk.find location = .ok (.file data) := by
  rw [read, hresolve]
  show (if Disk.hasNul location = true then _ else _) = _ ↔ _
  split
  · rename_i hnul
    rw [hnul]
    constructor
    · intro h
      cases h
    · rintro ⟨hnone, -⟩
      cases hnone
  · rename_i hnul
    rw [Bool.not_eq_true] at hnul
    cases hfind : reader.disk.find location with
    | error refusal => simp [throw, throwThe, MonadExceptOf.throw]
    | ok tree => cases tree <;> simp [hnul, pure, Except.pure, throw, throwThe, MonadExceptOf.throw]

theorem list_eq_ok_iff {listed : List (String × String)}
    (hresolve : reader.resolve path = .ok location) :
    reader.list path = .ok listed ↔ Disk.hasNul location = false ∧
      ∃ entries, reader.disk.find location = .ok (.directory entries) ∧
        listed = (FileTree.orderedNames entries).map fun name =>
          (name, (location.child name).text) := by
  rw [list, hresolve]
  show (if Disk.hasNul location = true then _ else _) = _ ↔ _
  split
  · rename_i hnul
    rw [hnul]
    constructor
    · intro h
      cases h
    · rintro ⟨hnone, -⟩
      cases hnone
  · rename_i hnul
    rw [Bool.not_eq_true] at hnul
    cases hfind : reader.disk.find location with
    | error refusal => simp [throw, throwThe, MonadExceptOf.throw]
    | ok tree =>
      cases tree with
      | file data => simp [throw, throwThe, MonadExceptOf.throw]
      | directory entries => simp [hnul, pure, Except.pure, FileTree.orderedNames, eq_comm]

/-- **What a step of a walk does is settled by what is found.** -/
theorem walkLevels_eq_ok_iff_find {levels : Nat} {files : List (String × ByteArray)}
    (hresolve : reader.resolve path = .ok location) :
    reader.walkLevels (levels + 1) path inside = .ok files ↔ Disk.hasNul location = false ∧
      ((∃ data, reader.disk.find location = .ok (.file data) ∧ files = [(inside, data)]) ∨
        ∃ entries, reader.disk.find location = .ok (.directory entries) ∧
          ∃ found, ((FileTree.orderedNames entries).mapM fun name =>
            reader.walkLevels levels (location.child name).text (EntryPath.join inside name)) =
              .ok found ∧ files = found.flatten) := by
  rw [walkLevels_eq_ok_iff]
  constructor
  · rintro (⟨-, data, hread, rfl⟩ | ⟨-, listed, hlist, found, hfound, rfl⟩)
    · obtain ⟨hnul, hfind⟩ := (read_eq_ok_iff hresolve).mp hread
      exact ⟨hnul, .inl ⟨data, hfind, rfl⟩⟩
    · obtain ⟨hnul, entries, hfind, rfl⟩ := (list_eq_ok_iff hresolve).mp hlist
      rw [List.mapM_map] at hfound
      exact ⟨hnul, .inr ⟨entries, hfind, found, hfound, rfl⟩⟩
  · rintro ⟨hnul, ⟨data, hfind, rfl⟩ | ⟨entries, hfind, found, hfound, rfl⟩⟩
    · exact .inl ⟨isDirectory_eq_false_of_file hresolve hnul hfind, data,
        (read_eq_ok_iff hresolve).mpr ⟨hnul, hfind⟩, rfl⟩
    · refine .inr ⟨(isDirectory_eq_true_iff hresolve).mpr ⟨hnul, entries, hfind⟩, _,
        (list_eq_ok_iff hresolve).mpr ⟨hnul, entries, hfind, rfl⟩, found, ?_, rfl⟩
      rw [List.mapM_map]
      exact hfound

/-- Two readers that find the same at the location of a path do the same there. -/
theorem agree_of_find_eq {other : Reader} (hresolve : reader.resolve path = .ok location)
    (hother : other.resolve path = .ok location)
    (hfind : reader.disk.find location = other.disk.find location) :
    reader.isDirectory path = other.isDirectory path ∧ reader.list path = other.list path ∧
      reader.read path = other.read path := by
  simp only [isDirectory, list, read, hresolve, hother, bind, Except.bind, hfind, and_self]

/-- Two walks are the same if their first steps are the same and they are the same below. -/
theorem walkLevels_congr {other : Reader} {levels more : Nat}
    (hdirectory : reader.isDirectory path = other.isDirectory path)
    (hlist : reader.list path = other.list path) (hread : reader.read path = other.read path)
    (hbelow : ∀ listed, other.isDirectory path = .ok true → other.list path = .ok listed →
      ∀ entry ∈ listed, reader.walkLevels levels entry.2 (EntryPath.join inside entry.1) =
        other.walkLevels more entry.2 (EntryPath.join inside entry.1)) :
    reader.walkLevels (levels + 1) path inside = other.walkLevels (more + 1) path inside := by
  rw [walkLevels, walkLevels, hdirectory, hlist, hread]
  cases hanswer : other.isDirectory path with
  | error fault => rfl
  | ok isDirectory =>
    cases isDirectory with
    | false => rfl
    | true =>
      cases hlisted : other.list path with
      | error fault => rfl
      | ok listed =>
        have hsame : (listed.mapM fun entry => reader.walkLevels levels entry.2
              (EntryPath.join inside entry.1)) =
            listed.mapM fun entry => other.walkLevels more entry.2
              (EntryPath.join inside entry.1) :=
          mapM_congr_left (hbelow listed hanswer hlisted)
        exact congrArg (· >>= fun entries => pure entries.flatten) hsame

theorem walkLevels_eq_ok_iff_found {levels : Nat} {files : List (String × ByteArray)}
    (htop : reader.disk.top.isProper = true) (hresolve : reader.resolve path = .ok location) :
    reader.walkLevels (levels + 1) path inside = .ok files ↔
      (∃ data, reader.disk.find location = .ok (.file data) ∧ files = [(inside, data)]) ∨
        ∃ entries, reader.disk.find location = .ok (.directory entries) ∧
          ∃ found, ((FileTree.orderedNames entries).mapM fun name =>
            reader.walkLevels levels (location.child name).text (EntryPath.join inside name)) =
              .ok found ∧ files = found.flatten := by
  rw [walkLevels_eq_ok_iff_find hresolve, and_iff_right_iff_imp]
  rintro (⟨data, hfind, -⟩ | ⟨entries, hfind, -⟩)
  · exact Disk.hasNul_of_find htop hfind
  · exact Disk.hasNul_of_find htop hfind

/-- Two walks find the same if the same is at their locations and they find the same below. -/
theorem walkLevels_step_iff {other : Reader} {levels more : Nat} {path otherPath inside : String}
    {location otherLocation : Location} {files : List (String × ByteArray)}
    (htop : reader.disk.top.isProper = true) (hotherTop : other.disk.top.isProper = true)
    (hresolve : reader.resolve path = .ok location)
    (hother : other.resolve otherPath = .ok otherLocation)
    (hfound : ∀ tree, reader.disk.find location = .ok tree ↔ other.disk.find otherLocation = .ok tree)
    (hbelow : ∀ entries, reader.disk.find location = .ok (.directory entries) →
      ∀ name ∈ FileTree.orderedNames entries, ∀ found,
        reader.walkLevels levels (location.child name).text (EntryPath.join inside name) = .ok found ↔
          other.walkLevels more (otherLocation.child name).text (EntryPath.join inside name) =
            .ok found) :
    reader.walkLevels (levels + 1) path inside = .ok files ↔
      other.walkLevels (more + 1) otherPath inside = .ok files := by
  rw [walkLevels_eq_ok_iff_found htop hresolve, walkLevels_eq_ok_iff_found hotherTop hother]
  refine or_congr ?_ ?_
  · simp only [hfound]
  · refine exists_congr fun entries => ?_
    rw [← hfound]
    refine and_congr_right fun hentries => exists_congr fun found => ?_
    rw [mapM_eq_ok_congr (hbelow entries hentries)]

/-! ## 2. Walks that end -/

/-- No row of directories that starts at a path, each of them listed in the one before, has more than some
number of directories before it ends. -/
inductive EndsWithin (reader : Reader) : Nat → String → Prop where
  | step {levels : Nat} {path : String}
      (h : ∀ listed, reader.isDirectory path = .ok true → reader.list path = .ok listed →
        ∀ entry ∈ listed, EndsWithin reader levels entry.2) : EndsWithin reader (levels + 1) path

/-- **More levels than a walk needs make no difference.** -/
theorem EndsWithin.walkLevels_eq {levels : Nat} (h : reader.EndsWithin levels path) :
    ∀ {more : Nat} {inside : String}, levels ≤ more →
      reader.walkLevels more path inside = reader.walkLevels levels path inside := by
  induction h with
  | @step levels path _ ih =>
    intro more inside hmore
    obtain ⟨more, rfl⟩ := Nat.exists_eq_add_of_le' hmore
    refine walkLevels_congr rfl rfl rfl fun listed hdirectory hlist entry hentry => ?_
    exact ih listed hdirectory hlist entry hentry (Nat.le_add_left _ _)

/-- **A walk ends** where the location of an entry that is read again is the location of the entry: the
tree at an entry is lower than the directory. -/
theorem endsWithin_of_height (htop : reader.disk.top.isProper = true) : ∀ {levels : Nat}
    {path : String} {location : Location}, reader.resolve path = .ok location → location.IsNormal →
    location.Untilded → (location.isAbsolute = true ∨ reader.base = ⟨"", []⟩) →
    (∀ tree, reader.disk.find location = .ok tree → tree.height ≤ levels) →
    reader.EndsWithin (levels + 1) path := by
  intro levels
  induction levels with
  | zero =>
    intro path location hresolve _ _ _ hheight
    refine .step fun listed hdirectory _ _ _ => ?_
    obtain ⟨-, entries, hfind⟩ := (isDirectory_eq_true_iff hresolve).mp hdirectory
    have hzero := hheight _ hfind
    rw [FileTree.height] at hzero
    omega
  | succ levels ih =>
    intro path location hresolve hnormal huntilded hbase hheight
    refine .step fun listed _ hlist entry hentry => ?_
    obtain ⟨-, entries, hfind, rfl⟩ := (list_eq_ok_iff hresolve).mp hlist
    obtain ⟨name, hname, rfl⟩ := List.mem_map.mp hentry
    have hproper := FileTree.isProperName_of_mem (Disk.isProper_of_find htop hfind) hname
    have hchild := hnormal.child hproper
    have hchildBase : (location.child name).isAbsolute = true ∨ reader.base = ⟨"", []⟩ := hbase
    refine ih (resolve_text hchild (huntilded.child name) hchildBase) hchild (huntilded.child name)
      hchildBase ?_
    intro tree htree
    obtain ⟨-, hlookup⟩ := (Disk.find_child hfind hproper).mp htree
    have hlower : tree.height < (FileTree.directory entries).height :=
      FileTree.height_lt_of_mem (FileTree.mem_of_lookup hlookup)
    have hle := hheight _ hfind
    omega

end Reader
end Bindery
