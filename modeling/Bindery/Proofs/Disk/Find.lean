/-
# What is found on a disk

Names without `..` lead down a tree, and what they lead to does not depend on what is above the tree
(`FileTree.seek`).  So what is below a location is found from the tree at the location
(`Disk.find_under`).  Whatever is found is part of the tree at the top of the disk (`Disk.of_find`): it is no
higher, and proper if that tree is.
-/
import Bindery.Proofs.Disk.Location
import Bindery.Proofs.Disk.Walk

namespace Bindery

/-! ## 1. Trees -/

namespace FileTree

theorem mem_of_lookup {entries : List (String × FileTree)} {name : String} {tree : FileTree}
    (h : entries.lookup name = some tree) : (name, tree) ∈ entries := by
  obtain ⟨before, after, rfl, -⟩ := List.lookup_eq_some_iff.mp h
  simp

theorem lookup_of_mem : ∀ {entries : List (String × FileTree)} {name : String} {tree : FileTree},
    (entries.map (·.1)).Nodup → (name, tree) ∈ entries → entries.lookup name = some tree
  | (other, _) :: rest, name, tree, hnodup, h => by
    rw [List.map_cons, List.nodup_cons] at hnodup
    rcases List.mem_cons.mp h with hfirst | hrest
    · cases hfirst
      exact List.lookup_cons_self
    · have hne : name ≠ other := by
        rintro rfl
        exact hnodup.1 (List.mem_map.mpr ⟨_, hrest, rfl⟩)
      rw [List.lookup_cons, beq_eq_false_iff_ne.mpr hne]
      exact lookup_of_mem hnodup.2 hrest

theorem height_le_heightAll {entry : String × FileTree} : ∀ {entries : List (String × FileTree)},
    entry ∈ entries → entry.2.height ≤ heightAll entries
  | (_, tree) :: rest, h => by
    rw [heightAll]
    rcases List.mem_cons.mp h with rfl | h
    · exact Nat.le_max_left _ _
    · exact Nat.le_trans (height_le_heightAll h) (Nat.le_max_right _ _)

/-- An entry of a directory is lower than the directory. -/
theorem height_lt_of_mem {entries : List (String × FileTree)} {entry : String × FileTree}
    (h : entry ∈ entries) : entry.2.height < (directory entries).height := by
  rw [height]
  exact Nat.lt_succ_of_le (height_le_heightAll h)

theorem isProper_of_mem_allProper {entry : String × FileTree} :
    ∀ {entries : List (String × FileTree)}, allProper entries = true → entry ∈ entries →
      entry.2.isProper = true
  | (_, tree) :: rest, hproper, h => by
    rw [allProper, Bool.and_eq_true] at hproper
    rcases List.mem_cons.mp h with rfl | h
    · exact hproper.1
    · exact isProper_of_mem_allProper hproper.2 h

/-- A directory is proper if its names differ and are names, and its entries are proper. -/
theorem isProper_directory_iff {entries : List (String × FileTree)} :
    (directory entries).isProper = true ↔ (entries.map (·.1)).Nodup ∧
      (∀ entry ∈ entries, isProperName entry.1 = true) ∧ allProper entries = true := by
  simp [isProper, and_assoc]

theorem isProper_of_mem {entries : List (String × FileTree)} {entry : String × FileTree}
    (hproper : (directory entries).isProper = true) (h : entry ∈ entries) :
    entry.2.isProper = true :=
  isProper_of_mem_allProper (isProper_directory_iff.mp hproper).2.2 h

/-- A proper name is not empty, leads to no other directory, and holds no slash and no U+0000. -/
theorem isProperName_iff {name : String} : isProperName name = true ↔
    EntryPath.IsName name ∧ name.utf8ByteSize ≤ maxNameBytes ∧ '\x00' ∉ name.toList := by
  simp only [isProperName, Bool.and_eq_true, decide_eq_true_eq, Bool.not_eq_true',
    List.contains_eq_mem, decide_eq_false_iff_not]
  constructor
  · rintro ⟨⟨⟨⟨⟨hempty, hdot⟩, hdots⟩, hsize⟩, hslash⟩, hnul⟩
    exact ⟨⟨hempty, hdot, hdots, hslash⟩, hsize, hnul⟩
  · rintro ⟨⟨hempty, hdot, hdots, hslash⟩, hsize, hnul⟩
    exact ⟨⟨⟨⟨⟨hempty, hdot⟩, hdots⟩, hsize⟩, hslash⟩, hnul⟩

/-- What names without `..` lead to from the top of a tree. -/
def seek : List String → FileTree → Except Refusal FileTree
  | [], tree => .ok tree
  | _ :: _, file _ => .error .notDirectory
  | name :: names, directory entries =>
    if maxNameBytes < name.utf8ByteSize then .error .nameTooLong
    else match entries.lookup name with
      | some tree => seek names tree
      | none => .error .notFound

theorem seek_cons_eq_ok_iff {name : String} {names : List String} {tree found : FileTree} :
    seek (name :: names) tree = .ok found ↔ name.utf8ByteSize ≤ maxNameBytes ∧
      ∃ entries next, tree = directory entries ∧ entries.lookup name = some next ∧
        seek names next = .ok found := by
  cases tree with
  | file data => simp [seek]
  | directory entries =>
    rw [seek]
    split
    · rename_i hsize
      simp [Nat.not_le.mpr hsize]
    · rename_i hsize
      cases hlookup : entries.lookup name with
      | none => simp [hlookup]
      | some next => simp [hlookup, Nat.not_lt.mp hsize]

/-- What is found below a tree is lower, by one level for each name. -/
theorem height_of_seek : ∀ {names : List String} {tree found : FileTree},
    seek names tree = .ok found → found.height + names.length ≤ tree.height
  | [], tree, found, h => by
    cases h
    exact Nat.le_refl _
  | name :: names, tree, found, h => by
    obtain ⟨-, entries, next, rfl, hlookup, hseek⟩ := seek_cons_eq_ok_iff.mp h
    have hbelow := height_of_seek hseek
    have hlower : next.height < (directory entries).height :=
      height_lt_of_mem (mem_of_lookup hlookup)
    rw [List.length_cons]
    omega

theorem isProper_of_seek : ∀ {names : List String} {tree found : FileTree},
    tree.isProper = true → seek names tree = .ok found → found.isProper = true
  | [], tree, found, hproper, h => by
    cases h
    exact hproper
  | name :: names, tree, found, hproper, h => by
    obtain ⟨-, entries, next, rfl, hlookup, hseek⟩ := seek_cons_eq_ok_iff.mp h
    exact isProper_of_seek (isProper_of_mem hproper (mem_of_lookup hlookup)) hseek

theorem get?_of_seek : ∀ {names : List String} {tree found : FileTree},
    seek names tree = .ok found → tree.get? names = some found
  | [], tree, found, h => by
    cases h
    rfl
  | name :: names, tree, found, h => by
    obtain ⟨-, entries, next, rfl, hlookup, hseek⟩ := seek_cons_eq_ok_iff.mp h
    rw [get?, hlookup]
    exact get?_of_seek hseek

end FileTree

/-! ## 2. Following names -/

namespace Spot

theorem follow_cons (spot : Spot) (name : String) (names : List String) :
    spot.follow (name :: names) = spot.enter name >>= fun next => next.follow names :=
  List.foldlM_cons

theorem follow_append (spot : Spot) (names more : List String) :
    spot.follow (names ++ more) = spot.follow names >>= fun next => next.follow more :=
  List.foldlM_append

/-- Where names without `..` lead depends on the tree alone. -/
theorem follow_eq_seek : ∀ {names : List String} (spot : Spot), ".." ∉ names →
    (spot.follow names).map (·.here) = FileTree.seek names spot.here
  | [], _, _ => rfl
  | name :: names, ⟨tree, above⟩, hdots => by
    obtain ⟨hname, hnames⟩ := not_or.mp (mt List.mem_cons.mpr hdots)
    rw [follow_cons, enter.eq_def]
    cases tree with
    | file data => rfl
    | directory entries =>
      dsimp only
      rw [if_neg (Ne.symm hname), FileTree.seek]
      split
      · rfl
      · cases entries.lookup name with
        | none => rfl
        | some next => exact follow_eq_seek ⟨next, _⟩ hnames

/-- What a name can lead to: nothing else for `..` at the top, the directory above, or an entry. -/
theorem enter_cases {spot next : Spot} {name : String} (h : spot.enter name = .ok next) :
    (name = ".." ∧ spot.above = [] ∧ next = spot) ∨
      (name = ".." ∧ ∃ up rest, spot.above = up :: rest ∧ next = ⟨up, rest⟩) ∨
      (name ≠ ".." ∧ ∃ entries tree, spot.here = .directory entries ∧
        entries.lookup name = some tree ∧ next = ⟨tree, spot.here :: spot.above⟩) := by
  unfold Spot.enter at h
  split at h
  · cases h
  · rename_i entries hhere
    split at h
    · rename_i hdots
      split at h <;> cases h
      · rename_i habove
        exact .inl ⟨hdots, habove, rfl⟩
      · rename_i habove
        exact .inr (.inl ⟨hdots, _, _, habove, rfl⟩)
    · rename_i hdots
      split at h
      · cases h
      · split at h <;> cases h
        rename_i hlookup
        exact .inr (.inr ⟨hdots, entries, _, hhere, hlookup, rfl⟩)

/-- Everything at a place and above it has a property. -/
structure All (P : FileTree → Prop) (spot : Spot) : Prop where
  here : P spot.here
  above : ∀ tree ∈ spot.above, P tree

variable {P : FileTree → Prop}

theorem All.enter (hclosed : ∀ entries, P (.directory entries) → ∀ entry ∈ entries, P entry.2)
    {spot next : Spot} {name : String} (hall : spot.All P) (h : spot.enter name = .ok next) :
    next.All P := by
  obtain ⟨-, habove, rfl⟩ | ⟨-, up, rest, habove, rfl⟩ |
    ⟨-, entries, tree, hhere, hlookup, rfl⟩ := enter_cases h
  · exact hall
  · have hup : ∀ tree ∈ up :: rest, P tree := habove ▸ hall.above
    exact ⟨hup up List.mem_cons_self, fun tree htree => hup tree (List.mem_cons_of_mem _ htree)⟩
  · have hdirectory : P (.directory entries) := hhere ▸ hall.here
    refine ⟨hclosed entries hdirectory _ (FileTree.mem_of_lookup hlookup), ?_⟩
    exact List.forall_mem_cons.mpr ⟨hall.here, hall.above⟩

theorem All.follow (hclosed : ∀ entries, P (.directory entries) → ∀ entry ∈ entries, P entry.2) :
    ∀ {names : List String} {spot next : Spot}, spot.All P → spot.follow names = .ok next →
      next.All P
  | [], _, _, hall, h => by
    cases h
    exact hall
  | name :: names, spot, next, hall, h => by
    rw [follow_cons] at h
    obtain ⟨middle, hmiddle, h⟩ := bind_eq_ok_iff.mp h
    exact All.follow hclosed (hall.enter hclosed hmiddle) h

theorem no_nul_of_enter {spot next : Spot} {name : String} (hhere : spot.here.isProper = true)
    (h : spot.enter name = .ok next) : '\x00' ∉ name.toList := by
  obtain ⟨rfl, -⟩ | ⟨rfl, -⟩ | ⟨-, entries, tree, hentries, hlookup, -⟩ := enter_cases h
  · decide
  · decide
  · rw [hentries, FileTree.isProper_directory_iff] at hhere
    have hname := hhere.2.1 _ (FileTree.mem_of_lookup hlookup)
    exact (FileTree.isProperName_iff.mp hname).2.2

/-- Names that lead somewhere in proper trees do not hold U+0000. -/
theorem no_nul_of_follow : ∀ {names : List String} {spot next : Spot},
    spot.All (·.isProper = true) → spot.follow names = .ok next →
      ∀ name ∈ names, '\x00' ∉ name.toList
  | [], _, _, _, _ => by simp
  | first :: rest, spot, next, hall, h => by
    rw [follow_cons] at h
    obtain ⟨middle, hmiddle, h⟩ := bind_eq_ok_iff.mp h
    have hbelow : middle.All (·.isProper = true) :=
      hall.enter (fun _ hproper _ hentry => FileTree.isProper_of_mem hproper hentry) hmiddle
    exact List.forall_mem_cons.mpr
      ⟨no_nul_of_enter hall.here hmiddle, no_nul_of_follow hbelow h⟩

end Spot

/-! ## 3. Looking up -/

namespace Disk

variable {disk : Disk} {location : Location} {tree : FileTree}

/-- Where a location starts. -/
def start (disk : Disk) (location : Location) : Except Refusal Spot :=
  if location.isAbsolute then .ok ⟨disk.top, []⟩
  else (⟨disk.top, []⟩ : Spot).follow disk.workingDirectory

theorem find_eq (disk : Disk) (location : Location) : disk.find location =
    if maxLocationBytes ≤ location.text.utf8ByteSize then .error .nameTooLong
    else disk.start location >>= fun spot => (spot.follow location.names).map (·.here) := by
  rw [find, start]
  split
  · rfl
  · split <;> rfl

theorem find_eq_ok_iff : disk.find location = .ok tree ↔
    location.text.utf8ByteSize < maxLocationBytes ∧
      ∃ spot, disk.start location = .ok spot ∧ (spot.follow location.names).map (·.here) = .ok tree := by
  rw [find_eq, ← Nat.not_le]
  split
  · rename_i hsize
    simp [hsize]
  · rename_i hsize
    simp [hsize, bind_eq_ok_iff]

/-- **What is below a location is found from the tree at the location.** -/
theorem find_under {base : Location} (hbase : disk.find base = .ok tree)
    (hrelative : location.isAbsolute = false) (hdots : ".." ∉ location.names) :
    disk.find (base.under location) =
      if maxLocationBytes ≤ (base.under location).text.utf8ByteSize then .error .nameTooLong
      else tree.seek location.names := by
  obtain ⟨-, spot, hstart, hfollow⟩ := find_eq_ok_iff.mp hbase
  obtain ⟨reached, hreached, rfl⟩ := map_eq_ok_iff.mp hfollow
  have hunder : base.under location = ⟨base.root, base.names ++ location.names⟩ :=
    Location.under_of_relative hrelative
  have hfound : disk.start (base.under location) = .ok spot := by
    rw [hunder, ← hstart]
    rfl
  have hseek : (spot.follow (base.under location).names).map (·.here) =
      reached.here.seek location.names := by
    rw [hunder, Spot.follow_append, hreached]
    exact Spot.follow_eq_seek reached hdots
  rw [find_eq, hfound]
  exact congrArg (ite _ _) hseek

/-- An entry of a directory is found under its name, unless its location is too long. -/
theorem find_child {entries : List (String × FileTree)} {name : String}
    (hfind : disk.find location = .ok (.directory entries))
    (hname : FileTree.isProperName name = true) :
    disk.find (location.child name) = .ok tree ↔
      (location.child name).text.utf8ByteSize < maxLocationBytes ∧
        entries.lookup name = some tree := by
  obtain ⟨hsegment, hsize, -⟩ := FileTree.isProperName_iff.mp hname
  have hdots : ".." ∉ (⟨"", [name]⟩ : Location).names := by
    simpa using hsegment.ne_dots.symm
  rw [Location.child_eq_under, find_under hfind rfl hdots, ← Nat.not_le]
  split
  · rename_i hlong
    simp [hlong]
  · rename_i hlong
    show FileTree.seek [name] (.directory entries) = .ok tree ↔ _
    rw [FileTree.seek_cons_eq_ok_iff]
    simp [hlong, hsize, FileTree.seek]

/-- A place that is found has each property that the top of the disk hands down. -/
theorem exists_spot_of_find (P : FileTree → Prop)
    (hclosed : ∀ entries, P (.directory entries) → ∀ entry ∈ entries, P entry.2) (htop : P disk.top)
    (h : disk.find location = .ok tree) :
    ∃ spot reached : Spot, spot.All P ∧ spot.follow location.names = .ok reached ∧
      reached.here = tree := by
  obtain ⟨-, spot, hstart, hfollow⟩ := find_eq_ok_iff.mp h
  obtain ⟨reached, hreached, hhere⟩ := map_eq_ok_iff.mp hfollow
  have hroot : (⟨disk.top, []⟩ : Spot).All P := ⟨htop, by simp⟩
  refine ⟨spot, reached, ?_, hreached, hhere⟩
  unfold start at hstart
  split at hstart
  · cases hstart
    exact hroot
  · exact hroot.follow hclosed hstart

/-- What is found has each property that the top of the disk hands down. -/
theorem of_find (P : FileTree → Prop)
    (hclosed : ∀ entries, P (.directory entries) → ∀ entry ∈ entries, P entry.2) (htop : P disk.top)
    (h : disk.find location = .ok tree) : P tree := by
  obtain ⟨spot, reached, hall, hreached, rfl⟩ := exists_spot_of_find P hclosed htop h
  exact (hall.follow hclosed hreached).here

theorem isProper_of_find (htop : disk.top.isProper = true) (h : disk.find location = .ok tree) :
    tree.isProper = true :=
  of_find (·.isProper = true) (fun _ hproper _ hentry => FileTree.isProper_of_mem hproper hentry)
    htop h

theorem height_of_find (h : disk.find location = .ok tree) : tree.height ≤ disk.top.height := by
  refine of_find (·.height ≤ disk.top.height) ?_ (Nat.le_refl _) h
  intro entries hheight entry hentry
  exact Nat.le_trans (Nat.le_of_lt (FileTree.height_lt_of_mem hentry)) hheight

/-- Nothing is found at a location with U+0000. -/
theorem hasNul_of_find (htop : disk.top.isProper = true) (h : disk.find location = .ok tree) :
    hasNul location = false := by
  obtain ⟨spot, reached, hall, hreached, -⟩ := exists_spot_of_find (·.isProper = true)
    (fun _ hproper _ hentry => FileTree.isProper_of_mem hproper hentry) htop h
  rw [Bool.eq_false_iff, Ne, hasNul_iff]
  rintro ⟨name, hname, hnul⟩
  exact Spot.no_nul_of_follow hall hreached name hname hnul

end Disk
end Bindery
