/-
# Which failures of a walk are reported

A walk fails at the first of the paths it comes to that stops it (`Reader.fault?_walkLevels`, by induction
on the levels), and it comes to every path that there is to come to, since it ends
(`Reader.IsProper.endsWithin`).  So whether its failure is reported as a file that cannot be read is settled
by that one path: it is exactly if the disk takes the path (`Reader.walk_reported`).  The law that every
failure is reported is false: the question whether there is a directory comes before anything is read, and it
does not report (`Reader.not_walk_reported`).
-/
import Bindery.Disk.Stops
import Bindery.Proofs.Disk.Ends

namespace Bindery

/-! ## 1. The fault of a computation -/

section

variable {α β ε : Type}

/-- What stopped a computation, if anything did. -/
def fault? : Except ε α → Option ε
  | .ok _ => none
  | .error fault => some fault

theorem fault?_eq_none_iff {x : Except ε α} : fault? x = none ↔ ∃ a, x = .ok a := by
  cases x <;> simp [fault?]

theorem fault?_eq_some_iff {x : Except ε α} {e : ε} : fault? x = some e ↔ x = .error e := by
  cases x <;> simp [fault?]

/-- Steps for the items of a list fail with the first of them that does. -/
theorem fault?_mapM (f : α → Except ε β) (xs : List α) :
    fault? (xs.mapM f) = xs.findSome? fun x => fault? (f x) := by
  induction xs with
  | nil => rfl
  | cons x xs ih =>
    rw [List.mapM_cons, List.findSome?_cons, ← ih]
    cases f x with
    | error e => rfl
    | ok y => cases xs.mapM f <;> rfl

theorem findSome?_flatMap {γ : Type} (f : α → List β) (g : β → Option γ) (xs : List α) :
    (xs.flatMap f).findSome? g = xs.findSome? fun x => (f x).findSome? g := by
  induction xs with
  | nil => rfl
  | cons x xs ih =>
    rw [List.flatMap_cons, List.findSome?_append, List.findSome?_cons, ih]
    cases (f x).findSome? g <;> rfl

end

namespace Reader

variable {reader : Reader} {path inside : String}

/-! ## 2. Single paths -/

/-- A walk asks for a directory, and reads where there is none. -/
theorem stop?_eq (reader : Reader) (path : String) : reader.stop? path =
    match reader.isDirectory path with
    | .error fault => some fault
    | .ok true => none
    | .ok false => fault? (reader.read path) := by
  rw [stop?, isDirectory, read]
  cases reader.resolve path with
  | error fault => rfl
  | ok location =>
    simp only [bind, Except.bind]
    cases Disk.hasNul location with
    | true => rfl
    | false =>
      simp only [Bool.false_eq_true, if_false]
      cases reader.disk.find location with
      | ok tree => cases tree <;> rfl
      | error refusal => cases refusal <;> rfl

/-- A directory that is known to be one is listed. -/
theorem exists_list_of_directory (h : reader.isDirectory path = .ok true) :
    ∃ listed, reader.list path = .ok listed := by
  obtain ⟨location, hresolve, -⟩ := bind_eq_ok_iff.mp h
  obtain ⟨hnul, entries, hfind⟩ := (isDirectory_eq_true_iff hresolve).mp h
  exact ⟨_, (list_eq_ok_iff hresolve).mpr ⟨hnul, entries, hfind, rfl⟩⟩

/-- **What stops a walk at a path**: the file cannot be read, or the disk does not take the path. -/
theorem stop?_cases {fault : Fault} (h : reader.stop? path = some fault) :
    (reader.Takes path ∧ ∃ cause, fault = .file (.read cause)) ∨
      (¬ reader.Takes path ∧ (fault = .pathWithNul ∨ fault = .unknownUser ∨
        ∃ text, fault = .refused ⟨.nameTooLong, text⟩)) := by
  rw [Takes]
  cases hresolve : reader.resolve path with
  | error other =>
    simp only [stop?, hresolve] at h
    cases h
    exact .inr ⟨by simp, (fault_of_resolve hresolve).imp_right .inl⟩
  | ok location =>
    simp only [Except.ok.injEq, exists_eq_left']
    cases hnul : Disk.hasNul location with
    | true =>
      simp only [stop?, hresolve, hnul] at h
      cases h
      exact .inr ⟨by simp, .inl rfl⟩
    | false =>
      simp only [stop?, hresolve, hnul, Bool.false_eq_true, if_false] at h
      cases hfind : reader.disk.find location with
      | ok tree =>
        rw [hfind] at h
        cases h
      | error refusal =>
        rw [hfind] at h
        cases refusal with
        | nameTooLong =>
          cases h
          exact .inr ⟨by simp, .inr (.inr ⟨_, rfl⟩)⟩
        | notFound | notDirectory | isDirectory =>
          cases h
          exact .inl ⟨by simp, _, rfl⟩

theorem isReported_of_stop?_iff {fault : Fault} (h : reader.stop? path = some fault) :
    IsReported (.error fault : Except Fault (List (String × ByteArray))) ↔ reader.Takes path := by
  rcases stop?_cases h with ⟨htakes, cause, rfl⟩ | ⟨htakes, hfault⟩
  · simp [IsReported, htakes]
  · rcases hfault with rfl | rfl | ⟨text, rfl⟩ <;> simp [IsReported, htakes]

/-! ## 3. Walks -/

/-- A walk fails as it does at the first path that stops it, of those that it comes to. -/
theorem fault?_walkLevels : ∀ (levels : Nat) (path inside : String),
    fault? (reader.walkLevels levels path inside) =
      (reader.descentLevels levels path).findSome? reader.stop?
  | 0, _, _ => rfl
  | levels + 1, path, inside => by
    rw [descentLevels, List.findSome?_cons, stop?_eq, below, walkLevels]
    cases hdirectory : reader.isDirectory path with
    | error fault => rfl
    | ok isDirectory =>
      cases isDirectory with
      | false => cases reader.read path <;> rfl
      | true =>
        obtain ⟨listed, hlist⟩ := exists_list_of_directory hdirectory
        have hbelow : fault? (listed.mapM fun entry =>
              reader.walkLevels levels entry.2 (EntryPath.join inside entry.1)) =
            ((listed.map (·.2)).flatMap (reader.descentLevels levels)).findSome? reader.stop? := by
          rw [fault?_mapM, findSome?_flatMap, List.findSome?_map]
          exact congrArg (listed.findSome? ·) (funext fun entry => fault?_walkLevels levels _ _)
        rw [hlist]
        refine Eq.trans ?_ hbelow
        simp only [bind, Except.bind]
        cases listed.mapM fun entry =>
          reader.walkLevels levels entry.2 (EntryPath.join inside entry.1) <;> rfl

theorem walk_eq_error_iff {fault : Fault} :
    reader.walk path inside = .error fault ↔ ∃ stopped, reader.StopsAt path stopped fault := by
  rw [← fault?_eq_some_iff, walk, fault?_walkLevels, List.findSome?_eq_some_iff]
  constructor
  · rintro ⟨before, stopped, after, hdescent, hstop, hbefore⟩
    exact ⟨stopped, before, after, hdescent, hbefore, hstop⟩
  · rintro ⟨stopped, before, after, hdescent, hbefore, hstop⟩
    exact ⟨before, stopped, after, hdescent, hstop, hbefore⟩

theorem exists_walk_eq_ok_iff :
    (∃ files, reader.walk path inside = .ok files) ↔
      ∀ reached ∈ reader.descent path, reader.stop? reached = none := by
  rw [← fault?_eq_none_iff, walk, fault?_walkLevels, List.findSome?_eq_none_iff, descent]

/-- How a walk ends. -/
structure EndsReported (reader : Reader) (path inside : String) : Prop where
  /-- The levels that a walk has are not used up. -/
  ends : reader.EndsWithin (reader.disk.top.height + 2) path
  found_iff : (∃ files, reader.walk path inside = .ok files) ↔
    ∀ reached ∈ reader.descent path, reader.stop? reached = none
  fails_iff : ∀ fault, reader.walk path inside = .error fault ↔
    ∃ stopped, reader.StopsAt path stopped fault
  /-- A failure is reported exactly if the disk takes the path that the walk stops at. -/
  reported_iff : IsReported (reader.walk path inside) ↔
    ∀ stopped fault, reader.StopsAt path stopped fault → reader.Takes stopped
  /-- Beside a file that cannot be read there are three ways to fail. -/
  fault_cases : ∀ fault, reader.walk path inside = .error fault →
    (∃ cause, fault = .file (.read cause)) ∨ fault = .pathWithNul ∨ fault = .unknownUser ∨
      ∃ text, fault = .refused ⟨.nameTooLong, text⟩

/-- **A walk ends, and its failure is reported exactly if the disk takes the path that it stops at.** -/
theorem walk_reported (hreader : reader.IsProper) (path inside : String) :
    reader.EndsReported path inside where
  ends := hreader.endsWithin path
  found_iff := exists_walk_eq_ok_iff
  fails_iff _ := walk_eq_error_iff
  reported_iff := by
    constructor
    · intro hreported stopped fault hstops
      rw [walk_eq_error_iff.mpr ⟨stopped, hstops⟩] at hreported
      obtain ⟨_, _, -, -, hstop⟩ := hstops
      exact (isReported_of_stop?_iff hstop).mp hreported
    · intro htakes
      cases hwalk : reader.walk path inside with
      | ok files => trivial
      | error fault =>
        obtain ⟨stopped, hstops⟩ := walk_eq_error_iff.mp hwalk
        have hstopped := htakes stopped fault hstops
        obtain ⟨_, _, -, -, hstop⟩ := hstops
        exact (isReported_of_stop?_iff hstop).mpr hstopped
  fault_cases fault hwalk := by
    obtain ⟨_, _, _, -, -, hstop⟩ := walk_eq_error_iff.mp hwalk
    exact (stop?_cases hstop).imp And.right And.right

/-! ## 4. Failures that are not reported -/

/-- A walk fails at once where something stops it. -/
theorem walk_of_stop {fault : Fault} (h : reader.stop? path = some fault) :
    reader.walk path inside = .error fault :=
  walk_eq_error_iff.mpr ⟨path, [], _, rfl, by simp, h⟩

/-- A reader at the top of a disk, where one other user is known. -/
def atTop (entries : List (String × FileTree)) : Reader where
  disk := {
    top := .directory entries
    workingDirectory := []
    home := "home"
    homes := fun user => if user = "editor" then some "/shared" else none }
  base := ⟨"", []⟩

theorem isProper_atTop {entries : List (String × FileTree)}
    (h : (FileTree.directory entries).isProper = true) : (atTop entries).IsProper := by
  refine ⟨h, Location.isNormal_ofText "", fun user hlocated => ?_⟩
  obtain ⟨-, directory, hdirectory, -, htop⟩ := Disk.homeLocation_eq_ok_iff.mp hlocated
  have hhomes : directory = "home" ∨ directory = "/shared" := by
    simp only [Disk.homeOf?, atTop] at hdirectory
    split_ifs at hdirectory
    · exact .inl (Option.some.inj hdirectory).symm
    · exact .inr (Option.some.inj hdirectory).symm
  rcases hhomes with rfl | rfl <;> revert htop <;> decide

/-- A name that a listing gives is read again, and then its tilde stands for somebody's home. -/
def draftEntries : List (String × FileTree) := [("~draft", .file .empty)]

theorem draft_endsReported : (atTop draftEntries).IsProper ∧
    (atTop draftEntries).EndsReported "." "text" ∧
    (atTop draftEntries).StopsAt "." "~draft" .unknownUser := by
  have hproper : (atTop draftEntries).IsProper := isProper_atTop (by decide)
  have hdirectory : (atTop draftEntries).isDirectory "." = .ok true := by decide
  have hresolve : (atTop draftEntries).resolve "." = .ok ⟨"", []⟩ := by decide
  have hordered : FileTree.orderedNames draftEntries = ["~draft"] := by
    simp [FileTree.orderedNames, draftEntries]
  have hlist : (atTop draftEntries).list "." = .ok [("~draft", "~draft")] := by
    refine (list_eq_ok_iff hresolve).mpr ⟨by decide, draftEntries, rfl, ?_⟩
    rw [hordered]
    rfl
  have hbelow : (atTop draftEntries).below "." = ["~draft"] := by
    rw [below, hdirectory, hlist]
    rfl
  have hdescent : (atTop draftEntries).descent "." = ["."] ++ "~draft" :: [] := by
    rw [descent, descentLevels, hbelow]
    rfl
  exact ⟨hproper, walk_reported hproper "." "text", ["."], [], hdescent, by decide, by decide⟩

/-- A name that is too long stops a walk before anything is read, whatever is on the disk. -/
theorem stop?_of_tooLong {entries : List (String × FileTree)} {name : String}
    (hname : EntryPath.IsName name) (htilde : name.toList.head? ≠ some '~')
    (hnul : '\x00' ∉ name.toList) (hlong : maxNameBytes < name.utf8ByteSize) :
    (atTop entries).stop? name = some (.refused ⟨.nameTooLong, name⟩) := by
  have hnormal : (⟨"", [name]⟩ : Location).IsNormal :=
    ⟨.inl rfl, by simpa using ⟨hname.ne_empty, hname.ne_dot, hname.no_slash⟩⟩
  have htext : (⟨"", [name]⟩ : Location).text = name := Location.text_of_names name []
  have hresolve : (atTop entries).resolve (Location.text ⟨"", [name]⟩) = .ok ⟨"", [name]⟩ :=
    resolve_text hnormal (.inr ⟨name, [], rfl, htilde⟩) (.inr rfl)
  rw [htext] at hresolve
  have htop : (atTop entries).disk.find ⟨"", []⟩ = .ok (.directory entries) := rfl
  have hfind : (atTop entries).disk.find (Location.under ⟨"", []⟩ ⟨"", [name]⟩) =
      .error .nameTooLong := by
    rw [Disk.find_under htop rfl (by simpa using hname.ne_dots.symm)]
    split
    · rfl
    · simp [FileTree.seek, hlong]
  rw [Location.under_nil] at hfind
  simp [stop?, hresolve, Disk.hasNul, hnul, hfind, htext]

/-- A name of 300 letters. -/
def longName : String := String.ofList (List.replicate 300 'a')

theorem not_walk_reported : ¬ IsReported ((atTop []).walk longName "text") := by
  have hchars : longName.toList = List.replicate 300 'a' := String.toList_ofList
  have hletters : ∀ c ∈ longName.toList, c = 'a' := fun c hc =>
    List.eq_of_mem_replicate (hchars ▸ hc)
  have hhead : longName.toList.head? = some 'a' := by
    rw [hchars]
    rfl
  have hlong : maxNameBytes < longName.utf8ByteSize := by decide +kernel
  have hname : EntryPath.IsName longName := by
    refine ⟨?_, ?_, ?_, fun h => absurd (hletters _ h) (by decide)⟩
    all_goals
      intro heq
      rw [heq] at hhead
      revert hhead
      decide
  have hnul : '\x00' ∉ longName.toList := fun h => absurd (hletters _ h) (by decide)
  rw [walk_of_stop (stop?_of_tooLong hname (by simp [hhead]) hnul hlong)]
  exact id

end Reader
end Bindery
