/-
# Home directories

A tilde at the start of a location and the user's name after it are replaced by that user's home directory,
and any other location is kept (`Disk.expandHome_cases`).  This fails for a name that no user has, for a home
that has a tilde itself, and for a name that holds U+0000 (`Disk.fault_of_expandHome`).
-/
import Bindery.Disk
import Bindery.Proofs.Success

namespace Bindery.Disk

variable {disk : Disk} {location expanded home : Location} {user : String} {fault : Fault}

/-- A home is the location of the directory that the user has. -/
theorem homeLocation_eq_ok_iff : disk.homeLocation user = .ok home ↔
    '\x00' ∉ user.toList ∧ ∃ directory, disk.homeOf? user = some directory ∧
      (homeText directory).toList.head? ≠ some '~' ∧ Location.ofText (homeText directory) = home := by
  unfold homeLocation
  by_cases hnul : '\x00' ∈ user.toList
  · simp [hnul]
  · cases disk.homeOf? user with
    | none => simp [hnul]
    | some directory =>
      by_cases htilde : (homeText directory).toList.head? = some '~'
      · simp [hnul, htilde]
      · simp [hnul, htilde]

theorem fault_of_homeLocation (h : disk.homeLocation user = .error fault) :
    fault = .pathWithNul ∨ fault = .unknownUser := by
  unfold homeLocation at h
  split at h
  · cases h
    exact .inl rfl
  · split at h
    · cases h
      exact .inr rfl
    · split at h
      · cases h
        exact .inr rfl
      · cases h

theorem expandHome_of_absolute (h : location.isAbsolute = true) :
    disk.expandHome location = .ok location := by
  unfold expandHome
  split
  · rename_i hrelative _
    rw [h] at hrelative
    cases hrelative
  · rfl

/-- A location is kept, unless its first name is a tilde with the name of a user. -/
theorem expandHome_of_ne_tilde (h : ∀ user rest, location.names ≠ String.ofList ('~' :: user) :: rest) :
    disk.expandHome location = .ok location := by
  unfold expandHome
  split
  · rename_i first rest _ hnames
    split
    · rename_i user hfirst
      refine absurd ?_ (h user rest)
      rw [hnames, ← hfirst, String.ofList_toList]
    · rfl
  · rfl

/-- **A location is kept, or its first name gives way to a home directory.** -/
theorem expandHome_cases (h : disk.expandHome location = .ok expanded) :
    expanded = location ∨ ∃ user rest home, location = ⟨"", String.ofList ('~' :: user) :: rest⟩ ∧
      disk.homeLocation (String.ofList user) = .ok home ∧ expanded = home.under ⟨"", rest⟩ := by
  obtain ⟨root, names⟩ := location
  unfold expandHome at h
  split at h
  · rename_i first rest hrelative hnames
    split at h
    · rename_i user hfirst
      obtain ⟨home, hhome, rfl⟩ := map_eq_ok_iff.mp h
      refine .inr ⟨user, rest, home, ?_, hhome, rfl⟩
      have hroot : root = "" := by simpa [Location.isAbsolute] using hrelative
      rw [← hfirst, String.ofList_toList, hroot]
      exact congrArg (Location.mk "") hnames
    · cases h
      exact .inl rfl
  · cases h
    exact .inl rfl

example : expandHome ⟨.empty, [], "", fun user => if user = "editor" then some "/shared//" else none⟩
    ⟨"", ["~editor", "book"]⟩ = .ok ⟨"/", ["shared", "book"]⟩ := by decide

theorem fault_of_expandHome (h : disk.expandHome location = .error fault) :
    fault = .pathWithNul ∨ fault = .unknownUser := by
  unfold expandHome at h
  split at h
  · split at h
    · exact fault_of_homeLocation (map_eq_error_iff.mp h)
    · cases h
  · cases h

end Bindery.Disk
