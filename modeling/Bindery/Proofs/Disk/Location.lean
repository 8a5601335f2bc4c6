/-
# Locations are read as they were written

A location that has been read is in normal form: it has no empty names and no dots, and its names hold no
slash.  Such a location is read again as it was written (`Location.ofText_text`), and so is what lies below
it.  A tilde changes only locations that start with one (`Location.Untilded`).
-/
import Bindery.Disk.Listing
import Bindery.Disk.Reader
import Bindery.Proofs.Disk.Home
import Bindery.Proofs.EntryPath.Segments

namespace Bindery

open EntryPath

namespace Location

/-! ## 1. Normal form -/

/-- A location as it is read. -/
structure IsNormal (location : Location) : Prop where
  root : location.root = "" ∨ location.root = "/" ∨ location.root = "//"
  names : ∀ name ∈ location.names, name ≠ "" ∧ name ≠ "." ∧ '/' ∉ name.toList

theorem isNormal_ofText (text : String) : (ofText text).IsNormal where
  root := by
    show rootOf text = "" ∨ rootOf text = "/" ∨ rootOf text = "//"
    unfold rootOf
    split
    · exact .inl rfl
    · exact .inr (.inr rfl)
    · exact .inr (.inl rfl)
  names := by
    intro name hname
    obtain ⟨hsegment, hkept⟩ := List.mem_filter.mp hname
    rw [decide_eq_true_eq] at hkept
    exact ⟨hkept.1, hkept.2, slash_not_mem_of_mem_segments hsegment⟩

/-- What is read from a text below a slash is what is read from the text. -/
theorem names_ofText_slash (text : String) :
    (ofText ("" ++ "/" ++ text)).names = (ofText text).names := by
  have hsegments := segments_below "" text
  show (segments ("" ++ "/" ++ text)).filter _ = (segments text).filter _
  rw [hsegments, List.filter_append]
  rfl

theorem names_ofText_ofSegments {names : List String}
    (h : ∀ name ∈ names, name ≠ "" ∧ name ≠ "." ∧ '/' ∉ name.toList) :
    (ofText (ofSegments names)).names = names := by
  show (segments (ofSegments names)).filter _ = names
  cases names with
  | nil => rfl
  | cons first rest =>
    rw [segments_ofSegments (List.cons_ne_nil _ _) fun name hname => (h name hname).2.2]
    refine List.filter_eq_self.mpr fun name hname => ?_
    rw [decide_eq_true_eq]
    exact ⟨(h name hname).1, (h name hname).2.1⟩

theorem takeWhile_slash_ofSegments {names : List String}
    (h : ∀ name ∈ names, name ≠ "" ∧ name ≠ "." ∧ '/' ∉ name.toList) :
    (ofSegments names).toList.takeWhile (· = '/') = [] := by
  have hhead := head?_ofSegments_ne_slash fun name hname => ⟨(h name hname).1, (h name hname).2.2⟩
  cases hchars : (ofSegments names).toList with
  | nil => rfl
  | cons c rest =>
    rw [hchars] at hhead
    rw [List.takeWhile_cons_of_neg (by simpa using hhead)]

/-- A location below the working directory is written as its names. -/
theorem text_of_names (first : String) (rest : List String) :
    text ⟨"", first :: rest⟩ = ofSegments (first :: rest) := by
  rw [text, if_neg (by simp)]
  exact String.empty_append

/-- **A location in normal form is read as it was written.** -/
theorem IsNormal.ofText_text {location : Location} (h : location.IsNormal) :
    ofText location.text = location := by
  obtain ⟨root, names⟩ := location
  have hnames : (ofText (ofSegments names)).names = names := names_ofText_ofSegments h.names
  have hslashes := takeWhile_slash_ofSegments h.names
  rcases h.root with hroot | hroot | hroot <;> dsimp only at hroot <;> subst hroot
  · cases names with
    | nil => rfl
    | cons first rest =>
      have hroot : rootOf (ofSegments (first :: rest)) = "" := by
        rw [rootOf, hslashes]
        rfl
      rw [text_of_names]
      exact congrArg₂ Location.mk hroot hnames
  · have htext : text ⟨"/", names⟩ = "" ++ "/" ++ ofSegments names := rfl
    have hroot : rootOf ("" ++ "/" ++ ofSegments names) = "/" := by
      rw [rootOf, String.toList_append, List.takeWhile_append_of_pos (by simp), hslashes]
      rfl
    rw [htext]
    refine congrArg₂ Location.mk hroot ?_
    exact (names_ofText_slash _).trans hnames
  · have htext : text ⟨"//", names⟩ = "" ++ "/" ++ ("" ++ "/" ++ ofSegments names) := by
      rw [text, if_neg (by simp), ← String.append_assoc, ← String.append_assoc]
      rfl
    have hroot : rootOf ("" ++ "/" ++ ("" ++ "/" ++ ofSegments names)) = "//" := by
      rw [rootOf, ← String.append_assoc, ← String.append_assoc, String.toList_append,
        List.takeWhile_append_of_pos (by simp), hslashes]
      rfl
    rw [htext]
    refine congrArg₂ Location.mk hroot ?_
    exact ((names_ofText_slash _).trans (names_ofText_slash _)).trans hnames

/-! ## 2. Locations below others -/

theorem root_of_relative {location : Location} (h : location.isAbsolute = false) :
    location.root = "" := by
  simpa [isAbsolute] using h

/-- The location that some names lead to from a location. -/
theorem child_eq_under (location : Location) (name : String) :
    location.child name = location.under ⟨"", [name]⟩ := rfl

theorem under_of_relative {directory location : Location} (h : location.isAbsolute = false) :
    directory.under location = ⟨directory.root, directory.names ++ location.names⟩ := by
  rw [Location.under, h]
  rfl

theorem IsNormal.under {directory location : Location} (hdirectory : directory.IsNormal)
    (h : location.IsNormal) : (directory.under location).IsNormal := by
  unfold Location.under
  split
  · exact h
  · refine ⟨hdirectory.root, ?_⟩
    intro name hname
    rcases List.mem_append.mp hname with hname | hname
    · exact hdirectory.names name hname
    · exact h.names name hname

/-- The entries of a directory have names that can stand in a location. -/
theorem IsNormal.child {directory : Location} (h : directory.IsNormal) {name : String}
    (hname : FileTree.isProperName name = true) : (directory.child name).IsNormal := by
  refine ⟨h.root, ?_⟩
  intro other hother
  rcases List.mem_append.mp hother with hother | hother
  · exact h.names other hother
  · rw [List.mem_singleton.mp hother]
    simp only [FileTree.isProperName, Bool.and_eq_true, decide_eq_true_eq, Bool.not_eq_true',
      List.contains_eq_mem, decide_eq_false_iff_not] at hname
    tauto

/-! ## 3. Tildes -/

/-- A location in which no tilde stands for a directory, and none will in what is below it. -/
def Untilded (location : Location) : Prop :=
  location.isAbsolute = true ∨
    ∃ first rest, location.names = first :: rest ∧ first.toList.head? ≠ some '~'

theorem Untilded.under {directory location : Location} (h : directory.Untilded)
    (hrelative : location.isAbsolute = false) : (directory.under location).Untilded := by
  rw [under_of_relative hrelative]
  rcases h with h | ⟨first, rest, hnames, hfirst⟩
  · exact .inl h
  · refine .inr ⟨first, rest ++ location.names, ?_, hfirst⟩
    rw [hnames, List.cons_append]

theorem Untilded.child {directory : Location} (h : directory.Untilded) (name : String) :
    (directory.child name).Untilded := by
  rw [child_eq_under]
  exact h.under rfl

theorem Untilded.expandHome {location : Location} (h : location.Untilded) (disk : Disk) :
    disk.expandHome location = .ok location := by
  rcases h with habsolute | ⟨first, rest, hnames, hfirst⟩
  · exact Disk.expandHome_of_absolute habsolute
  · refine Disk.expandHome_of_ne_tilde fun user others hother => ?_
    rw [hnames, List.cons.injEq] at hother
    rw [hother.1, String.toList_ofList] at hfirst
    exact hfirst rfl

/-- A location as recipes usually give it: it leads down from the working directory, and no tilde starts
it. -/
structure IsPlain (location : Location) : Prop where
  relative : location.isAbsolute = false
  not_dot : location.text ≠ "."
  no_tilde : location.text.toList.head? ≠ some '~'

theorem IsPlain.untilded {location : Location} (h : location.IsPlain) (hnormal : location.IsNormal) :
    location.Untilded := by
  obtain ⟨root, names⟩ := location
  obtain rfl : root = "" := root_of_relative h.relative
  cases names with
  | nil => exact absurd rfl h.not_dot
  | cons first rest =>
    refine .inr ⟨first, rest, rfl, ?_⟩
    have hhead := h.no_tilde
    rw [text_of_names, head?_ofSegments (hnormal.names first List.mem_cons_self).1] at hhead
    exact hhead

/-- A location that leads down from wherever it is read, with no tilde at its start. -/
structure LeadsDown (location : Location) : Prop where
  relative : location.isAbsolute = false
  no_dots : ".." ∉ location.names
  no_tilde : location.text.toList.head? ≠ some '~'

/-- Where a location is read from makes no difference if it starts at the top of the disk, or if reading
starts at the working directory. -/
theorem under_eq_self {base location : Location}
    (hbase : location.isAbsolute = true ∨ base = ⟨"", []⟩) : base.under location = location := by
  rw [Location.under]
  split
  · rfl
  · rename_i hrelative
    rw [hbase.resolve_left hrelative, ← root_of_relative (Bool.eq_false_iff.mpr hrelative)]
    rfl

/-- A location that is read from the working directory. -/
@[simp] theorem under_nil (location : Location) : under ⟨"", []⟩ location = location :=
  under_eq_self (.inr rfl)

end Location

/-! ## 4. Readers -/

namespace Reader

variable {reader : Reader}

theorem resolve_eq {path : String} (h : (Location.ofText path).Untilded) :
    reader.resolve path = .ok (reader.base.under (Location.ofText path)) := by
  rw [resolve, h.expandHome]
  rfl

/-- The text of a location is resolved to the location itself. -/
theorem resolve_text {location : Location} (hnormal : location.IsNormal)
    (huntilded : location.Untilded) (hbase : location.isAbsolute = true ∨ reader.base = ⟨"", []⟩) :
    reader.resolve location.text = .ok location := by
  have hread := hnormal.ofText_text
  rw [resolve_eq (hread.symm ▸ huntilded), hread, Location.under_eq_self hbase]

end Reader
end Bindery
