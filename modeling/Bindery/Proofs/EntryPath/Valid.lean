/-
# Paths that may name an entry

`IsValid` says which paths the check accepts (`check_eq_ok_iff`).  All that the links between documents
rely on follows from it: such a path is relative and in normal form (`IsValid.normalize_eq`), its
components are its segments (`IsValid.components_eq`), and none of them leads to another directory
than the one it stands in.
-/
import Bindery.EntryPath.Check
import Bindery.Proofs.EntryPath.Segments

namespace Bindery.EntryPath

/-! ## 1. What the check accepts -/

/-- A segment that the check accepts. -/
structure IsComponent (component : String) : Prop where
  ne_empty : component ≠ ""
  allowed : ∀ c ∈ component.toList, c ∉ forbidden
  no_dot_at_end : component.toList.getLast? ≠ some '.'

/-- A path that the check accepts. -/
structure IsValid (path : String) : Prop where
  components : ∀ component ∈ segments path, IsComponent component
  fileName_size : (fileName path).utf8ByteSize ≤ maxFileNameBytes
  size : path.utf8ByteSize ≤ maxPathBytes

theorem componentFault?_eq_none_iff {path component : String} :
    componentFault? path component = none ↔ IsComponent component := by
  unfold componentFault?
  constructor
  · intro h
    split at h
    · cases h
    · rename_i hne
      split at h
      · cases h
      · rename_i hfind
        refine ⟨hne, fun c hc hforbidden => ?_, ?_⟩
        · have := List.find?_eq_none.mp hfind c hforbidden
          simp [hc] at this
        · intro hdot
          simp [hdot] at h
  · intro h
    have hfind : forbidden.find? (component.toList.contains ·) = none := by
      refine List.find?_eq_none.mpr fun c hforbidden hc => ?_
      exact h.allowed c (by simpa using hc) hforbidden
    rw [if_neg h.ne_empty, hfind]
    simp [h.no_dot_at_end]

/-- A component is a name: it is neither `.` nor `..` and holds no slash. -/
theorem IsComponent.isName {component : String} (h : IsComponent component) :
    IsName component where
  ne_empty := h.ne_empty
  ne_dot := by rintro rfl; exact h.no_dot_at_end rfl
  ne_dots := by rintro rfl; exact h.no_dot_at_end rfl
  no_slash hslash := h.allowed '/' hslash (by decide)

theorem fileName_mem_segments (path : String) : fileName path ∈ segments path := by
  rw [fileName, List.getLast?_eq_getLast_of_ne_nil (segments_ne_nil path)]
  exact List.getLast_mem _

/-- The last segment stands after the others. -/
theorem dropLast_append_fileName (path : String) :
    (segments path).dropLast ++ [fileName path] = segments path := by
  rw [fileName, List.getLast?_eq_getLast_of_ne_nil (segments_ne_nil path), Option.getD_some,
    List.dropLast_concat_getLast]

namespace IsValid

variable {path : String}

theorem isName (h : IsValid path) : ∀ segment ∈ segments path, IsName segment :=
  fun segment hsegment => (h.components segment hsegment).isName

/-- A valid path does not start at the top of the disk it is unpacked to. -/
theorem relative (h : IsValid path) : path.toList.head? ≠ some '/' := by
  rw [← ofSegments_segments path]
  exact head?_ofSegments_ne_slash fun segment hsegment =>
    ⟨(h.isName segment hsegment).ne_empty, (h.isName segment hsegment).no_slash⟩

theorem ne_empty (h : IsValid path) : path ≠ "" := by
  rintro rfl
  exact (h.components "" (by decide)).ne_empty rfl

theorem not_backslash_mem (h : IsValid path) : '\\' ∉ path.toList := by
  intro hmem
  rw [← ofSegments_segments path] at hmem
  rcases mem_ofSegments hmem with hslash | ⟨segment, hsegment, hc⟩
  · exact absurd hslash (by decide)
  · exact (h.components segment hsegment).allowed _ hc (by decide)

end IsValid

theorem fault?_eq_none_iff {path : String} : fault? path = none ↔ IsValid path := by
  rw [fault?]
  constructor
  · intro h
    split at h
    · cases h
    split at h
    · cases h
    split at h
    · cases h
    split at h
    · cases h
    rename_i hname hpath
    exact {
      components := fun component hcomponent =>
        componentFault?_eq_none_iff.mp (List.findSome?_eq_none_iff.mp h component hcomponent)
      fileName_size := Nat.not_lt.mp hname
      size := Nat.not_lt.mp hpath }
  · intro h
    have hname := h.isName _ (fileName_mem_segments path)
    rw [if_neg h.relative, if_neg (not_or.mpr ⟨hname.ne_empty, hname.ne_dots⟩),
      if_neg (Nat.not_lt.mpr h.fileName_size), if_neg (Nat.not_lt.mpr h.size)]
    exact List.findSome?_eq_none_iff.mpr fun component hcomponent =>
      componentFault?_eq_none_iff.mpr (h.components component hcomponent)

instance (path : String) : Decidable (IsValid path) :=
  decidable_of_iff (fault? path = none) fault?_eq_none_iff

/-- The check accepts the valid paths and no others. -/
theorem check_eq_ok_iff {path : String} : check path = .ok () ↔ IsValid path := by
  rw [← fault?_eq_none_iff, check]
  split <;> simp_all

/-! ## 2. Valid paths are in normal form -/

namespace IsValid

variable {path : String}

theorem normalize_eq (h : IsValid path) : normalize path = path := by
  simpa using normalize_ofSegments h.isName

theorem components_eq (h : IsValid path) : EntryPath.components path = segments path := by
  have hmap : path.map (fun c => if c = '\\' then '/' else c) = path := by
    rw [← String.toList_inj, String.toList_map]
    refine (List.map_congr_left fun c hc => if_neg ?_).trans (List.map_id _)
    rintro rfl
    exact h.not_backslash_mem hc
  rw [EntryPath.components, hmap, h.normalize_eq]
  exact List.filter_eq_self.mpr fun segment hsegment => by
    simpa using (h.components segment hsegment).ne_empty

end IsValid
end Bindery.EntryPath
