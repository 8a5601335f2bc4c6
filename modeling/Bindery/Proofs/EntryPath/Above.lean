/-
# Paths above paths

A path is above another if that one lies below a directory of the same name.  As some disks do not tell
capitals from small letters, this is read without regard to case, and then it is a matter of folded segments:
those of the one are a proper prefix of those of the other (`isAbove_iff`).  Paths that go on from a path
each are one above the other only if those are, or are the same (`IsAbove.of_starts`).
-/
import Mathlib.Data.List.Infix
import Bindery.Proofs.EntryPath.Segments
import Bindery.Proofs.FreshName

namespace Bindery.EntryPath

open Text

/-- A path lies below a directory of the name of another, but for the case of letters. -/
def IsAbove (upper lower : String) : Prop :=
  ∃ rest, foldCase lower = foldCase upper ++ "/" ++ rest

/-- No path of a list is above another, so all can be files of one tree. -/
def IsFileTree (paths : List String) : Prop :=
  ∀ upper ∈ paths, ∀ lower ∈ paths, ¬ IsAbove upper lower

/-! ## 1. Folded segments -/

/-- The segments of a path without regard to case. -/
def foldedSegments (path : String) : List String := (segments path).map foldCase

/-- Only a slash is folded to a slash. -/
theorem eq_slash_of_toLower {c : Char} (h : c.toLower = '/') : c = '/' := by
  unfold Char.toLower at h
  split at h
  · rename_i hcapital
    have hval := congrArg (fun c => c.val.toNat) h
    have hfirst : 'A'.val.toNat = 65 := rfl
    have hlast : 'Z'.val.toNat = 90 := rfl
    have hshift : ('a'.val - 'A'.val).toNat = 32 := rfl
    have hslash : '/'.val.toNat = 47 := rfl
    simp only [ge_iff_le, UInt32.le_iff_toNat_le] at hcapital
    simp only [UInt32.toNat_add] at hval
    omega
  · exact h

theorem slash_not_mem_foldCase {text : String} (h : '/' ∉ text.toList) :
    '/' ∉ (foldCase text).toList := by
  intro hmem
  rw [foldCase, String.toList_map] at hmem
  obtain ⟨c, hc, hfolded⟩ := List.mem_map.mp hmem
  exact h (eq_slash_of_toLower hfolded ▸ hc)

theorem foldCase_ofSegments : ∀ names : List String,
    foldCase (ofSegments names) = ofSegments (names.map foldCase)
  | [] => by decide +kernel
  | [name] => by simp [ofSegments]
  | name :: next :: names => by
    have ih := foldCase_ofSegments (next :: names)
    have hslash : foldCase "/" = "/" := by decide +kernel
    rw [ofSegments, List.map_cons] at ih
    simp only [ofSegments, List.map_cons, String.intercalate_cons_cons, foldCase_append, ih, hslash]

theorem segments_foldCase (path : String) : segments (foldCase path) = foldedSegments path := by
  conv_lhs => rw [← ofSegments_segments path, foldCase_ofSegments]
  refine segments_ofSegments (by simp [segments_ne_nil]) fun name hname => ?_
  obtain ⟨segment, hsegment, rfl⟩ := List.mem_map.mp hname
  exact slash_not_mem_foldCase (slash_not_mem_of_mem_segments hsegment)

/-- A path is known by its segments. -/
theorem segments_injective : Function.Injective segments :=
  Function.LeftInverse.injective ofSegments_segments

/-- **A path is above another** if its folded segments are a proper prefix of those of the other. -/
theorem isAbove_iff {upper lower : String} : IsAbove upper lower ↔
    foldedSegments upper <+: foldedSegments lower ∧ foldCase upper ≠ foldCase lower := by
  rw [← segments_foldCase, ← segments_foldCase]
  constructor
  · rintro ⟨rest, hlower⟩
    rw [hlower, segments_below]
    refine ⟨List.prefix_append _ _, fun heq => ?_⟩
    have hlength := congrArg String.length heq
    rw [String.length_append, String.length_append] at hlength
    have hslash : "/".length = 1 := rfl
    omega
  · rintro ⟨⟨rest, hrest⟩, hne⟩
    have hrestNe : rest ≠ [] := by
      rintro rfl
      rw [List.append_nil] at hrest
      exact hne (segments_injective hrest)
    refine ⟨ofSegments rest, ?_⟩
    rw [← ofSegments_segments (foldCase lower), ← hrest, ofSegments,
      String.intercalate_append_of_ne_nil (segments_ne_nil _) hrestNe]
    show ofSegments _ ++ _ ++ _ = _
    rw [ofSegments_segments]
    rfl

/-! ## 2. Paths that go on -/

variable {upper lower upperStart lowerStart : String}

theorem IsAbove.irrefl (path : String) : ¬ IsAbove path path :=
  fun h => (isAbove_iff.mp h).2 rfl

/-- Paths of which one is above the other start above each other, or alike. -/
theorem IsAbove.of_starts (h : IsAbove upper lower) (hupper : segments upperStart <+: segments upper)
    (hlower : segments lowerStart <+: segments lower) :
    IsAbove upperStart lowerStart ∨ IsAbove lowerStart upperStart ∨
      foldCase upperStart = foldCase lowerStart := by
  have hstart : foldedSegments upperStart <+: foldedSegments lower :=
    (hupper.map foldCase).trans (isAbove_iff.mp h).1
  by_cases hfold : foldCase upperStart = foldCase lowerStart
  · exact .inr (.inr hfold)
  · rcases List.prefix_or_prefix_of_prefix hstart (hlower.map foldCase) with hbefore | hbefore
    · exact .inl (isAbove_iff.mpr ⟨hbefore, hfold⟩)
    · exact .inr (.inl (isAbove_iff.mpr ⟨hbefore, Ne.symm hfold⟩))

/-- What follows after a common start differs by case alone at first. -/
theorem IsAbove.foldCase_eq (h : IsAbove upper lower) {front : List String} {left right : String}
    (hupper : front ++ [left] <+: segments upper) (hlower : front ++ [right] <+: segments lower) :
    foldCase left = foldCase right := by
  obtain ⟨upperRest, hupper⟩ := hupper
  obtain ⟨lowerRest, hlower⟩ := hlower
  have hfolded := (isAbove_iff.mp h).1
  simp only [foldedSegments, ← hupper, ← hlower, List.append_assoc, List.map_append,
    List.prefix_append_right_inj, List.cons_append, List.nil_append, List.map_cons,
    List.cons_prefix_cons] at hfolded
  exact hfolded.1

end Bindery.EntryPath
