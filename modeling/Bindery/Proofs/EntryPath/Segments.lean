/-
# Segments of paths

A path and its segments say the same: `ofSegments_segments` and `segments_ofSegments`.  Normalization
walks over the segments with a stack, so what it does is a fact about one step and then about a walk:
it invents no segment (`mem_of_mem_foldl_walk`), keeps names (`foldl_walk_names`), and lets `..` take
names back (`foldl_walk_climb`).  A path made of names only is left as it is
(`normalize_ofSegments`).
-/
import Mathlib.Data.List.Basic
import Bindery.EntryPath

namespace Bindery.EntryPath

/-! ## 1. Cutting and joining -/

theorem not_mem_of_mem_splitOn {separator : Char} : ∀ {chars piece : List Char},
    piece ∈ chars.splitOn separator → separator ∉ piece
  | [], piece, h => by
    rw [List.splitOn_nil, List.mem_singleton] at h
    simp [h]
  | c :: chars, piece, h => by
    rw [List.splitOn_cons_eq_if_modifyHead] at h
    split at h
    · rcases List.mem_cons.mp h with rfl | h
      · exact List.not_mem_nil
      · exact not_mem_of_mem_splitOn h
    · rename_i hc
      obtain ⟨first, rest, hsplit⟩ := List.exists_cons_of_ne_nil (List.splitOn_ne_nil separator chars)
      have hpiece : ∀ p ∈ first :: rest, separator ∉ p :=
        fun p hp => not_mem_of_mem_splitOn (hsplit ▸ hp)
      rw [hsplit, List.modifyHead_cons] at h
      rcases List.mem_cons.mp h with rfl | h
      · have hne : separator ≠ c := fun e => hc (by simp [e])
        simp [hne, hpiece first List.mem_cons_self]
      · exact hpiece piece (List.mem_cons_of_mem _ h)

/-- No segment holds a slash. -/
theorem slash_not_mem_of_mem_segments {path segment : String} (h : segment ∈ segments path) :
    '/' ∉ segment.toList := by
  obtain ⟨chars, hchars, rfl⟩ := List.mem_map.mp h
  rw [String.toList_ofList]
  exact not_mem_of_mem_splitOn hchars

theorem segments_ne_nil (path : String) : segments path ≠ [] := by
  simp [segments, List.splitOn_ne_nil]

/-- The segments of a path spell the path. -/
@[simp] theorem ofSegments_segments (path : String) : ofSegments (segments path) = path := by
  rw [← String.toList_inj]
  simp [ofSegments, segments, Function.comp_def]

/-- Segments without slashes are the segments of the path that they spell. -/
theorem segments_ofSegments {names : List String} (hne : names ≠ [])
    (h : ∀ name ∈ names, '/' ∉ name.toList) : segments (ofSegments names) = names := by
  have hsplit : (['/'].intercalate (names.map String.toList)).splitOn '/' =
      names.map String.toList :=
    List.splitOn_intercalate '/' (by simpa using h) (by simpa using hne)
  simp only [segments, ofSegments, String.toList_intercalate]
  rw [show "/".toList = ['/'] from rfl, hsplit]
  simp

/-- The segments of a path below a directory are those of both. -/
theorem segments_below (directory path : String) :
    segments (directory ++ "/" ++ path) = segments directory ++ segments path := by
  simp [segments, List.splitOn_append_cons_self]

/-- The characters of a path are slashes and the characters of its segments. -/
theorem mem_ofSegments {c : Char} : ∀ {names : List String}, c ∈ (ofSegments names).toList →
    c = '/' ∨ ∃ name ∈ names, c ∈ name.toList
  | [], h => by simp [ofSegments] at h
  | [name], h => .inr ⟨name, by simp, by simpa [ofSegments] using h⟩
  | name :: next :: names, h => by
    simp only [ofSegments, String.intercalate_cons_cons, String.toList_append,
      List.mem_append] at h
    rcases h with (h | h) | h
    · exact .inr ⟨name, by simp, h⟩
    · exact .inl (by simpa using h)
    · rcases mem_ofSegments h with h | ⟨other, hother, hc⟩
      · exact .inl h
      · exact .inr ⟨other, List.mem_cons_of_mem _ hother, hc⟩

theorem mem_ofSegments_of_mem {c : Char} {name : String} (hc : c ∈ name.toList) :
    ∀ {names : List String}, name ∈ names → c ∈ (ofSegments names).toList
  | [only], h => by
    rw [← List.mem_singleton.mp h]
    simpa [ofSegments] using hc
  | first :: next :: names, h => by
    simp only [ofSegments, String.intercalate_cons_cons, String.toList_append, List.mem_append]
    rcases List.mem_cons.mp h with rfl | h
    · exact .inl (.inl hc)
    · exact .inr (mem_ofSegments_of_mem hc h)

/-- The characters of a segment are characters of the path. -/
theorem mem_of_mem_segments {c : Char} {path segment : String} (h : segment ∈ segments path)
    (hc : c ∈ segment.toList) : c ∈ path.toList := by
  simpa using mem_ofSegments_of_mem hc h

/-- A path starts as its first segment does, unless that is empty. -/
theorem head?_ofSegments {name : String} (hname : name ≠ "") : ∀ names : List String,
    (ofSegments (name :: names)).toList.head? = name.toList.head?
  | [] => by simp [ofSegments]
  | next :: names => by
    obtain ⟨c, rest, hchars⟩ := List.exists_cons_of_ne_nil (l := name.toList) (by simpa using hname)
    simp [ofSegments, hchars]

/-! ## 2. Walking over segments -/

/-- A segment that normalization keeps: the name of a file or of a directory. -/
structure IsName (segment : String) : Prop where
  ne_empty : segment ≠ ""
  ne_dot : segment ≠ "."
  ne_dots : segment ≠ ".."
  no_slash : '/' ∉ segment.toList

theorem IsName.walk {segment : String} (h : IsName segment) (rooted : Bool)
    (walked : List String) : EntryPath.walk rooted walked segment = segment :: walked := by
  simp [EntryPath.walk, h.ne_empty, h.ne_dot, h.ne_dots]

/-- After a name, `..` takes it back. -/
theorem IsName.walk_dots {name : String} (h : IsName name) (rooted : Bool) (walked : List String) :
    EntryPath.walk rooted (name :: walked) ".." = walked := by
  simp [EntryPath.walk, h.ne_dots]

/-- A walk over names puts them all on the stack. -/
theorem foldl_walk_names {rooted : Bool} : ∀ {names walked : List String},
    (∀ name ∈ names, IsName name) → names.foldl (walk rooted) walked = names.reverse ++ walked
  | [], walked, _ => rfl
  | name :: names, walked, h => by
    rw [List.foldl_cons, (h name List.mem_cons_self).walk,
      foldl_walk_names fun other hother => h other (List.mem_cons_of_mem _ hother)]
    simp

/-- As many `..` as there are names on top of the stack take these back. -/
theorem foldl_walk_climb {rooted : Bool} : ∀ {names walked : List String},
    (∀ name ∈ names, IsName name) →
      (List.replicate names.length "..").foldl (walk rooted) (names ++ walked) = walked
  | [], walked, _ => rfl
  | name :: names, walked, h => by
    rw [List.length_cons, List.replicate_succ, List.foldl_cons, List.cons_append,
      (h name List.mem_cons_self).walk_dots,
      foldl_walk_climb fun other hother => h other (List.mem_cons_of_mem _ hother)]

/-- One step puts nothing on the stack but its segment. -/
theorem mem_of_mem_walk {rooted : Bool} {walked : List String} {segment s : String}
    (h : s ∈ walk rooted walked segment) : s = segment ∨ s ∈ walked := by
  unfold walk at h
  split at h
  · exact .inr h
  · split at h
    · rename_i hdots
      split at h
      · split at h
        · exact .inr h
        · exact .inl (by simpa [hdots] using h)
      · split at h
        · rename_i hlast
          rcases List.mem_cons.mp h with rfl | h
          · exact .inl hdots.symm
          · exact .inr h
        · exact .inr (List.mem_cons_of_mem _ h)
    · exact List.mem_cons.mp h

theorem mem_of_mem_foldl_walk {rooted : Bool} {s : String} : ∀ {names walked : List String},
    s ∈ names.foldl (walk rooted) walked → s ∈ names ∨ s ∈ walked
  | [], walked, h => .inr h
  | name :: names, walked, h => by
    rw [List.foldl_cons] at h
    rcases mem_of_mem_foldl_walk h with h | h
    · exact .inl (List.mem_cons_of_mem _ h)
    · rcases mem_of_mem_walk h with rfl | h
      · exact .inl List.mem_cons_self
      · exact .inr h

/-! ## 3. Normalization -/

/-- Only a path that starts with a slash has a root. -/
theorem root_eq_empty {path : String} (h : path.toList.head? ≠ some '/') : root path = "" := by
  unfold root
  cases hpath : path.toList with
  | nil => rfl
  | cons c rest =>
    have hc : c ≠ '/' := by simpa [hpath] using h
    simp [hc]

theorem normalize_eq_of_relative {path : String} (h : path.toList.head? ≠ some '/') :
    normalize path = ofSegments (resolved false (segments path)) := by
  simp [normalize, root_eq_empty h]

/-- Normalization brings no characters into a path but slashes. -/
theorem mem_of_mem_normalize {c : Char} {path : String} (h : c ∈ (normalize path).toList) :
    c = '/' ∨ c ∈ path.toList := by
  rw [normalize, String.toList_append, List.mem_append] at h
  rcases h with h | h
  · left
    unfold root at h
    split at h <;> simp_all
  · rcases mem_ofSegments h with h | ⟨segment, hsegment, hc⟩
    · exact .inl h
    · rw [resolved, List.mem_reverse] at hsegment
      rcases mem_of_mem_foldl_walk hsegment with hsegment | hsegment
      · exact .inr (mem_of_mem_segments hsegment hc)
      · cases hsegment

theorem mem_of_mem_join {c : Char} {directory path : String}
    (h : c ∈ (join directory path).toList) :
    c = '/' ∨ c ∈ directory.toList ∨ c ∈ path.toList := by
  unfold join at h
  split at h
  · exact (mem_of_mem_normalize h).imp_right .inr
  · rcases mem_of_mem_normalize h with h | h
    · exact .inl h
    · simp only [String.toList_append, List.mem_append] at h
      rcases h with (h | h) | h
      · exact .inr (.inl h)
      · exact .inl (by simpa using h)
      · exact .inr (.inr h)

theorem resolved_names {rooted : Bool} {names : List String} (h : ∀ name ∈ names, IsName name) :
    resolved rooted names = names := by
  simp [resolved, foldl_walk_names h]

/-- A path whose segments are not empty does not start with a slash. -/
theorem head?_ofSegments_ne_slash {names : List String}
    (h : ∀ name ∈ names, name ≠ "" ∧ '/' ∉ name.toList) :
    (ofSegments names).toList.head? ≠ some '/' := by
  cases names with
  | nil => simp [ofSegments]
  | cons name names =>
    obtain ⟨hne, hslash⟩ := h name List.mem_cons_self
    rw [head?_ofSegments hne]
    exact fun hhead => hslash (List.mem_of_mem_head? hhead)

/-- Normalization of a path that is given by segments, none of them empty. -/
theorem normalize_ofSegments_eq {names : List String}
    (h : ∀ name ∈ names, name ≠ "" ∧ '/' ∉ name.toList) :
    normalize (ofSegments names) = ofSegments (resolved false names) := by
  rw [normalize_eq_of_relative (head?_ofSegments_ne_slash h)]
  cases names with
  | nil => rfl
  | cons name names =>
    rw [segments_ofSegments (by simp) fun other hother => (h other hother).2]

/-- A path of names is in normal form. -/
theorem normalize_ofSegments {names : List String} (h : ∀ name ∈ names, IsName name) :
    normalize (ofSegments names) = ofSegments names := by
  rw [normalize_ofSegments_eq fun name hname => ⟨(h name hname).ne_empty, (h name hname).no_slash⟩,
    resolved_names h]

end Bindery.EntryPath
