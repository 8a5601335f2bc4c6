/-
# Where the items of a book go

The paths of the items are collected one by one, a later item taking the place of an earlier one with
its identifier (`lookup_itemPathsOf`).  In an accepted book no two items have one identifier, so each
item is at its own path (`Accepts.itemPath_eq`), and every path that a document links to is a valid one
among the paths of the copied files.
-/
import Mathlib.Data.List.Induction
import Mathlib.Data.List.Nodup
import Bindery.Proofs.EntryPath.Link
import Bindery.Proofs.Validation

namespace Bindery

/-! ## 1. Paths by identifier -/

namespace Layout

variable {layout : Layout} {book : Book}

theorem lookup_setPath (id path name : String) : ∀ paths : List (String × String),
    (setPath id path paths).lookup name = if name = id then some path else paths.lookup name
  | [] => by
    by_cases h : name = id <;> simp [setPath, h]
  | (other, old) :: rest => by
    have ih := lookup_setPath id path name rest
    unfold setPath
    by_cases hother : other = id
    · subst hother
      rw [if_pos rfl, List.lookup_cons, List.lookup_cons]
      by_cases h : name = other
      · simp [h]
      · simp [h, beq_eq_false_iff_ne.mpr h]
    · rw [if_neg hother, List.lookup_cons, List.lookup_cons, ih]
      by_cases h : name = other
      · simp [h, hother]
      · simp [beq_eq_false_iff_ne.mpr h]

/-- The path of an identifier is the path of the last item that has it. -/
theorem lookup_itemPathsOf (directory id : String) (manifest : List ManifestItem) :
    (itemPathsOf directory manifest).lookup id =
      (manifest.reverse.find? (·.id == id)).map fun item => EntryPath.join directory item.path := by
  induction manifest using List.reverseRecOn with
  | nil => rfl
  | append_singleton manifest item ih =>
    rw [itemPathsOf, List.foldl_append, List.foldl_cons, List.foldl_nil, lookup_setPath,
      ← itemPathsOf, ih, List.reverse_append, List.reverse_singleton, List.singleton_append,
      List.find?_cons]
    by_cases h : item.id = id
    · simp [h]
    · have hne : id ≠ item.id := fun heq => h heq.symm
      rw [beq_eq_false_iff_ne.mpr h, if_neg hne]

theorem itemPath_eq_ok_iff {idref path : String} {referrer : Referrer} :
    layout.itemPath idref referrer = .ok path ↔ layout.itemPaths.lookup idref = some path := by
  unfold itemPath
  cases layout.itemPaths.lookup idref <;> simp

theorem itemPath_referrer {idref path : String} {referrer : Referrer}
    (h : layout.itemPath idref referrer = .ok path) (other : Referrer) :
    layout.itemPath idref other = .ok path :=
  itemPath_eq_ok_iff.mpr (itemPath_eq_ok_iff.mp h)

theorem of_itemPath_eq_ok {idref path : String} {referrer : Referrer}
    (h : (Layout.of book).itemPath idref referrer = .ok path) :
    ∃ item ∈ book.manifest, item.id = idref ∧
      path = EntryPath.join (Layout.of book).directory item.path := by
  have hlookup : (itemPathsOf (Layout.of book).directory book.manifest).lookup idref = some path :=
    itemPath_eq_ok_iff.mp h
  rw [lookup_itemPathsOf, Option.map_eq_some_iff] at hlookup
  obtain ⟨item, hitem, rfl⟩ := hlookup
  have hid := List.find?_some hitem
  exact ⟨item, List.mem_reverse.mp (List.mem_of_find?_eq_some hitem), by simpa using hid, rfl⟩

theorem exists_itemPath_of_mem {item : ManifestItem} (h : item ∈ book.manifest)
    (referrer : Referrer) : ∃ path, (Layout.of book).itemPath item.id referrer = .ok path := by
  have hfound : (book.manifest.reverse.find? (·.id == item.id)).isSome = true := by
    rw [List.find?_isSome]
    exact ⟨item, List.mem_reverse.mpr h, by simp⟩
  obtain ⟨other, hother⟩ := Option.isSome_iff_exists.mp hfound
  refine ⟨EntryPath.join (Layout.of book).directory other.path, itemPath_eq_ok_iff.mpr ?_⟩
  have hlookup := lookup_itemPathsOf (Layout.of book).directory item.id book.manifest
  rw [hother] at hlookup
  exact hlookup

theorem copied_of_item {item : ManifestItem} (h : item ∈ book.manifest) :
    (item.source, EntryPath.join layout.directory item.path) ∈ layout.copied book :=
  List.mem_append_left _ (List.mem_map_of_mem h)

end Layout

/-! ## 2. Paths of an accepted book -/

namespace Validation.Accepts

variable {book : Book}

theorem copied_valid {layout : Layout} (h : Accepts layout book) {source path : String}
    (hfile : (source, path) ∈ layout.copied book) : EntryPath.IsValid path :=
  h.paths_valid path (List.mem_append_left _ (List.mem_map.mpr ⟨(source, path), hfile, rfl⟩))

theorem generated_valid {layout : Layout} (h : Accepts layout book) {path : String}
    (hpath : path ∈ layout.generated) : EntryPath.IsValid path :=
  h.paths_valid _ (List.mem_append_right _ hpath)

theorem packagePath_valid {layout : Layout} (h : Accepts layout book) :
    EntryPath.IsValid layout.packagePath :=
  h.generated_valid (by simp [Layout.generated])

theorem navigationPath_valid {layout : Layout} (h : Accepts layout book) :
    EntryPath.IsValid layout.navigationPath :=
  h.generated_valid (by simp [Layout.generated])

theorem itemPath_valid (h : Accepts (Layout.of book) book) {idref path : String}
    {referrer : Referrer} (hpath : (Layout.of book).itemPath idref referrer = .ok path) :
    EntryPath.IsValid path := by
  obtain ⟨item, hitem, -, hjoin⟩ := Layout.of_itemPath_eq_ok hpath
  rw [hjoin]
  exact h.copied_valid (Layout.copied_of_item hitem)

theorem manifest_ids_nodup {layout : Layout} (h : Accepts layout book) :
    (book.manifest.map (·.id)).Nodup := by
  have hids : (layout.identifiers book).Nodup := List.Nodup.of_map _ h.identifiers_distinct
  rw [Layout.identifiers, List.append_assoc] at hids
  exact (List.nodup_append.mp hids).1

/-- Each item of an accepted book is at its own path. -/
theorem itemPath_eq (h : Accepts (Layout.of book) book) {item : ManifestItem}
    (hitem : item ∈ book.manifest) (referrer : Referrer) :
    (Layout.of book).itemPath item.id referrer =
      .ok (EntryPath.join (Layout.of book).directory item.path) := by
  obtain ⟨path, hpath⟩ := Layout.exists_itemPath_of_mem hitem referrer
  obtain ⟨other, hother, hid, hjoin⟩ := Layout.of_itemPath_eq_ok hpath
  obtain rfl : other = item := List.inj_on_of_nodup_map h.manifest_ids_nodup hother hitem hid
  rw [hpath, hjoin]

/-! ## 3. References of an accepted book -/

theorem exists_itemPath (h : Accepts (Layout.of book) book) {idref : String} {referrer : Referrer}
    (hreference : (idref, referrer) ∈ references book) (other : Referrer) :
    ∃ path, (Layout.of book).itemPath idref other = .ok path := by
  obtain ⟨path, hpath⟩ := h.references_resolve _ hreference
  exact ⟨path, Layout.itemPath_referrer hpath other⟩

/-- The reading order of an accepted book names items, whether the recipe gives it or not. -/
theorem exists_entries (h : Accepts (Layout.of book) book) :
    ∃ entries, Spine.entries book = .ok entries ∧ ∀ entry ∈ entries, ∀ referrer,
      ∃ path, (Layout.of book).itemPath entry.idref referrer = .ok path := by
  unfold Spine.entries
  cases hspine : book.spine with
  | none =>
    obtain ⟨first, hfirst⟩ := h.has_eligible
    refine ⟨[⟨first.id, none⟩], map_eq_ok_iff.mpr ⟨first, hfirst, rfl⟩, ?_⟩
    intro entry hentry referrer
    rw [List.mem_singleton.mp hentry]
    exact Layout.exists_itemPath_of_mem (Spine.mem_of_firstEligibleOf hfirst) referrer
  | some items =>
    refine ⟨_, rfl, fun entry hentry referrer => ?_⟩
    obtain ⟨item, hitem, rfl⟩ := List.mem_map.mp hentry
    have hreference : (item.idref, Referrer.spine) ∈ references book :=
      mem_references.mpr (.inl ⟨item, by simpa [hspine] using hitem, rfl⟩)
    exact h.exists_itemPath hreference referrer

/-- The first linear item of an accepted book is an item. -/
theorem exists_firstLinear (h : Accepts (Layout.of book) book) :
    ∃ idref, Spine.firstLinear book = .ok idref ∧
      ∀ referrer, ∃ path, (Layout.of book).itemPath idref referrer = .ok path := by
  obtain ⟨idref, hlinear⟩ := h.has_linear
  refine ⟨idref, hlinear, fun referrer => ?_⟩
  obtain ⟨entries, hentries, hpaths⟩ := h.exists_entries
  obtain ⟨entries', hentries', hfound⟩ := bind_eq_ok_iff.mp hlinear
  obtain rfl : entries = entries' := Except.ok.inj (hentries.symm.trans hentries')
  split at hfound
  · rename_i entry hentry
    cases hfound
    exact hpaths entry (List.mem_of_find?_eq_some hentry) referrer
  · cases hfound

end Validation.Accepts
end Bindery
