/-
# Which links identify their target

A link to a fragment is the link to the item, a `#` and the fragment.  A reader cuts it at its first `#`,
and gets back what was put together exactly if the link to the item holds no `#` itself
(`forall_cut_withFragment_iff`).  Paths may hold a `#`, and it is written as it is, so this is not so for
every item: `links_identify_iff` says for which items it is so, and that links to such items are equal
only if they lead to the same place.
-/
import Mathlib.Data.List.TakeWhile
import Bindery.Proofs.Layout.Legal

namespace Bindery

namespace EntryPath

theorem mem_climb {c : Char} {levels : Nat} (h : c ∈ (climb levels).toList) : c = '.' ∨ c = '/' := by
  induction levels with
  | zero => simp [climb] at h
  | succ levels ih =>
    rw [climb, List.replicate_succ, String.join_cons, ← climb, String.toList_append,
      List.mem_append] at h
    rcases h with h | h
    · have hup : "../".toList = ['.', '.', '/'] := rfl
      rw [hup] at h
      simpa using h
    · exact ih h

theorem dropLast_concat_fileName (path : String) :
    (segments path).dropLast ++ [fileName path] = segments path := by
  rw [fileName, List.getLast?_eq_getLast_of_ne_nil (segments_ne_nil path), Option.getD_some,
    List.dropLast_concat_getLast]

end EntryPath

namespace Layout

/-! ## 1. Cutting a link -/

/-- A link cut at its first `#`: what stands before, and what stands after it if there is one. -/
def cut (href : String) : String × Option String :=
  let before := href.toList.takeWhile (· ≠ '#')
  match href.toList.dropWhile (· ≠ '#') with
  | [] => (String.ofList before, none)
  | _ :: after => (String.ofList before, some (String.ofList after))

/-- The fragment that a link shows; an empty one is not shown. -/
def shown (fragment : Option String) : Option String :=
  fragment.filter (· ≠ "")

/-- The link to a fragment of an item, given the link to the item. -/
def withFragment (base : String) : Option String → String
  | none => base
  | some name => base ++ "#" ++ name

theorem shown_some {name : String} (h : name ≠ "") : shown (some name) = some name :=
  Option.filter_eq_some_iff.mpr ⟨rfl, by simpa using h⟩

theorem cut_of_notMem {base : String} (h : '#' ∉ base.toList) : cut base = (base, none) := by
  have hall : ∀ c ∈ base.toList, decide (c ≠ '#') = true := by
    intro c hc
    simpa using fun heq : c = '#' => h (heq ▸ hc)
  have hbefore : base.toList.takeWhile (· ≠ '#') = base.toList :=
    List.takeWhile_eq_self_iff.mpr hall
  have hafter : base.toList.dropWhile (· ≠ '#') = [] := List.dropWhile_eq_nil_iff.mpr hall
  rw [cut, hbefore, hafter, String.ofList_toList]

theorem cut_append {base : String} (h : '#' ∉ base.toList) (name : String) :
    cut (base ++ "#" ++ name) = (base, some name) := by
  have hall : ∀ c ∈ base.toList, decide (c ≠ '#') = true := by
    intro c hc
    simpa using fun heq : c = '#' => h (heq ▸ hc)
  have hchars : (base ++ "#" ++ name).toList = base.toList ++ '#' :: name.toList := by
    simp
  have hbefore : (base ++ "#" ++ name).toList.takeWhile (· ≠ '#') = base.toList := by
    rw [hchars, List.takeWhile_append_of_pos hall]
    simp
  have hafter : (base ++ "#" ++ name).toList.dropWhile (· ≠ '#') = '#' :: name.toList := by
    rw [hchars, List.dropWhile_append_of_pos hall]
    simp
  simp only [cut, hbefore, hafter, String.ofList_toList]

/-- A link with a `#` shows a fragment, whether one was meant or not. -/
theorem cut_of_mem {base : String} (h : '#' ∈ base.toList) : (cut base).2 ≠ none := by
  intro hnone
  unfold cut at hnone
  split at hnone
  · rename_i hafter
    have hplain := List.dropWhile_eq_nil_iff.mp hafter '#' h
    exact absurd hplain (by decide)
  · cases hnone

/-- **Cutting takes a link apart** into the link to the item and the fragment, whatever the fragment is,
exactly if the link to the item holds no `#`. -/
theorem forall_cut_withFragment_iff {base : String} :
    (∀ fragment, cut (withFragment base (shown fragment)) = (base, shown fragment)) ↔
      '#' ∉ base.toList := by
  constructor
  · intro h hmem
    have hnone : cut base = (base, none) := h none
    exact cut_of_mem hmem (congrArg Prod.snd hnone)
  · intro h fragment
    cases shown fragment with
    | none => exact cut_of_notMem h
    | some name => exact cut_append h name

/-! ## 2. Links to items -/

variable {book : Book} {layout : Layout}

theorem itemLink_eq (source idref : String) (fragment : Option String) (referrer : Referrer) :
    layout.itemLink source idref fragment referrer = do
      let path ← layout.itemPath idref referrer
      let base ← link source path
      return withFragment base (shown fragment) := by
  cases fragment with
  | none => rfl
  | some name =>
    by_cases hname : name = ""
    · rw [hname]
      rfl
    · simp only [itemLink, if_neg hname, shown_some hname, withFragment]

/-- **The link to a fragment of an item** is the link to its path, with the fragment that is shown. -/
theorem itemLink_eq_ok_iff {source idref href : String} {fragment : Option String}
    {referrer : Referrer} : layout.itemLink source idref fragment referrer = .ok href ↔
      ∃ path base, layout.itemPath idref referrer = .ok path ∧ link source path = .ok base ∧
        withFragment base (shown fragment) = href := by
  simp only [itemLink_eq, bind_eq_ok_iff, pure_eq_ok_iff]
  constructor
  · rintro ⟨path, hpath, base, hbase, rfl⟩
    exact ⟨path, base, hpath, hbase, rfl⟩
  · rintro ⟨path, base, hpath, hbase, rfl⟩
    exact ⟨path, hpath, base, hbase, rfl⟩

/-- A link holds no character that its target does not hold, but dots and slashes. -/
theorem mem_of_mem_link {source target base : String} {c : Char} (htarget : EntryPath.IsValid target)
    (h : link source target = .ok base) (hc : c ∈ base.toList) :
    c = '.' ∨ c = '/' ∨ c ∈ target.toList := by
  have hrelative := mapError_eq_ok_iff.mp h
  rw [EntryPath.relative_eq_ok htarget, Except.ok.injEq, EntryPath.relativeFrom_eq] at hrelative
  rw [← hrelative, String.toList_append, List.mem_append] at hc
  rcases hc with hc | hc
  · rcases EntryPath.mem_climb hc with hc | hc
    · exact .inl hc
    · exact .inr (.inl hc)
  · rcases EntryPath.mem_ofSegments hc with hc | ⟨name, hname, hc⟩
    · exact .inr (.inl hc)
    · rw [EntryPath.dropLast_concat_fileName] at hname
      exact .inr (.inr (EntryPath.mem_of_mem_segments (List.mem_of_mem_drop hname) hc))

/-! ## 3. Links that identify their target -/

/-- All links from a document to an item identify their target: what stands before the first `#` leads to
the item, and what stands after it is the fragment. -/
def Identifies (layout : Layout) (document idref : String) : Prop :=
  ∀ (fragment : Option String) (referrer : Referrer), ∃ path href,
    layout.itemPath idref referrer = .ok path ∧
    layout.itemLink document idref fragment referrer = .ok href ∧
    EntryPath.follow document (cut href).1 = path ∧ (cut href).2 = shown fragment

/-- The links from a document to an item: each is the link to its path with the fragment, and that link
leads to the path.  They identify their targets exactly if the link to the path holds no `#`. -/
structure Linked (layout : Layout) (document idref : String) (path base : String) : Prop where
  found : ∀ referrer, layout.itemPath idref referrer = .ok path
  links : ∀ fragment referrer,
    layout.itemLink document idref fragment referrer = .ok (withFragment base (shown fragment))
  leads : EntryPath.follow document base = path
  identifies_iff : layout.Identifies document idref ↔ '#' ∉ base.toList
  /-- A path without a `#` is linked to without a `#`. -/
  plain : '#' ∉ path.toList → '#' ∉ base.toList

/-- No two items of an accepted book are at one path. -/
theorem item_eq_of_path (haccepts : Validation.Accepts layout book) {left right : ManifestItem}
    (hleft : left ∈ book.manifest) (hright : right ∈ book.manifest)
    (h : EntryPath.join layout.directory left.path = EntryPath.join layout.directory right.path) :
    left = right := by
  have hcopied : ((layout.copied book).map (·.2) ++ layout.generated).Nodup :=
    List.Nodup.of_map _ haccepts.paths_distinct
  have hpaths : (book.manifest.map fun item => EntryPath.join layout.directory item.path).Nodup := by
    simp only [copied, List.map_append, List.map_map, Function.comp_def, List.append_assoc] at hcopied
    exact (List.nodup_append.mp hcopied).1
  exact List.inj_on_of_nodup_map hpaths hleft hright h

section Accepted

variable (haccepts : Validation.Accepts (Layout.of book) book)

include haccepts

theorem exists_linked {document : String} (hdocument : EntryPath.IsValid document)
    {item : ManifestItem} (hitem : item ∈ book.manifest) :
    ∃ path base, (Layout.of book).Linked document item.id path base := by
  obtain ⟨path, hpath⟩ := exists_itemPath_of_mem hitem .manifest
  have hvalid := haccepts.itemPath_valid hpath
  obtain ⟨base, hbase⟩ := exists_link document hvalid
  have hpaths : ∀ referrer, (Layout.of book).itemPath item.id referrer = .ok path :=
    itemPath_referrer hpath
  have hlinks : ∀ fragment referrer, (Layout.of book).itemLink document item.id fragment referrer =
      .ok (withFragment base (shown fragment)) :=
    fun fragment referrer => itemLink_eq_ok_iff.mpr ⟨path, base, hpaths referrer, hbase, rfl⟩
  have hleads : EntryPath.follow document base = path :=
    EntryPath.follow_relative hdocument hvalid (mapError_eq_ok_iff.mp hbase)
  refine ⟨path, base, hpaths, hlinks, hleads, ?_, ?_⟩
  · constructor
    · intro h hmem
      obtain ⟨_, href, -, hhref, -, hshown⟩ := h none .manifest
      rw [hlinks, Except.ok.injEq] at hhref
      rw [← hhref] at hshown
      exact cut_of_mem hmem hshown
    · intro h fragment referrer
      have hcut := forall_cut_withFragment_iff.mpr h fragment
      refine ⟨path, _, hpaths referrer, hlinks fragment referrer, ?_, ?_⟩
      · rw [hcut]
        exact hleads
      · rw [hcut]
  · intro hplain hmem
    rcases mem_of_mem_link hvalid hbase hmem with hdot | hslash | htarget
    · exact absurd hdot (by decide)
    · exact absurd hslash (by decide)
    · exact hplain htarget

/-- Links that identify their targets are equal only if these are. -/
theorem eq_of_identifies {document : String} {left right : ManifestItem}
    (hleft : left ∈ book.manifest) (hright : right ∈ book.manifest)
    (hleftIdentifies : (Layout.of book).Identifies document left.id)
    (hrightIdentifies : (Layout.of book).Identifies document right.id)
    {fragment other : Option String} {referrer referrer' : Referrer}
    (h : (Layout.of book).itemLink document left.id fragment referrer =
      (Layout.of book).itemLink document right.id other referrer') :
    left = right ∧ shown fragment = shown other := by
  obtain ⟨path, href, hpath, hhref, hfollow, hshown⟩ := hleftIdentifies fragment referrer
  obtain ⟨path', href', hpath', hhref', hfollow', hshown'⟩ := hrightIdentifies other referrer'
  obtain rfl : href = href' := by
    rw [hhref, hhref', Except.ok.injEq] at h
    exact h
  rw [haccepts.itemPath_eq hleft, Except.ok.injEq] at hpath
  rw [haccepts.itemPath_eq hright, Except.ok.injEq] at hpath'
  constructor
  · apply item_eq_of_path haccepts hleft hright
    rw [hpath, hpath', ← hfollow, ← hfollow']
  · rw [← hshown, ← hshown']

end Accepted

/-- **Which links identify their target.**  From the package document and from the navigation document,
every item of an accepted book can be linked to, and the link to the item leads to its path.  The links
to its fragments identify their targets exactly if the link to the item holds no `#`, so in any case if
its path holds none; and links that do are equal only if they lead to the same fragment of the same
item. -/
theorem links_identify_iff (hvalidate : Validation.validate (Layout.of book) book = .ok ())
    {document : String}
    (hdocument : document ∈ [(Layout.of book).packagePath, (Layout.of book).navigationPath]) :
    (∀ item ∈ book.manifest, ∃ path base, (Layout.of book).Linked document item.id path base) ∧
      ∀ left ∈ book.manifest, ∀ right ∈ book.manifest,
        (Layout.of book).Identifies document left.id →
        (Layout.of book).Identifies document right.id →
        ∀ (fragment other : Option String) (referrer referrer' : Referrer),
          (Layout.of book).itemLink document left.id fragment referrer =
            (Layout.of book).itemLink document right.id other referrer' →
          left = right ∧ shown fragment = shown other := by
  have haccepts := Validation.validate_eq_ok_iff.mp hvalidate
  have hvalid : EntryPath.IsValid document :=
    haccepts.generated_valid (List.mem_cons_of_mem _ (List.mem_cons_of_mem _ hdocument))
  constructor
  · intro item hitem
    exact exists_linked haccepts hvalid hitem
  · intro left hleft right hright hleftIdentifies hrightIdentifies fragment other referrer referrer' h
    exact eq_of_identifies haccepts hleft hright hleftIdentifies hrightIdentifies h

/-- A book with an item whose path looks like a fragment of another item. -/
def hashBook : Book where
  manifest := [
    { source := "whole.xhtml", path := "a", mediaType := "application/xhtml+xml", id := "whole" },
    { source := "part.xhtml", path := "a#b", mediaType := "application/xhtml+xml", id := "part" }]

theorem hashBook_accepted : Validation.Accepts (Layout.of hashBook) hashBook := by
  refine Validation.accepts_of_document rfl (by decide) rfl
    (Validation.checkPaths_eq_ok_iff.mpr (by decide +kernel))
    (Validation.checkIdentifiers_eq_ok_iff.mpr (by decide +kernel)) rfl rfl ?_
  intro item hitem
  rw [List.mem_singleton.mp hitem]
  exact ⟨true, Spine.eligible_of_document (by decide)⟩

theorem links_hashBook : Validation.validate (Layout.of hashBook) hashBook = .ok () ∧
    ∀ item ∈ hashBook.manifest, ∃ path base,
      (Layout.of hashBook).Linked (Layout.of hashBook).packagePath item.id path base := by
  have hvalidate := Validation.validate_eq_ok_iff.mpr hashBook_accepted
  exact ⟨hvalidate, (links_identify_iff hvalidate List.mem_cons_self).1⟩

/-- The navigation document of the book shows the same link for two places. -/
theorem itemLink_hashBook :
    (Layout.of hashBook).itemLink (Layout.of hashBook).navigationPath "whole" (some "b") .contents =
        .ok "a#b" ∧
      (Layout.of hashBook).itemLink (Layout.of hashBook).navigationPath "part" none .contents =
        .ok "a#b" := by
  have hsource : EntryPath.IsValid "OEBPS/toc.ncx" := by decide +kernel
  have hwhole : EntryPath.IsValid "OEBPS/a" := by decide +kernel
  have hpart : EntryPath.IsValid "OEBPS/a#b" := by decide +kernel
  have hpath : (Layout.of hashBook).navigationPath = "OEBPS/toc.ncx" := by decide +kernel
  rw [hpath]
  constructor
  · refine itemLink_eq_ok_iff.mpr ⟨"OEBPS/a", "a", rfl, ?_, rfl⟩
    rw [link, EntryPath.relative_eq_ok hwhole, hsource.components_eq]
    rfl
  · refine itemLink_eq_ok_iff.mpr ⟨"OEBPS/a#b", "a#b", rfl, ?_, rfl⟩
    rw [link, EntryPath.relative_eq_ok hpart, hsource.components_eq]
    rfl

/-- **A path with a `#` breaks its links**: an accepted book has an item whose links do not identify
their targets, and its link is that to a fragment of another item. -/
theorem not_links_identify : Book.ofValue hashBook.toValue = .ok hashBook ∧
    Validation.validate (Layout.of hashBook) hashBook = .ok () ∧
    (∃ item ∈ hashBook.manifest,
      ¬ (Layout.of hashBook).Identifies (Layout.of hashBook).navigationPath item.id) ∧
    ∃ left ∈ hashBook.manifest, ∃ right ∈ hashBook.manifest, left ≠ right ∧ ∃ href,
      (Layout.of hashBook).itemLink (Layout.of hashBook).navigationPath left.id (some "b")
        .contents = .ok href ∧
      (Layout.of hashBook).itemLink (Layout.of hashBook).navigationPath right.id none
        .contents = .ok href := by
  refine ⟨rfl, Validation.validate_eq_ok_iff.mpr hashBook_accepted, ?_, ?_⟩
  · refine ⟨_, List.mem_cons_of_mem _ List.mem_cons_self, fun h => ?_⟩
    obtain ⟨path, href, -, hhref, -, hshown⟩ := h none .contents
    obtain rfl : "a#b" = href := Except.ok.inj (itemLink_hashBook.2.symm.trans hhref)
    exact cut_of_mem (by decide) hshown
  · exact ⟨_, List.mem_cons_self, _, List.mem_cons_of_mem _ List.mem_cons_self, by decide, "a#b",
      itemLink_hashBook⟩

end Layout
end Bindery
