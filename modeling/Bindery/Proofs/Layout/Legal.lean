/-
# The texts of a layout are legal

Paths are cut and put together again, and nothing but slashes is added.  So if XML allows the texts of
a book, it allows every path and identifier of its layout and every link between its entries.
-/
import Bindery.Proofs.Book.Legal
import Bindery.Proofs.EntryPath.Link
import Bindery.Proofs.Layout

namespace Bindery

open Xml

/-! ## 1. Paths -/

namespace EntryPath

variable {path directory source target link : String}

theorem legal_normalize (h : isLegalText path = true) : isLegalText (normalize path) = true := by
  rw [isLegalText_iff] at h ⊢
  intro c hc
  rcases mem_of_mem_normalize hc with rfl | hc
  · rfl
  · exact h c hc

theorem legal_join (hdirectory : isLegalText directory = true) (h : isLegalText path = true) :
    isLegalText (join directory path) = true := by
  rw [isLegalText_iff] at h hdirectory ⊢
  intro c hc
  rcases mem_of_mem_join hc with rfl | hc | hc
  · rfl
  · exact hdirectory c hc
  · exact h c hc

/-- The directory of a path is cut from its normal form. -/
theorem mem_of_mem_parent {c : Char} (hc : c ∈ (parent path).toList) :
    c ∈ (normalize path).toList := by
  have htrim : ∀ chars : List Char, c ∈ trimSlashes chars → c ∈ chars := by
    intro chars hmem
    unfold trimSlashes at hmem
    split at hmem
    · exact hmem
    · exact List.mem_reverse.mp ((List.dropWhile_sublist _).subset (List.mem_reverse.mp hmem))
  have hcut := htrim _ (by simpa [parent] using hc)
  exact List.mem_reverse.mp ((List.dropWhile_sublist _).subset (List.mem_reverse.mp hcut))

theorem legal_parent (h : isLegalText path = true) : isLegalText (parent path) = true := by
  have hnormalize := legal_normalize h
  rw [isLegalText_iff] at hnormalize ⊢
  exact fun c hc => hnormalize c (mem_of_mem_parent hc)

theorem legal_of_mem_segments (h : isLegalText path = true) :
    ∀ segment ∈ segments path, isLegalText segment = true := by
  intro segment hsegment
  rw [isLegalText_iff] at h ⊢
  exact fun c hc => h c (mem_of_mem_segments hsegment hc)

theorem legal_ofSegments {names : List String} (h : ∀ name ∈ names, isLegalText name = true) :
    isLegalText (ofSegments names) = true := by
  rw [isLegalText_iff]
  intro c hc
  rcases mem_ofSegments hc with rfl | ⟨name, hname, hc⟩
  · rfl
  · exact isLegalText_iff.mp (h name hname) c hc

theorem legal_climb : ∀ levels : Nat, isLegalText (climb levels) = true
  | 0 => rfl
  | levels + 1 => by
    have ih := legal_climb levels
    rw [climb, List.replicate_succ, String.join_cons, ← climb, isLegalText_append, ih]
    rfl

/-- The components of a path hold no character that the path does not hold, but slashes. -/
theorem legal_of_mem_components (h : isLegalText path = true) {name : String}
    (hname : name ∈ components path) : isLegalText name = true := by
  rw [components, List.mem_filter] at hname
  refine legal_of_mem_segments (legal_normalize ?_) name hname.1
  rw [isLegalText_iff] at h ⊢
  intro c hc
  rw [String.toList_map, List.mem_map] at hc
  obtain ⟨old, hold, rfl⟩ := hc
  split
  · decide
  · exact h old hold

/-- A link holds no character that its target does not hold, but dots and slashes. -/
theorem legal_of_relative (h : relative source target = .ok link)
    (hlegal : isLegalText target = true) : isLegalText link = true := by
  unfold relative at h
  split at h
  · cases h
  · rename_i name hname
    rw [Except.ok.injEq] at h
    rw [← h, relativeFrom_eq, isLegalText_append, legal_climb, Bool.true_and]
    refine legal_ofSegments fun other hother => legal_of_mem_components hlegal ?_
    rcases List.mem_append.mp (List.mem_of_mem_drop hother) with hmem | hmem
    · exact (List.dropLast_sublist _).subset hmem
    · rw [List.mem_singleton.mp hmem]
      exact List.mem_of_getLast? hname

end EntryPath

/-! ## 2. The layout -/

namespace Layout

variable {book : Book}

theorem legal_packagePath (h : book.LegalParts) :
    isLegalText (Layout.of book).packagePath = true := by
  show isLegalText (packagePathOf book) = true
  unfold packagePathOf
  split
  · rename_i rootfile hfound
    have hlegal := h.rootfiles rootfile (List.mem_of_find?_eq_some hfound)
    exact EntryPath.legal_normalize (allLegal_cons.mp hlegal).1
  · rfl

theorem legal_directory (h : book.LegalParts) : isLegalText (Layout.of book).directory = true :=
  EntryPath.legal_parent (legal_packagePath h)

theorem legal_orDefault {default : String} {text : Option String}
    (hdefault : isLegalText default = true) (h : AllLegal text.toList) :
    isLegalText (orDefault default text) = true := by
  unfold orDefault
  split
  · split
    · exact hdefault
    · simpa using h
  · exact hdefault

theorem legal_navigationFile (h : book.LegalParts) :
    AllLegal (book.navigationFile.getD {}).id.toList ∧
      AllLegal (book.navigationFile.getD {}).path.toList := by
  have hfile := h.navigationFile
  cases hpresent : book.navigationFile with
  | none => simp
  | some file =>
    rw [hpresent] at hfile
    simpa using hfile

theorem legal_navigationId (h : book.LegalParts) :
    isLegalText (Layout.of book).navigationId = true :=
  legal_orDefault (by decide) (legal_navigationFile h).1

theorem legal_navigationPath (h : book.LegalParts) :
    isLegalText (Layout.of book).navigationPath = true := by
  have hjoin : (Layout.of book).navigationPath = EntryPath.join (Layout.of book).directory
      (orDefault defaultNavigationPath (book.navigationFile.getD {}).path) := by
    simp only [Layout.of, directory]
  rw [hjoin]
  exact EntryPath.legal_join (legal_directory h)
    (legal_orDefault (by decide) (legal_navigationFile h).2)

theorem legal_copied (h : book.LegalParts) {source path : String}
    (hfile : (source, path) ∈ (Layout.of book).copied book) : isLegalText path = true := by
  rcases List.mem_append.mp hfile with hmem | hmem
  · obtain ⟨item, hitem, heq⟩ := List.mem_map.mp hmem
    have htexts := h.items item hitem
    rw [Prod.mk.injEq] at heq
    rw [← heq.2]
    exact EntryPath.legal_join (legal_directory h) (htexts _ (by simp [ManifestItem.texts]))
  · obtain ⟨file, hextra, heq⟩ := List.mem_map.mp hmem
    have htexts := h.extraFiles file hextra
    rw [Prod.mk.injEq] at heq
    rw [← heq.2]
    exact EntryPath.legal_normalize (htexts _ (by simp))

theorem legal_itemPath (h : book.LegalParts) {idref path : String} {referrer : Referrer}
    (hpath : (Layout.of book).itemPath idref referrer = .ok path) : isLegalText path = true := by
  obtain ⟨item, hitem, -, hjoin⟩ := of_itemPath_eq_ok hpath
  rw [hjoin]
  exact legal_copied h (copied_of_item hitem)

theorem legal_link {source target href : String} (hlegal : isLegalText target = true)
    (h : link source target = .ok href) : isLegalText href = true :=
  EntryPath.legal_of_relative (mapError_eq_ok_iff.mp h) hlegal

/-- A link to an item holds legal characters only, if its fragment does. -/
theorem legal_itemLink (hbook : book.LegalParts) {source idref href : String}
    {fragment : Option String} {referrer : Referrer}
    (h : (Layout.of book).itemLink source idref fragment referrer = .ok href)
    (hfragment : AllLegal fragment.toList) : isLegalText href = true := by
  simp only [itemLink, bind_eq_ok_iff] at h
  obtain ⟨path, hpath, base, hlink, h⟩ := h
  have hbase := legal_link (legal_itemPath hbook hpath) hlink
  split at h
  · cases h
    exact hbase
  · rename_i name
    have hname : isLegalText name = true := hfragment name (by simp)
    split at h
    · cases h
      exact hbase
    · cases h
      rw [isLegalText_append, isLegalText_append, hbase, hname]
      rfl

/-! ## 3. Links that can be written -/

/-- A link to a valid path can be written. -/
theorem exists_link (source : String) {target : String} (htarget : EntryPath.IsValid target) :
    ∃ href, link source target = .ok href :=
  ⟨_, mapError_eq_ok_iff.mpr (EntryPath.relative_eq_ok htarget)⟩

/-- **Every link that an accepted book asks for can be written.** -/
theorem exists_itemLink (haccepts : Validation.Accepts (Layout.of book) book) (source : String)
    {idref : String} (fragment : Option String) {referrer : Referrer}
    (hpath : ∃ path, (Layout.of book).itemPath idref referrer = .ok path) :
    ∃ href, (Layout.of book).itemLink source idref fragment referrer = .ok href := by
  obtain ⟨path, hpath⟩ := hpath
  obtain ⟨href, hlink⟩ := exists_link source (haccepts.itemPath_valid hpath)
  simp only [itemLink, bind_eq_ok_iff]
  cases fragment with
  | none => exact ⟨href, path, hpath, href, hlink, rfl⟩
  | some name =>
    by_cases hname : name = ""
    · exact ⟨href, path, hpath, href, hlink, by simp only [if_pos hname]; rfl⟩
    · exact ⟨href ++ "#" ++ name, path, hpath, href, hlink, by simp only [if_neg hname]; rfl⟩

end Layout
end Bindery
