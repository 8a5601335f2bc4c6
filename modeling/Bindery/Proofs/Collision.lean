/-
# Names that clash are found

Sorting by folded form brings names that clash together, so it is enough to compare neighbours: no two
neighbours are alike exactly when no two names of the whole list are (`first?_eq_none_iff`), and the
pair that is found stands at two places of the list (`of_first?_eq_some`).  The order of the names is lost
in the sorting, so what is reported does not depend on it (`checks_findClashes`).
-/
import Mathlib.Data.List.NodupEquivFin
import Mathlib.Data.List.Perm.Subperm
import Mathlib.Data.List.Permutation
import Mathlib.Data.String.Basic
import Bindery.Collision

namespace Bindery.Collision

open Text

/-! ## 1. The order -/

theorem FoldedName.le_iff {left right : FoldedName} : left.le right = true ↔
    left.folded < right.folded ∨ left.folded = right.folded ∧ left.name ≤ right.name := by
  simp [FoldedName.le]

theorem FoldedName.trans {a b c : FoldedName} (hab : a.le b = true) (hbc : b.le c = true) :
    a.le c = true := by
  rw [FoldedName.le_iff] at *
  rcases hab with hab | ⟨hab, hab'⟩
  · rcases hbc with hbc | ⟨hbc, -⟩
    · exact .inl (lt_trans hab hbc)
    · exact .inl (hbc ▸ hab)
  · rcases hbc with hbc | ⟨hbc, hbc'⟩
    · exact .inl (hab ▸ hbc)
    · exact .inr ⟨hab.trans hbc, le_trans hab' hbc'⟩

theorem FoldedName.total (a b : FoldedName) : (a.le b || b.le a) = true := by
  rw [Bool.or_eq_true, FoldedName.le_iff, FoldedName.le_iff]
  rcases lt_trichotomy a.folded b.folded with h | h | h
  · exact .inl (.inl h)
  · rcases le_total a.name b.name with hn | hn
    · exact .inl (.inr ⟨h, hn⟩)
    · exact .inr (.inr ⟨h.symm, hn⟩)
  · exact .inr (.inl h)

theorem FoldedName.antisymm {a b : FoldedName} (hab : a.le b = true) (hba : b.le a = true) :
    a = b := by
  rw [FoldedName.le_iff] at hab hba
  rcases hab with hab | ⟨hfolded, hab⟩
  · rcases hba with hba | ⟨hfolded, -⟩
    · exact absurd hba (lt_asymm hab)
    · exact absurd hab (hfolded ▸ lt_irrefl _)
  · rcases hba with hba | ⟨-, hba⟩
    · exact absurd hba (hfolded ▸ lt_irrefl _)
    · obtain ⟨folded, name⟩ := a
      obtain ⟨folded', name'⟩ := b
      exact congrArg₂ FoldedName.mk hfolded (le_antisymm hab hba)

/-- The names as the search goes through them. -/
def sorted (names : List String) : List FoldedName :=
  (names.map FoldedName.of).mergeSort FoldedName.le

theorem sorted_perm (names : List String) : (sorted names).Perm (names.map FoldedName.of) :=
  List.mergeSort_perm _ _

theorem pairwise_le_sorted (names : List String) :
    (sorted names).Pairwise fun left right => left.le right = true := by
  apply List.pairwise_mergeSort
  · intro a b c hab hbc
    exact FoldedName.trans hab hbc
  · intro a b
    exact FoldedName.total a b

theorem pairwise_sorted (names : List String) :
    (sorted names).Pairwise fun left right => left.folded ≤ right.folded := by
  refine (pairwise_le_sorted names).imp fun {left right} h => ?_
  rcases FoldedName.le_iff.mp h with h | ⟨h, -⟩
  · exact le_of_lt h
  · exact le_of_eq h

/-- Names that are listed in another order are the same once they are sorted. -/
theorem sorted_eq_of_perm {names others : List String} (h : names.Perm others) :
    sorted names = sorted others := by
  have hperm : (sorted names).Perm (sorted others) :=
    (sorted_perm names).trans ((h.map _).trans (sorted_perm others).symm)
  exact hperm.eq_of_pairwise (fun _ _ _ _ => FoldedName.antisymm) (pairwise_le_sorted names)
    (pairwise_le_sorted others)

/-! ## 2. Neighbours -/

theorem firstAdjacent_eq_none_iff : ∀ {names : List FoldedName},
    names.Pairwise (fun left right => left.folded ≤ right.folded) →
      (firstAdjacent names = none ↔ (names.map (·.folded)).Nodup)
  | [], _ => by simp [firstAdjacent]
  | [_], _ => by simp [firstAdjacent]
  | left :: right :: rest, h => by
    obtain ⟨hleft, hrest⟩ := List.pairwise_cons.mp h
    have ih := firstAdjacent_eq_none_iff hrest
    by_cases heq : left.folded = right.folded
    · simp [firstAdjacent, heq]
    · rw [firstAdjacent, if_neg heq, ih]
      refine ⟨fun hnodup => List.nodup_cons.mpr ⟨fun hmem => ?_, hnodup⟩,
        fun hnodup => (List.nodup_cons.mp hnodup).2⟩
      -- What equals the first is not above its neighbour, and all that follows is.
      obtain ⟨other, hother, heq'⟩ := List.mem_map.mp hmem
      have hlt : left.folded < right.folded :=
        lt_of_le_of_ne (hleft right List.mem_cons_self) heq
      rcases List.mem_cons.mp hother with rfl | hother
      · exact heq heq'.symm
      · have hle := (List.pairwise_cons.mp hrest).1 other hother
        rw [heq'] at hle
        exact absurd hlt (not_lt.mpr hle)

theorem of_firstAdjacent_eq_some {left right : String} : ∀ {names : List FoldedName},
    firstAdjacent names = some (left, right) →
      ∃ l r, [l, r].Sublist names ∧ l.folded = r.folded ∧ l.name = left ∧ r.name = right
  | [], h => by simp [firstAdjacent] at h
  | [_], h => by simp [firstAdjacent] at h
  | l :: r :: rest, h => by
    rw [firstAdjacent] at h
    split at h
    · rename_i heq
      simp only [Option.some.injEq, Prod.mk.injEq] at h
      exact ⟨l, r, by simp, heq, h.1, h.2⟩
    · obtain ⟨l', r', hsub, hfold⟩ := of_firstAdjacent_eq_some h
      exact ⟨l', r', hsub.cons l, hfold⟩

/-! ## 3. Clashes -/

/-- Nothing is found exactly if no two names are alike after case folding. -/
theorem first?_eq_none_iff {names : List String} :
    first? names = none ↔ (names.map foldCase).Nodup := by
  rw [first?, ← sorted, firstAdjacent_eq_none_iff (pairwise_sorted names),
    ((sorted_perm names).map _).nodup_iff, List.map_map]
  rfl

/-- What is found are two names of the list, from two places, that are alike after case folding. -/
theorem of_first?_eq_some {names : List String} {left right : String}
    (h : first? names = some (left, right)) :
    foldCase left = foldCase right ∧ [left, right].Subperm names := by
  obtain ⟨l, r, hsub, hfold, rfl, rfl⟩ := of_firstAdjacent_eq_some h
  have hfolded : ∀ folded ∈ sorted names, folded.folded = foldCase folded.name := by
    intro folded hmem
    obtain ⟨name, -, rfl⟩ := List.mem_map.mp ((sorted_perm names).mem_iff.mp hmem)
    rfl
  have hl := hfolded l (hsub.subset (by simp))
  have hr := hfolded r (hsub.subset (by simp))
  refine ⟨by rw [← hl, ← hr, hfold], ?_⟩
  have hnames : ((sorted names).map (·.name)).Perm names := by
    have := (sorted_perm names).map (·.name)
    simpa [Function.comp_def, FoldedName.of] using this
  exact (hsub.map (·.name)).subperm.trans hnames.subperm

theorem checkPaths_eq_ok_iff {names : List String} :
    checkPaths names = .ok () ↔ (names.map foldCase).Nodup := by
  rw [← first?_eq_none_iff, checkPaths]
  split <;> simp_all

/-- A clash of paths that is reported is one of the list. -/
theorem of_checkPaths_eq_error {names : List String} {fault : Collision}
    (h : checkPaths names = .error fault) : ∃ left right, fault = .paths left right ∧
      foldCase left = foldCase right ∧ [left, right].Subperm names := by
  unfold checkPaths at h
  split at h
  · rename_i left right hfirst
    obtain ⟨hfold, hsubperm⟩ := of_first?_eq_some hfirst
    exact ⟨left, right, (Except.error.inj h).symm, hfold, hsubperm⟩
  · cases h

theorem checkIdentifiers_eq_ok_iff {owner : String} {names : List String} :
    checkIdentifiers owner names = .ok () ↔ (names.map foldCase).Nodup := by
  rw [← first?_eq_none_iff, checkIdentifiers]
  split <;> simp_all

/-! ## 4. Checks -/

/-- Two names stand at different places of a list and are alike after case folding. -/
def Clash (names : List String) (left right : String) : Prop :=
  ∃ i j : Nat, i ≠ j ∧ names[i]? = some left ∧ names[j]? = some right ∧
    foldCase left = foldCase right

/-- A check of names is one for clashes, which it reports in some form. -/
structure FindsClashes (check : List String → Except Collision Unit)
    (report : String → String → Collision) : Prop where
  /-- Names are refused exactly if two of them clash. -/
  refuses_iff : ∀ names, (∃ fault, check names = .error fault) ↔ ∃ left right, Clash names left right
  /-- What is reported are two names that clash. -/
  reports : ∀ names fault, check names = .error fault →
    ∃ left right, fault = report left right ∧ Clash names left right
  /-- In whatever order the names are listed, the outcome is the same, the names reported included. -/
  perm : ∀ names others, names.Perm others → check others = check names

theorem exists_clash_iff {names : List String} :
    (∃ left right, Clash names left right) ↔ ¬ (names.map foldCase).Nodup := by
  rw [List.nodup_iff_getElem?_ne_getElem?]
  constructor
  · rintro ⟨left, right, i, j, hne, hleft, hright, hfold⟩ hdistinct
    have hlookup : (names.map foldCase)[i]? = (names.map foldCase)[j]? := by
      rw [List.getElem?_map, List.getElem?_map, hleft, hright, Option.map_some, Option.map_some,
        hfold]
    have hi := (List.getElem?_eq_some_iff.mp hleft).1
    have hj := (List.getElem?_eq_some_iff.mp hright).1
    rcases Nat.lt_or_gt_of_ne hne with hlt | hlt
    · exact hdistinct i j hlt (by simpa using hj) hlookup
    · exact hdistinct j i hlt (by simpa using hi) hlookup.symm
  · intro hnot
    push Not at hnot
    obtain ⟨i, j, hlt, hj, hlookup⟩ := hnot
    rw [List.length_map] at hj
    have hi := Nat.lt_trans hlt hj
    refine ⟨names[i], names[j], i, j, Nat.ne_of_lt hlt, List.getElem?_eq_getElem hi,
      List.getElem?_eq_getElem hj, ?_⟩
    simpa [hi, hj] using hlookup

/-- Two names of a sublist stand at two places of the list. -/
theorem exists_places {left right : String} {names : List String}
    (h : [left, right].Subperm names) :
    ∃ i j : Nat, i ≠ j ∧ names[i]? = some left ∧ names[j]? = some right := by
  obtain ⟨pair, hpair, hsublist⟩ := h
  obtain ⟨place, hplace⟩ := List.sublist_iff_exists_orderEmbedding_getElem?_eq.mp hsublist
  have hne : place 0 ≠ place 1 := place.injective.ne Nat.zero_ne_one
  rcases List.perm_pair.mp hpair with rfl | rfl
  · exact ⟨place 0, place 1, hne, (hplace 0).symm, (hplace 1).symm⟩
  · exact ⟨place 1, place 0, hne.symm, (hplace 1).symm, (hplace 0).symm⟩

/-- A check that reports the first clash, should there be one, is a check for clashes. -/
theorem findsClashes_of_first? {check : List String → Except Collision Unit}
    {report : String → String → Collision}
    (hcheck : ∀ names, check names = match first? names with
      | some (left, right) => .error (report left right)
      | none => .ok ()) : FindsClashes check report := by
  constructor
  · intro names
    rw [exists_clash_iff, ← first?_eq_none_iff, hcheck]
    cases first? names <;> simp
  · intro names fault hfault
    rw [hcheck] at hfault
    cases hfirst : first? names with
    | none =>
      rw [hfirst] at hfault
      cases hfault
    | some pair =>
      obtain ⟨left, right⟩ := pair
      rw [hfirst] at hfault
      cases hfault
      obtain ⟨hfold, hsubperm⟩ := of_first?_eq_some hfirst
      obtain ⟨i, j, hne, hleft, hright⟩ := exists_places hsubperm
      exact ⟨left, right, rfl, i, j, hne, hleft, hright, hfold⟩
  · intro names others hperm
    rw [hcheck, hcheck, first?, first?, ← sorted, ← sorted, sorted_eq_of_perm hperm]

/-- **Clashes are found exactly**, those of paths and those of identifiers, whatever these identify. -/
theorem checks_findClashes : FindsClashes checkPaths .paths ∧
    ∀ owner, FindsClashes (checkIdentifiers owner) (.identifiers owner) :=
  ⟨findsClashes_of_first? fun _ => rfl, fun _ => findsClashes_of_first? fun _ => rfl⟩

end Bindery.Collision
