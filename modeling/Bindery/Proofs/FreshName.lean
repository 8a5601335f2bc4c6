/-
# Fresh names are new

The candidates for a name stay pairwise different when they are folded, since their numbers are
(`foldCase_candidate_injective`).  There is one candidate more than there are names taken, so one of them
clashes with none, and the name that is found is new (`fresh_not_taken`).  So a search that tries one
candidate after the other needs no bound: it ends at that name, whatever names are taken
(`search_ends_at_fresh`).
-/
import Mathlib.Data.List.Nodup
import Bindery.FreshName
import Bindery.Proofs.Xml.Legal

namespace Bindery

/-! ## 1. Folded texts -/

namespace Text

/-- Texts are folded character by character. -/
theorem foldCase_append (left right : String) :
    foldCase (left ++ right) = foldCase left ++ foldCase right := by
  rw [← String.toList_inj]
  simp [foldCase]

/-- Digits have no other case. -/
theorem toLower_of_isDigit {c : Char} (h : c.isDigit = true) : c.toLower = c := by
  have hnine : '9'.val.toNat = 57 := rfl
  have hcapital : 'A'.val.toNat = 65 := rfl
  simp only [Char.isDigit, Bool.and_eq_true, decide_eq_true_eq, ge_iff_le,
    UInt32.le_iff_toNat_le] at h
  refine dif_neg ?_
  simp only [ge_iff_le, UInt32.le_iff_toNat_le]
  omega

/-- Folding leaves numerals alone. -/
theorem foldCase_toString_nat (n : Nat) : foldCase (toString n) = toString n := by
  have hdigits : (Nat.toDigits 10 n).map Char.toLower = (Nat.toDigits 10 n).map id :=
    List.map_congr_left fun c hc =>
      toLower_of_isDigit (Nat.isDigit_of_mem_toDigits (by decide) (by decide) hc)
  rw [← String.toList_inj, foldCase, String.toList_map, Nat.toString_eq_ofList_toDigits,
    String.toList_ofList, hdigits, List.map_id]

end Text

/-! ## 2. Candidates -/

namespace FreshName

open Text Xml

/-- Different numbers have different numerals, since a numeral can be read back. -/
theorem toString_nat_injective {m n : Nat} (h : toString m = toString n) : m = n := by
  rw [Nat.toString_eq_ofList_toDigits, Nat.toString_eq_ofList_toDigits, String.ofList_inj] at h
  calc
    m = Nat.ofDigitChars 10 (Nat.toDigits 10 m) 0 := Nat.ofDigitChars_ten_toDigits.symm
    _ = Nat.ofDigitChars 10 (Nat.toDigits 10 n) 0 := by rw [h]
    _ = n := Nat.ofDigitChars_ten_toDigits

theorem candidate_succ (base : String) (number : Nat) :
    candidate base (number + 1) = base ++ "_" ++ toString (number + 1) := rfl

theorem foldCase_candidate_succ (base : String) (number : Nat) :
    foldCase (candidate base (number + 1)) = foldCase base ++ "_" ++ toString (number + 1) := by
  have hunderscore : foldCase "_" = "_" := by decide +kernel
  rw [candidate_succ, foldCase_append, foldCase_append, hunderscore, foldCase_toString_nat]

/-- A numbered candidate is longer than the name itself. -/
theorem foldCase_candidate_succ_ne (base : String) (number : Nat) :
    foldCase (candidate base (number + 1)) ≠ foldCase base := by
  intro h
  have hlength := congrArg String.length h
  rw [foldCase_candidate_succ, String.length_append, String.length_append] at hlength
  have hunderscore : "_".length = 1 := by decide
  omega

/-- **The candidates for a name do not clash with one another.** -/
theorem foldCase_candidate_injective {base : String} : ∀ {left right : Nat},
    foldCase (candidate base left) = foldCase (candidate base right) → left = right
  | 0, 0, _ => rfl
  | 0, right + 1, h => absurd h.symm (foldCase_candidate_succ_ne base right)
  | left + 1, 0, h => absurd h (foldCase_candidate_succ_ne base left)
  | left + 1, right + 1, h => by
    rw [foldCase_candidate_succ, foldCase_candidate_succ, String.append_right_inj] at h
    exact toString_nat_injective h

/-- One candidate more than there are names taken is enough. -/
theorem exists_firstFree? (base : String) (taken : List String) :
    ∃ number, firstFree? base taken = some number := by
  rw [← Option.isSome_iff_exists, firstFree?, List.find?_isSome]
  by_contra hnone
  -- If none were free, the candidates would all be among the names taken, which are one fewer.
  have hall : (List.range (taken.length + 1)).map (fun number => foldCase (candidate base number)) ⊆
      taken.map foldCase := by
    intro folded hfolded
    obtain ⟨number, hnumber, rfl⟩ := List.mem_map.mp hfolded
    by_contra hnew
    exact hnone ⟨number, hnumber, by simpa using hnew⟩
  have hnodup : ((List.range (taken.length + 1)).map
      fun number => foldCase (candidate base number)).Nodup :=
    List.nodup_range.map_on fun _ _ _ _ h => foldCase_candidate_injective h
  have hlength := hnodup.length_le_of_subset hall
  rw [List.length_map, List.length_map, List.length_range] at hlength
  omega

/-- **A fresh name clashes with no name that is taken.** -/
theorem fresh_not_taken (base : String) (taken : List String) :
    foldCase (fresh base taken) ∉ taken.map foldCase := by
  obtain ⟨number, hnumber⟩ := exists_firstFree? base taken
  have hnew := List.find?_some hnumber
  rw [fresh, hnumber, Option.getD_some]
  simpa using hnew

/-! ## 3. The characters of fresh names -/

theorem candidate_ne_empty {base : String} (h : base ≠ "") : ∀ number : Nat,
    candidate base number ≠ ""
  | 0 => h
  | number + 1 => by simp [candidate, h]

theorem legal_candidate {base : String} (h : isLegalText base = true) : ∀ number : Nat,
    isLegalText (candidate base number) = true
  | 0 => h
  | number + 1 => by
    rw [candidate_succ, isLegalText_append, isLegalText_append, h, isLegalText_toString_nat]
    rfl

/-- A fresh name for a name that is not empty is not empty either. -/
theorem fresh_ne_empty {base : String} (h : base ≠ "") (taken : List String) :
    fresh base taken ≠ "" :=
  candidate_ne_empty h _

theorem legal_fresh {base : String} (h : isLegalText base = true) (taken : List String) :
    isLegalText (fresh base taken) = true :=
  legal_candidate h _

/-! ## 4. The search -/

/-- A name is alike, after case folding, to one of those taken. -/
def IsTaken (taken : List String) (name : String) : Prop :=
  foldCase name ∈ taken.map foldCase

/-- The number of the first candidate that is not taken. -/
structure IsFirstFree (base : String) (taken : List String) (number : Nat) : Prop where
  free : ¬ IsTaken taken (candidate base number)
  before : ∀ earlier < number, IsTaken taken (candidate base earlier)

/-- A search without a bound.  From some number on it tries one candidate after the other until one is
not taken; `tried` are all that it tries, and `found` is the one that it ends with. -/
inductive Searches (base : String) (taken : List String) :
    (number : Nat) → (tried : List String) → (found : String) → Prop where
  | found {number : Nat} : ¬ IsTaken taken (candidate base number) →
      Searches base taken number [candidate base number] (candidate base number)
  | next {number : Nat} {tried : List String} {found : String} :
      IsTaken taken (candidate base number) → Searches base taken (number + 1) tried found →
      Searches base taken number (candidate base number :: tried) found

variable {base found other : String} {taken tried others : List String} {number : Nat}

/-- A search has one course. -/
theorem Searches.unique (h : Searches base taken number tried found)
    (h' : Searches base taken number others other) : others = tried ∧ other = found := by
  induction h generalizing others other with
  | found hfree =>
    cases h' with
    | found => exact ⟨rfl, rfl⟩
    | next htaken => exact absurd htaken hfree
  | next htaken _ ih =>
    cases h' with
    | found hfree => exact absurd htaken hfree
    | next _ hrest =>
      obtain ⟨rfl, rfl⟩ := ih hrest
      exact ⟨rfl, rfl⟩

/-- From wherever it starts, a search passes the candidates that are taken and stops at the first that
is not. -/
theorem IsFirstFree.searches (h : IsFirstFree base taken number) : ∀ {gap start : Nat},
    start + gap = number →
      Searches base taken start ((List.range' start (gap + 1)).map (candidate base))
        (candidate base number)
  | 0, start, heq => by
    obtain rfl := heq
    exact .found h.free
  | gap + 1, start, heq => by
    rw [List.range'_succ, List.map_cons]
    exact .next (h.before start (by omega)) (h.searches (by omega))

/-- The number that is found is that of the first candidate that is free, and not beyond the number of
names taken. -/
theorem of_firstFree?_eq_some (h : firstFree? base taken = some number) :
    IsFirstFree base taken number ∧ number ≤ taken.length := by
  obtain ⟨hfree, hmem, hbefore⟩ := List.find?_range_eq_some.mp h
  refine ⟨⟨by simpa [IsTaken] using hfree, fun earlier hearlier => ?_⟩, ?_⟩
  · simpa [IsTaken] using hbefore earlier hearlier
  · exact Nat.lt_succ_iff.mp (List.mem_range.mp hmem)

/-- **A search for a fresh name ends**, after at most one candidate more than there are names taken.  It
ends at the fresh name, which is the first candidate that clashes with no name taken, and there is no
other way for it to go. -/
theorem search_ends_at_fresh (base : String) (taken : List String) : ∃ number tried,
    IsFirstFree base taken number ∧ fresh base taken = candidate base number ∧
      Searches base taken 0 tried (fresh base taken) ∧
      tried.length = number + 1 ∧ tried.length ≤ taken.length + 1 ∧
      ∀ others found, Searches base taken 0 others found →
        others = tried ∧ found = fresh base taken := by
  obtain ⟨number, hnumber⟩ := exists_firstFree? base taken
  obtain ⟨h, hle⟩ := of_firstFree?_eq_some hnumber
  have hfresh : fresh base taken = candidate base number := by
    rw [fresh, hnumber, Option.getD_some]
  have hsearches := h.searches (Nat.zero_add number)
  rw [← hfresh] at hsearches
  have hlength : ((List.range' 0 (number + 1)).map (candidate base)).length = number + 1 := by
    rw [List.length_map, List.length_range']
  refine ⟨number, _, h, hfresh, hsearches, hlength, ?_, fun others found h' => hsearches.unique h'⟩
  rw [hlength]
  exact Nat.succ_le_succ hle

end FreshName
end Bindery
