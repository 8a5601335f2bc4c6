/-
# The greatest page number

A value denotes a number if it is made of decimal digits only, of whatever scripts, and then it is read
to base ten (`Denotes`).  The greatest page number is the greatest of the numbers that the values of the
pages denote, and zero if they denote none (`isGreatestDenoted_maxPageNumber`); values that are no numerals
do not count, and neither do pages without a value.
-/
import Mathlib.Data.Nat.Digits.Defs
import Mathlib.Order.Bounds.Basic
import Bindery.Proofs.Document.Navigation

namespace Bindery.Document.Navigation

/-! ## 1. Numerals -/

/-- A text denotes a number: it has one character at least, all of them are digits, and these are the
digits of the number to base ten, the most significant digit first; zeros may stand in front. -/
def Denotes (text : String) (number : Nat) : Prop :=
  text ≠ "" ∧ ∃ digits,
    List.Forall₂ (fun c digit => Text.digitValue? c = some digit) text.toList digits ∧
    Nat.ofDigits 10 digits.reverse = number

theorem numberOfDigits_eq_ofDigits (digits : List Nat) :
    Text.numberOfDigits digits = Nat.ofDigits 10 digits.reverse := by
  rw [Nat.ofDigits_eq_foldr, List.foldr_reverse, Text.numberOfDigits]
  simp [Nat.add_comm]

/-- A text denotes the number of its digits, if it is a numeral. -/
theorem denotes_iff {text : String} {number : Nat} : Denotes text number ↔
    ∃ digits, Text.numeralDigits? text = some digits ∧ Text.numberOfDigits digits = number := by
  have hnumeral : ∀ digits, Text.numeralDigits? text = some digits ↔
      text ≠ "" ∧ text.toList.mapM Text.digitValue? = some digits := by
    intro digits
    rw [Text.numeralDigits?, ne_eq, ← String.toList_eq_nil_iff]
    cases text.toList <;> simp
  simp only [Denotes, hnumeral, numberOfDigits_eq_ofDigits, mapM_eq_some_iff]
  constructor
  · rintro ⟨hne, digits, hdigits, hnumber⟩
    exact ⟨digits, ⟨hne, hdigits⟩, hnumber⟩
  · rintro ⟨digits, ⟨hne, hdigits⟩, hnumber⟩
    exact ⟨hne, digits, hdigits, hnumber⟩

/-- Scripts may be mixed, and zeros may stand in front. -/
example : Denotes "٠4٢" 42 := denotes_iff.mpr ⟨[0, 4, 2], by decide, rfl⟩

/-! ## 2. The greatest of them -/

/-- The numbers that some values denote. -/
def denoted (values : List String) : Set Nat :=
  {number | ∃ value ∈ values, Denotes value number}

/-- A number is the greatest that some values denote, or zero if they denote none. -/
def IsGreatestDenoted (values : List String) (number : Nat) : Prop :=
  IsGreatest (denoted values) number ∨ denoted values = ∅ ∧ number = 0

theorem isGreatest_foldl_max {numbers : List Nat} (h : numbers ≠ []) :
    IsGreatest {number | number ∈ numbers} (numbers.foldl max 0) := by
  cases numbers with
  | nil => contradiction
  | cons first rest =>
    have hmax : (first :: rest).max? = some ((first :: rest).foldl max 0) := by
      rw [List.max?_cons', List.foldl_cons, Nat.zero_max]
    obtain ⟨hmem, hle⟩ := List.max?_eq_some_iff.mp hmax
    exact ⟨hmem, fun number hnumber => hle number hnumber⟩

/-- What is found for a page is what its value denotes. -/
theorem of_pageNumber?_eq_ok {page : PageTarget} {found : Option Nat}
    (h : pageNumber? page = .ok found) (number : Nat) :
    found = some number ↔ ∃ value, page.value = some value ∧ Denotes value number := by
  simp only [denotes_iff]
  unfold pageNumber? at h
  split at h
  · rename_i hnone
    cases h
    constructor
    · intro hfound
      cases hfound
    · rintro ⟨value, hvalue, digits, hdigits, -⟩
      rw [hvalue, Option.bind_some, hdigits] at hnone
      cases hnone
  · rename_i digits hsome
    obtain ⟨value, hvalue, hdigits⟩ := Option.bind_eq_some_iff.mp hsome
    split at h
    · cases h
    · cases h
      rw [Option.some.injEq]
      constructor
      · intro hnumber
        exact ⟨value, hvalue, digits, hdigits, hnumber⟩
      · rintro ⟨value', hvalue', digits', hdigits', hnumber⟩
        obtain rfl : value = value' := Option.some.inj (hvalue.symm.trans hvalue')
        obtain rfl : digits = digits' := Option.some.inj (hdigits.symm.trans hdigits')
        exact hnumber

/-- **The greatest page number** is the greatest number that the value of a page denotes, or zero if
there is none. -/
theorem isGreatestDenoted_maxPageNumber {pages : List PageTarget} {number : Nat}
    (h : maxPageNumber pages = .ok number) :
    IsGreatestDenoted (pages.filterMap (·.value)) number := by
  simp only [maxPageNumber, bind_eq_ok_iff, pure_eq_ok_iff] at h
  obtain ⟨found, hfound, rfl⟩ := h
  have hdenoted : denoted (pages.filterMap (·.value)) = {n | n ∈ found.filterMap id} := by
    ext n
    simp only [denoted, Set.mem_ofPred_eq, List.mem_filterMap, id_eq, exists_eq_right]
    constructor
    · rintro ⟨value, ⟨page, hpage, hvalue⟩, hdenotes⟩
      obtain ⟨result, hresult, hok⟩ := exists_of_mapM_mem hfound hpage
      rwa [← (of_pageNumber?_eq_ok hok n).mpr ⟨value, hvalue, hdenotes⟩]
    · intro hn
      obtain ⟨page, hpage, hok⟩ := exists_of_mem_mapM hfound hn
      obtain ⟨value, hvalue, hdenotes⟩ := (of_pageNumber?_eq_ok hok n).mp rfl
      exact ⟨value, ⟨page, hpage, hvalue⟩, hdenotes⟩
  rw [IsGreatestDenoted, hdenoted]
  by_cases hempty : found.filterMap id = []
  · right
    rw [hempty]
    simp
  · left
    exact isGreatest_foldl_max hempty

end Bindery.Document.Navigation
