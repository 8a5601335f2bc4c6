/-
# Texts that XML allows

A text is legal if its characters are, so a text that is put together from legal texts is legal, and
so is a numeral.  An element is legal if its own texts are and the elements in it are.
-/
import Bindery.Xml.Element

namespace Bindery.Xml

/-! ## 1. Texts -/

theorem isLegalText_iff {text : String} :
    isLegalText text = true ↔ ∀ c ∈ text.toList, isLegal c = true := by
  simp [isLegalText]

@[simp] theorem isLegalText_append {left right : String} :
    isLegalText (left ++ right) = (isLegalText left && isLegalText right) := by
  simp [isLegalText]

theorem isLegal_of_isDigit {c : Char} (h : c.isDigit = true) : isLegal c = true := by
  simp only [Char.isDigit, Bool.and_eq_true, decide_eq_true_eq, ge_iff_le,
    UInt32.le_iff_toNat_le] at h
  have hlow : 48 ≤ c.toNat := h.1
  have hhigh : c.toNat ≤ 57 := h.2
  simp only [isLegal, Bool.or_eq_true, Bool.and_eq_true, decide_eq_true_eq]
  omega

theorem isLegalText_toString_nat (n : Nat) : isLegalText (toString n) = true := by
  rw [isLegalText_iff, Nat.toString_eq_ofList_toDigits, String.toList_ofList]
  exact fun c hc => isLegal_of_isDigit (Nat.isDigit_of_mem_toDigits (by decide) (by decide) hc)

/-- A whole number is written with digits and at most a minus sign. -/
theorem isLegalText_toString_int : ∀ n : Int, isLegalText (toString n) = true
  | .ofNat n => isLegalText_toString_nat n
  | .negSucc n => by
    have h : toString (Int.negSucc n) = "-" ++ toString (n + 1) := rfl
    rw [h, isLegalText_append, isLegalText_toString_nat]
    rfl

/-! ## 2. Elements -/

namespace Element

theorem allLegal_iff : ∀ {elements : List Element},
    allLegal elements = true ↔ ∀ element ∈ elements, element.isLegal = true
  | [] => by simp [allLegal]
  | element :: rest => by
    rw [allLegal, Bool.and_eq_true, allLegal_iff, List.forall_mem_cons]

theorem isLegal_leaf {name text : String} {attributes : List Attribute} :
    (leaf name attributes text).isLegal = true ↔
      (∀ item ∈ attributes, isLegalText item.value = true) ∧
        isLegalText text = true := by
  rw [isLegal, Bool.and_eq_true, List.all_eq_true]

theorem isLegal_branch {name : String} {attributes : List Attribute} {children : List Element} :
    (branch name attributes children).isLegal = true ↔
      (∀ item ∈ attributes, isLegalText item.value = true) ∧
        ∀ child ∈ children, child.isLegal = true := by
  rw [isLegal, Bool.and_eq_true, List.all_eq_true, allLegal_iff]

end Element
end Bindery.Xml
