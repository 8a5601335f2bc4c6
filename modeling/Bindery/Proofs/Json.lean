/-
# What keeps JSON from being read

A JSON text that is not malformed is read unless it has a numeral that is too long
(`Json.not_shortNumerals_of_read`) or opens more brackets than values may be nested
(`Json.maxDepth_lt_of_read`).
-/
import Bindery.Json
import Bindery.Proofs.Text.Scan

namespace Bindery.Json

open Scan Text

variable {weight depth : Nat} {fault : ReadFault} {text rest : List Char}

/-! ## 1. Strings -/

theorem lowSurrogate?_cases (text : List Char) :
    (∃ low, lowSurrogate? text = .ok low) ∨ lowSurrogate? text = .error .malformed := by
  unfold lowSurrogate?
  split
  · split
    · exact .inr rfl
    · exact .inl ⟨_, rfl⟩
  · exact .inl ⟨_, rfl⟩

theorem leavesEnd_stringBody (before : List CodePoint) (text : List Char) (skipped : Nat) :
    LeavesEnd (stringBody before text skipped) text := by
  fun_induction stringBody before text skipped with
  | case1 => exact .inr rfl
  | case2 before c rest skipped ih => exact ih.of_suffix (List.suffix_cons c rest)
  | case3 before rest => exact .inl ⟨_, _, rfl, List.suffix_cons _ rest⟩
  | case4 => exact .inr rfl
  | case5 before a b c d after code hcode hhigh ihPair ihAlone =>
    dsimp only
    rw [if_pos hhigh]
    rcases lowSurrogate?_cases after with ⟨low, hlow⟩ | hlow
    · rw [hlow]
      cases low with
      | some low => exact (ihPair low).of_suffix (List.suffix_cons _ _)
      | none => exact ihAlone.of_suffix (List.suffix_cons _ _)
    · rw [hlow]
      exact .inr rfl
  | case6 before a b c d after code hcode hhigh ihPair ihAlone =>
    dsimp only
    rw [if_neg hhigh]
    exact ihAlone.of_suffix (List.suffix_cons _ _)
  | case7 before c rest _ character hescaped ih => exact ih.of_suffix (List.suffix_cons _ _)
  | case8 => exact .inr rfl
  | case9 => exact .inr rfl
  | case10 => exact .inr rfl
  | case11 before c rest _ _ _ ih => exact ih.of_suffix (List.suffix_cons c rest)

theorem avoids_string : Avoids weight fault depth string :=
  (avoids_expect "\"").bind fun _ =>
    (avoids_of_leavesEnd fun text => leavesEnd_stringBody [] text 0).bind fun _ => avoids_pure _

/-! ## 2. Numbers -/

theorem startsWith_digits (text : List Char) : StartsWith (digits text).1 (digits text).2 text := by
  have hall : ∀ c ∈ text.takeWhile isDigit, isDigit c = true := List.all_eq_true.mp List.all_takeWhile
  exact ⟨text.takeWhile isDigit, List.takeWhile_append_dropWhile.symm, fun c hc => .inl (hall c hc),
    List.countP_eq_length.mpr hall⟩

theorem startsWith_wholeDigits? {whole : List Char} (h : wholeDigits? text = some (whole, rest)) :
    StartsWith whole rest text := by
  unfold wholeDigits? at h
  split at h
  · cases h
    exact startsWith_zero rest
  · split at h
    · cases h
      exact startsWith_digits _
    · cases h
  · cases h

theorem avoids_number : Avoids weight fault depth number := by
  refine (avoids_word "-").bind fun negative => avoids_found_bind (fun {text whole rest} hfits hfound => ?_)
    avoids_fail
  have hwhole := startsWith_wholeDigits? hfound
  have hdigits : ∀ text, (digits text).2 <:+ text := fun text => (startsWith_digits text).suffix
  refine ⟨hwhole.suffix, ?_⟩
  refine (avoids_found (fraction?_suffix hdigits)).bind fun fraction => ?_
  refine (avoids_found (exponent?_suffix hdigits)).bind fun exponent => ?_
  split
  · refine avoids_wholeNumber negative ?_
    rintro rfl
    exact hwhole.length_le hfits
  · exact avoids_pure _

/-! ## 3. Values -/

theorem avoids_blanks : Avoids weight fault depth blanks := avoids_skipWhile isBlank

theorem avoids_scalar : Avoids weight fault depth scalar :=
  avoids_word_or "null" _ <| avoids_word_or "true" _ <| avoids_word_or "false" _ <|
    avoids_word_or "NaN" _ <| avoids_word_or "Infinity" _ <| avoids_word_or "-Infinity" _ avoids_number

theorem avoids_values (fuel : Nat) :
    (∀ depth, Avoids 1 fault depth (value fuel depth)) ∧
      (∀ depth, Avoids 1 fault depth (items fuel depth)) ∧
      ∀ depth before, Avoids 1 fault depth (fields fuel depth before) := by
  induction fuel with
  | zero => exact ⟨fun _ => avoids_fail, fun _ => avoids_fail, fun _ _ => avoids_fail⟩
  | succ fuel ih =>
    obtain ⟨ihValue, ihItems, ihFields⟩ := ih
    refine ⟨fun depth => ?_, fun depth => ?_, fun depth before => ?_⟩
    · refine avoids_peek_bind avoids_scalar fun c rest hfits => ?_
      split
      · exact (avoids_string.bind fun _ => avoids_pure _) _ hfits
      · rename_i hopens
        cases hopens
        refine avoids_nested rfl (Nat.le_refl 1) ?_ hfits
        exact avoids_blanks.bind fun _ =>
          avoids_word_or "]" _ ((ihItems _).bind fun _ => avoids_pure _)
      · rename_i hopens
        cases hopens
        refine avoids_nested rfl (Nat.le_refl 1) ?_ hfits
        exact avoids_blanks.bind fun _ =>
          avoids_word_or "\x7d" _ ((ihFields _ _).bind fun _ => avoids_pure _)
      · exact avoids_scalar _ hfits
    · refine (ihValue depth).bind fun item => avoids_blanks.bind fun _ => ?_
      refine avoids_word_or "]" _ ?_
      exact (avoids_expect ",").bind fun _ => avoids_blanks.bind fun _ =>
        (ihItems depth).bind fun _ => avoids_pure _
    · refine avoids_string.bind fun key => avoids_blanks.bind fun _ => ?_
      refine (avoids_expect ":").bind fun _ => avoids_blanks.bind fun _ => ?_
      refine (ihValue depth).bind fun item => avoids_blanks.bind fun _ => ?_
      refine avoids_word_or "\x7d" _ ?_
      exact (avoids_expect ",").bind fun _ => avoids_blanks.bind fun _ => ihFields depth _

/-! ## 4. Documents -/

theorem read_ne_error {text : String} (hfits : Fits 1 fault maxDepth text.toList) :
    read text ≠ .error fault := by
  refine all_ne_error ?_ hfits
  exact avoids_blanks.bind fun _ =>
    ((avoids_values _).1 maxDepth).bind fun _ => avoids_blanks.bind fun _ => avoids_pure _

/-- **A JSON text with short numerals has none that is too long.** -/
theorem not_shortNumerals_of_read {text : String} (h : read text = .error .numeralTooLong) :
    ¬ ShortNumerals text.toList := by
  intro hshort
  have hfits : Fits 1 .numeralTooLong maxDepth text.toList := hshort
  exact read_ne_error hfits h

/-- **A JSON text in which values are nested too deeply opens many brackets.** -/
theorem maxDepth_lt_of_read {text : String} (h : read text = .error .nestedTooDeeply) :
    maxDepth < openings text.toList := by
  refine Nat.lt_of_not_le fun hfew => ?_
  have hfits : Fits 1 .nestedTooDeeply maxDepth text.toList := by
    show 1 * openings text.toList ≤ maxDepth
    rwa [Nat.one_mul]
  exact read_ne_error hfits h

end Bindery.Json
