/-
# What keeps TOML from being read

A TOML text that is not malformed is read unless it has a numeral that is too long
(`Toml.not_shortNumerals_of_read`) or opens so many brackets that, each with what a table on one line
costs, they exceed how deep values may be nested (`Toml.maxDepth_lt_of_read`).
-/
import Bindery.Proofs.Success
import Bindery.Proofs.Text.Scan
import Bindery.Toml

namespace Bindery.Toml

open Scan

variable {weight depth : Nat} {fault : ReadFault} {text rest : List Char}

/-! ## 1. Blanks and comments -/

theorem avoids_blanks : Avoids weight fault depth blanks := avoids_skipWhile isBlank

theorem avoids_comment : Avoids weight fault depth comment := by
  refine (avoids_word "#").bind fun isThere => ?_
  split
  · refine (avoids_takeWhile _).bind fun content => ?_
    split
    · exact avoids_fail
    · exact avoids_pure ()
  · exact avoids_pure ()

theorem avoids_lines (fuel : Nat) : Avoids weight fault depth (lines fuel) := by
  induction fuel with
  | zero => exact avoids_pure ()
  | succ fuel ih =>
    refine (avoids_skipWhile _).bind fun _ => avoids_peek.bind fun next => ?_
    split
    · exact avoids_comment.bind fun _ => ih
    · exact avoids_pure ()

/-! ## 2. Strings -/

theorem leavesEnd_basicBody (severalLines : Bool) (before text : List Char) (skipped : Nat) :
    LeavesEnd (basicBody severalLines before text skipped) text := by
  fun_induction basicBody severalLines before text skipped with
  | case1 | case7 | case8 => exact .inr rfl
  | case2 _ c rest _ ih => exact ih.of_suffix (List.suffix_cons c rest)
  | case3 before rest => exact .inl ⟨_, rest, rfl, List.suffix_cons _ rest⟩
  | case4 before _ after => exact .inl ⟨_, after, rfl, List.suffix_append ['"', '"', '"'] after⟩
  | case5 _ rest _ _ ih => exact ih.of_suffix (List.suffix_cons _ rest)
  | case6 _ rest _ _ _ ih => exact ih.of_suffix (List.suffix_cons _ rest)
  | case9 _ c rest _ _ _ ih => exact ih.of_suffix (List.suffix_cons c rest)

theorem leavesEnd_literalBody (severalLines : Bool) (before text : List Char) :
    LeavesEnd (literalBody severalLines before text) text := by
  fun_induction literalBody severalLines before text with
  | case1 | case5 => exact .inr rfl
  | case2 before rest => exact .inl ⟨_, rest, rfl, List.suffix_cons _ rest⟩
  | case3 before _ after => exact .inl ⟨_, after, rfl, List.suffix_append ['\'', '\'', '\''] after⟩
  | case4 _ rest _ _ ih => exact ih.of_suffix (List.suffix_cons _ rest)
  | case6 _ c rest _ _ ih => exact ih.of_suffix (List.suffix_cons c rest)

theorem trailingQuotes_suffix (quote : Char) (text : List Char) :
    (trailingQuotes quote text).2 <:+ text := by
  unfold trailingQuotes
  split
  · split
    · exact List.suffix_rfl
    · split
      · exact List.suffix_cons _ _
      · exact List.suffix_append [_, _] _
  · split
    · exact List.nil_suffix
    · exact List.suffix_rfl
  · exact List.suffix_rfl

theorem avoids_stringOnLine {body : List Char → Except ReadFault (List Char × List Char)}
    (hbody : ∀ text, LeavesEnd (body text) text) : Avoids weight fault depth (stringOnLine body) := by
  refine avoids_of_leavesEnd fun text => ?_
  rcases hbody text with ⟨characters, rest, hok, hrest⟩ | herror
  · exact .inl ⟨_, rest, by rw [stringOnLine, hok]; rfl, hrest⟩
  · exact .inr (by rw [stringOnLine, herror]; rfl)

theorem avoids_stringOnLines (quote : Char) {body : List Char → Except ReadFault (List Char × List Char)}
    (hbody : ∀ text, LeavesEnd (body text) text) :
    Avoids weight fault depth (stringOnLines quote body) := by
  refine avoids_of_leavesEnd fun text => ?_
  have htaken {start : List Char} (hstart : start <:+ text) : LeavesEnd (do
      let found ← body start
      let quotes := trailingQuotes quote found.2
      return (String.ofList (found.1 ++ quotes.1), quotes.2)) text := by
    rcases hbody start with ⟨characters, rest, hok, hrest⟩ | herror
    · rw [hok]
      refine .inl ⟨_, _, rfl, ?_⟩
      exact ((trailingQuotes_suffix quote rest).trans hrest).trans hstart
    · rw [herror]
      exact .inr rfl
  unfold stringOnLines
  split
  · exact htaken (List.suffix_cons _ _)
  · exact htaken List.suffix_rfl

theorem avoids_basicString : Avoids weight fault depth basicString :=
  (avoids_expect "\"").bind fun _ => avoids_stringOnLine fun text => leavesEnd_basicBody false [] text 0

theorem avoids_literalString : Avoids weight fault depth literalString :=
  (avoids_expect "'").bind fun _ => avoids_stringOnLine fun text => leavesEnd_literalBody false [] text

theorem avoids_string : Avoids weight fault depth string := by
  refine (avoids_word "\"\"\"").bind fun isBasic => ?_
  split
  · exact avoids_stringOnLines '"' fun text => leavesEnd_basicBody true [] text 0
  refine (avoids_word "'''").bind fun isLiteral => ?_
  split
  · exact avoids_stringOnLines '\'' fun text => leavesEnd_literalBody true [] text
  refine avoids_peek.bind fun next => ?_
  split
  · exact avoids_basicString
  · exact avoids_literalString

/-! ## 3. Keys -/

theorem avoids_keyPart : Avoids weight fault depth keyPart := by
  refine avoids_peek.bind fun next => ?_
  split
  · exact avoids_basicString
  · exact avoids_literalString
  · refine (avoids_takeWhile _).bind fun name => ?_
    split
    · exact avoids_fail
    · exact avoids_pure _

theorem avoids_moreKeyParts (fuel : Nat) : Avoids weight fault depth (moreKeyParts fuel) := by
  induction fuel with
  | zero => exact avoids_pure _
  | succ fuel ih =>
    refine avoids_blanks.bind fun _ => (avoids_word ".").bind fun isThere => ?_
    split
    · exact avoids_blanks.bind fun _ => avoids_keyPart.bind fun part => ih.bind fun _ => avoids_pure _
    · exact avoids_pure _

theorem avoids_key (fuel : Nat) : Avoids weight fault depth (key fuel) :=
  avoids_keyPart.bind fun _ => (avoids_moreKeyParts fuel).bind fun _ => avoids_pure _

/-! ## 4. Dates and times -/

theorem fixedNumber?_suffix {width least greatest number : Nat}
    (h : fixedNumber? width least greatest text = some (number, rest)) : rest <:+ text := by
  unfold fixedNumber? at h
  dsimp only at h
  split at h
  · cases h
    exact List.drop_suffix width text
  · cases h

theorem after?_suffix {c : Char} (h : after? c text = some rest) : rest <:+ text := by
  unfold after? at h
  split at h
  · cases h
  · split at h
    · cases h
      exact List.suffix_cons _ _
    · cases h

theorem date?_suffix {date : Date} (h : date? text = some (date, rest)) : rest <:+ text := by
  obtain ⟨⟨year, afterYear⟩, hyear, h⟩ := Option.bind_eq_some_iff.mp h
  obtain ⟨afterDash, hdash, h⟩ := Option.bind_eq_some_iff.mp h
  obtain ⟨⟨month, afterMonth⟩, hmonth, h⟩ := Option.bind_eq_some_iff.mp h
  obtain ⟨afterDash', hdash', h⟩ := Option.bind_eq_some_iff.mp h
  obtain ⟨⟨day, afterDay⟩, hday, h⟩ := Option.bind_eq_some_iff.mp h
  cases h
  calc rest
    _ <:+ afterDash' := fixedNumber?_suffix hday
    _ <:+ afterMonth := after?_suffix hdash'
    _ <:+ afterDash := fixedNumber?_suffix hmonth
    _ <:+ afterYear := after?_suffix hdash
    _ <:+ text := fixedNumber?_suffix hyear

theorem plainDigits_suffix (text : List Char) : (plainDigits text).2 <:+ text :=
  List.dropWhile_suffix _

theorem time?_suffix {time : Time} (h : time? text = some (time, rest)) : rest <:+ text := by
  obtain ⟨⟨hour, afterHour⟩, hhour, h⟩ := Option.bind_eq_some_iff.mp h
  obtain ⟨afterColon, hcolon, h⟩ := Option.bind_eq_some_iff.mp h
  obtain ⟨⟨minute, afterMinute⟩, hminute, h⟩ := Option.bind_eq_some_iff.mp h
  obtain ⟨afterColon', hcolon', h⟩ := Option.bind_eq_some_iff.mp h
  obtain ⟨⟨second, afterSecond⟩, hsecond, h⟩ := Option.bind_eq_some_iff.mp h
  have hrest : rest <:+ afterSecond := by
    dsimp only at h
    split at h
    · rename_i hfraction
      cases h
      exact fraction?_suffix plainDigits_suffix hfraction
    · cases h
      exact List.suffix_rfl
  calc rest
    _ <:+ afterSecond := hrest
    _ <:+ afterColon' := fixedNumber?_suffix hsecond
    _ <:+ afterMinute := after?_suffix hcolon'
    _ <:+ afterColon := fixedNumber?_suffix hminute
    _ <:+ afterHour := after?_suffix hcolon
    _ <:+ text := fixedNumber?_suffix hhour

theorem offset?_suffix {distance : Int} (h : offset? text = some (distance, rest)) : rest <:+ text := by
  unfold offset? at h
  split at h
  · cases h
  · rename_i c after
    split at h
    · cases h
      exact List.suffix_cons _ _
    · split at h
      · obtain ⟨⟨hour, afterHour⟩, hhour, h⟩ := Option.bind_eq_some_iff.mp h
        obtain ⟨afterColon, hcolon, h⟩ := Option.bind_eq_some_iff.mp h
        obtain ⟨⟨minute, afterMinute⟩, hminute, h⟩ := Option.bind_eq_some_iff.mp h
        cases h
        calc rest
          _ <:+ afterColon := fixedNumber?_suffix hminute
          _ <:+ afterHour := after?_suffix hcolon
          _ <:+ after := fixedNumber?_suffix hhour
          _ <:+ c :: after := List.suffix_cons c after
      · cases h

theorem timeOfDay?_suffix {time : Time} (h : timeOfDay? text = some (time, rest)) : rest <:+ text := by
  unfold timeOfDay? at h
  split at h
  · split at h
    · exact (time?_suffix h).trans (List.suffix_cons _ _)
    · cases h
  · cases h

theorem dateOrDateTime?_suffix {date : Date} {value : Value}
    (h : dateOrDateTime? text = some (date, value, rest)) : rest <:+ text := by
  obtain ⟨⟨date, afterDate⟩, hdate, h⟩ := Option.bind_eq_some_iff.mp h
  refine List.IsSuffix.trans ?_ (date?_suffix hdate)
  dsimp only at h
  split at h
  · cases h
    exact List.suffix_rfl
  · rename_i htime
    refine List.IsSuffix.trans ?_ (timeOfDay?_suffix htime)
    split at h
    · rename_i hoffset
      cases h
      exact offset?_suffix hoffset
    · cases h
      exact List.suffix_rfl

/-! ## 5. Numbers -/

/-- Digits of a class are a block of them with underscores between. -/
theorem exists_block_moreDigits (class_ : Char → Bool) (text : List Char) :
    ∃ block, text = block ++ (moreDigits class_ text).2 ∧
      (∀ c ∈ block, class_ c = true ∨ c = '_') ∧
      (class_ '_' = false → block.countP class_ = (moreDigits class_ text).1.length) := by
  fun_induction moreDigits class_ text with
  | case1 c rest hdigit digits after hmore ih =>
    obtain ⟨block, hrest, hchars, hcount⟩ := ih
    rw [hmore] at hrest hcount
    refine ⟨'_' :: c :: block, by rw [hrest]; rfl, ?_, fun hclass => ?_⟩
    · simpa [hdigit] using hchars
    · simp [hclass, hdigit, hcount hclass]
  | case2 c rest => exact ⟨[], rfl, by simp, by simp⟩
  | case3 c rest _ hdigit digits after hmore ih =>
    obtain ⟨block, hrest, hchars, hcount⟩ := ih
    rw [hmore] at hrest hcount
    refine ⟨c :: block, by rw [hrest]; rfl, ?_, fun hclass => ?_⟩
    · simpa [hdigit] using hchars
    · simp [hdigit, hcount hclass]
  | case4 c rest => exact ⟨[], rfl, by simp, by simp⟩
  | case5 => exact ⟨[], rfl, by simp, by simp⟩

theorem exists_block_digitsOf (class_ : Char → Bool) (text : List Char) :
    ∃ block, text = block ++ (digitsOf class_ text).2 ∧
      (∀ c ∈ block, class_ c = true ∨ c = '_') ∧
      (class_ '_' = false → block.countP class_ = (digitsOf class_ text).1.length) := by
  unfold digitsOf
  split
  · rename_i c rest
    split
    · rename_i hdigit
      obtain ⟨block, hrest, hchars, hcount⟩ := exists_block_moreDigits class_ rest
      refine ⟨c :: block, ?_, ?_, fun hclass => ?_⟩
      · exact congrArg (c :: ·) hrest
      · simpa [hdigit] using hchars
      · simp [hdigit, hcount hclass]
    · exact ⟨[], rfl, by simp, by simp⟩
  · exact ⟨[], rfl, by simp, by simp⟩

theorem digitsOf_suffix (class_ : Char → Bool) (text : List Char) : (digitsOf class_ text).2 <:+ text := by
  obtain ⟨block, htext, -⟩ := exists_block_digitsOf class_ text
  exact ⟨block, htext.symm⟩

theorem startsWith_digits (text : List Char) : StartsWith (digits text).1 (digits text).2 text := by
  obtain ⟨block, htext, hchars, hcount⟩ := exists_block_digitsOf isDigit text
  exact ⟨block, htext, hchars, hcount (by decide)⟩

theorem digits_suffix (text : List Char) : (digits text).2 <:+ text := digitsOf_suffix isDigit text

theorem basedNumber?_suffix {value : Value} (h : basedNumber? text = some (value, rest)) :
    rest <:+ text := by
  unfold basedNumber? at h
  split at h
  · rename_i letter after
    have hbased {class_ : Char → Bool} {digits rest : List Char}
        (hfound : digitsOf class_ after = (digits, rest)) : rest <:+ '0' :: letter :: after := by
      have hrest := digitsOf_suffix class_ after
      rw [hfound] at hrest
      exact hrest.trans (List.suffix_append ['0', letter] after)
    -- the letter only settles the base
    dsimp only at h
    split at h
    all_goals
      obtain ⟨base, -, h⟩ := Option.bind_eq_some_iff.mp h
      split at h
      · cases h
      · cases h
        exact hbased ‹_›
  · cases h

theorem startsWith_wholeDigits? {whole : List Char} (h : wholeDigits? text = some (whole, rest)) :
    StartsWith whole rest text := by
  unfold wholeDigits? at h
  split at h
  · cases h
    exact startsWith_zero rest
  · rename_i c after _
    split at h
    · have hdigits := startsWith_digits (c :: after)
      rwa [Option.some.inj h] at hdigits
    · cases h
  · cases h

theorem numberParts?_spec {parts : NumberParts} (h : numberParts? text = some (parts, rest)) :
    rest <:+ text ∧ (ShortNumerals text → parts.whole.length ≤ Text.maxNumeralLength) := by
  unfold numberParts? at h
  split at h
  rename_i negative signed hsign
  have hsigned : signed <:+ text := by
    split at hsign
    all_goals cases hsign
    · exact List.suffix_cons _ _
    · exact List.suffix_cons _ _
    · exact List.suffix_rfl
  obtain ⟨found, hwhole, h⟩ := Option.bind_eq_some_iff.mp h
  split at h
  rename_i whole afterWhole
  have hstarts := startsWith_wholeDigits? hwhole
  split at h
  rename_i fraction afterFraction hfraction
  have hfractionSuffix : afterFraction <:+ afterWhole := by
    split at hfraction
    · rename_i hfound
      cases hfraction
      exact fraction?_suffix digits_suffix hfound
    · cases hfraction
      exact List.suffix_rfl
  split at h
  rename_i exponent afterExponent hexponent
  have hexponentSuffix : afterExponent <:+ afterFraction := by
    split at hexponent
    · rename_i hfound
      cases hexponent
      exact exponent?_suffix digits_suffix hfound
    · cases hexponent
      exact List.suffix_rfl
  cases h
  refine ⟨?_, fun hshort => hstarts.length_le (hshort.of_suffix hsigned)⟩
  calc rest
    _ <:+ afterFraction := hexponentSuffix
    _ <:+ afterWhole := hfractionSuffix
    _ <:+ signed := hstarts.suffix
    _ <:+ text := hsigned

theorem avoids_value (parts : NumberParts)
    (hshort : fault = .numeralTooLong → parts.whole.length ≤ Text.maxNumeralLength) :
    Avoids weight fault depth (StateT.lift parts.value : Scan Value) := by
  unfold NumberParts.value
  split
  · exact avoids_wholeNumber _ hshort
  · exact avoids_pure _

theorem avoids_namedNumber (names : List (String × Decimal)) :
    Avoids weight fault depth (namedNumber names) := by
  induction names with
  | nil => exact avoids_fail
  | cons named rest ih => exact avoids_word_or named.1 _ ih

theorem avoids_scalar : Avoids weight fault depth scalar := by
  refine avoids_word_or "true" _ <| avoids_word_or "false" _ ?_
  refine avoids_found_bind (fun {text dated rest} _ hfound => ?_) ?_
  · obtain ⟨⟨date, value, after⟩, hdate, hdated⟩ := Option.map_eq_some_iff.mp hfound
    cases hdated
    refine ⟨dateOrDateTime?_suffix hdate, ?_⟩
    dsimp only
    split
    · exact avoids_pure _
    · exact avoids_fail
  · refine avoids_found_bind (fun _ hfound => ⟨time?_suffix hfound, avoids_pure _⟩) ?_
    refine avoids_found_bind (fun _ hfound => ⟨basedNumber?_suffix hfound, avoids_pure _⟩) ?_
    refine avoids_found_bind (fun {text parts rest} hfits hfound => ?_) (avoids_namedNumber _)
    obtain ⟨hrest, hshort⟩ := numberParts?_spec hfound
    refine ⟨hrest, avoids_value parts ?_⟩
    rintro rfl
    exact hshort hfits

/-! ## 6. Values -/

theorem avoids_require {α : Type} (given : Option α) : Avoids weight fault depth (require given) := by
  cases given with
  | none => exact avoids_fail
  | some a => exact avoids_pure a

/-- A bracket or brace weighs as much as a table on one line costs, which is more than a list does. -/
theorem avoids_values (fuel : Nat) :
    (∀ depth, Avoids tableCost fault depth (value fuel depth)) ∧
      (∀ depth, Avoids tableCost fault depth (items fuel depth)) ∧
      ∀ depth table, Avoids tableCost fault depth (inlineFields fuel depth table) := by
  induction fuel with
  | zero => exact ⟨fun _ => avoids_fail, fun _ => avoids_fail, fun _ _ => avoids_fail⟩
  | succ fuel ih =>
    obtain ⟨ihValue, ihItems, ihFields⟩ := ih
    refine ⟨fun depth => ?_, fun depth => ?_, fun depth table => ?_⟩
    · refine avoids_peek_bind avoids_scalar fun c rest hfits => ?_
      split
      · exact (avoids_string.bind fun _ => avoids_pure _) _ hfits
      · exact (avoids_string.bind fun _ => avoids_pure _) _ hfits
      · rename_i hopens
        cases hopens
        refine avoids_nested rfl (by decide) ?_ hfits
        exact (avoids_lines fuel).bind fun _ => (ihItems _).bind fun _ => avoids_pure _
      · rename_i hopens
        cases hopens
        refine avoids_nested rfl (Nat.le_refl _) ?_ hfits
        exact avoids_blanks.bind fun _ =>
          avoids_word_or "\x7d" _ ((ihFields _ _).bind fun _ => avoids_pure _)
      · exact avoids_scalar _ hfits
    · refine avoids_word_or "]" _ ?_
      refine (ihValue depth).bind fun item => (avoids_lines fuel).bind fun _ => ?_
      refine avoids_word_or "]" _ ?_
      exact (avoids_expect ",").bind fun _ => (avoids_lines fuel).bind fun _ =>
        (ihItems depth).bind fun _ => avoids_pure _
    · refine (avoids_key fuel).bind fun key => (avoids_expect "=").bind fun _ => ?_
      refine avoids_blanks.bind fun _ => (ihValue depth).bind fun item => ?_
      refine (avoids_require _).bind fun changed => avoids_blanks.bind fun _ => ?_
      refine avoids_word_or "\x7d" _ ?_
      exact (avoids_expect ",").bind fun _ => avoids_blanks.bind fun _ => ihFields depth changed

/-! ## 7. Documents -/

namespace Document

theorem avoids_takeHeader (document : Document) (fuel : Nat) :
    Avoids weight fault depth (document.takeHeader fuel) := by
  refine (avoids_word "[[").bind fun isItem => ?_
  split
  · exact avoids_blanks.bind fun _ => (avoids_key fuel).bind fun key =>
      (avoids_require _).bind fun _ => (avoids_expect "]]").bind fun _ => avoids_pure _
  · exact (avoids_expect "[").bind fun _ => avoids_blanks.bind fun _ =>
      (avoids_key fuel).bind fun key => (avoids_require _).bind fun _ =>
        (avoids_expect "]").bind fun _ => avoids_pure _

theorem avoids_takeField (document : Document) (fuel : Nat) :
    Avoids tableCost fault maxDepth (document.takeField fuel) :=
  (avoids_key fuel).bind fun key => (avoids_expect "=").bind fun _ => avoids_blanks.bind fun _ =>
    ((avoids_values fuel).1 maxDepth).bind fun item => avoids_require (document.add key item)

theorem avoids_takeStatement (document : Document) (fuel : Nat) :
    Avoids tableCost fault maxDepth (document.takeStatement fuel) := by
  refine avoids_peek.bind fun next => ?_
  split
  · exact avoids_takeHeader document fuel
  · split
    · exact avoids_takeField document fuel
    · exact avoids_pure document
  · exact avoids_pure document

theorem avoids_takeLines (fuel count : Nat) (document : Document) :
    Avoids tableCost fault maxDepth (takeLines fuel count document) := by
  induction count generalizing document with
  | zero => exact avoids_pure document
  | succ count ih =>
    refine avoids_blanks.bind fun _ => (avoids_takeStatement document fuel).bind fun changed => ?_
    refine avoids_blanks.bind fun _ => avoids_comment.bind fun _ => avoids_peek.bind fun next => ?_
    split
    · exact avoids_pure changed
    · exact (avoids_expect "\n").bind fun _ => ih changed

end Document

/-! ## 8. Whole texts -/

@[simp] theorem openings_plainNewlines (text : List Char) :
    openings (plainNewlines text) = openings text := by
  fun_induction plainNewlines text with
  | case1 rest ih => simpa [openings] using ih
  | case2 c rest _ ih => simpa [openings, List.countP_cons] using ih
  | case3 => rfl

/-- A block without line feeds was there with the carriage returns. -/
theorem prefix_of_plainNewlines (text : List Char) : ∀ {block : List Char}, '\n' ∉ block →
    block <+: plainNewlines text → block <+: text := by
  fun_induction plainNewlines text with
  | case1 rest =>
    intro block hblock h
    rcases List.prefix_cons_iff.mp h with rfl | ⟨after, rfl, -⟩
    · exact List.nil_prefix
    · exact absurd List.mem_cons_self hblock
  | case2 c rest _ ih =>
    intro block hblock h
    rcases List.prefix_cons_iff.mp h with rfl | ⟨after, rfl, hafter⟩
    · exact List.nil_prefix
    · exact List.prefix_cons_iff.mpr
        (.inr ⟨after, rfl, ih (fun hmem => hblock (List.mem_cons_of_mem c hmem)) hafter⟩)
  | case3 => exact fun _ h => h

theorem infix_of_plainNewlines (text : List Char) : ∀ {block : List Char}, '\n' ∉ block →
    block <:+: plainNewlines text → block <:+: text := by
  fun_induction plainNewlines text with
  | case1 rest ih =>
    intro block hblock h
    rcases List.infix_cons_iff.mp h with h | h
    · rcases List.prefix_cons_iff.mp h with rfl | ⟨after, rfl, -⟩
      · exact List.nil_infix
      · exact absurd List.mem_cons_self hblock
    · exact (ih hblock h).trans (List.suffix_append ['\r', '\n'] rest).isInfix
  | case2 c rest hother ih =>
    intro block hblock h
    rcases List.infix_cons_iff.mp h with h | h
    · refine (prefix_of_plainNewlines (c :: rest) hblock ?_).isInfix
      rwa [plainNewlines.eq_2 _ _ hother]
    · exact (ih hblock h).trans (List.suffix_cons c rest).isInfix
  | case3 => exact fun _ h => h

theorem shortNumerals_plainNewlines (h : ShortNumerals text) : ShortNumerals (plainNewlines text) := by
  intro block hblock hchars
  have hline : '\n' ∉ block := fun hmem => absurd (hchars '\n' hmem) (by decide)
  exact h block (infix_of_plainNewlines text hline hblock) hchars

theorem read_ne_error {text : String} (hfits : Fits tableCost fault maxDepth (plainNewlines text.toList)) :
    read text ≠ .error fault := by
  intro h
  rcases bind_eq_error_iff.mp h with h | ⟨document, -, h⟩
  · exact all_ne_error (Document.avoids_takeLines _ _ _) hfits h
  · cases h

/-- **A TOML text with short numerals has none that is too long.** -/
theorem not_shortNumerals_of_read {text : String} (h : read text = .error .numeralTooLong) :
    ¬ ShortNumerals text.toList := by
  intro hshort
  have hfits : Fits tableCost .numeralTooLong maxDepth (plainNewlines text.toList) :=
    shortNumerals_plainNewlines hshort
  exact read_ne_error hfits h

/-- **A TOML text in which values are nested too deeply opens many brackets.** -/
theorem maxDepth_lt_of_read {text : String} (h : read text = .error .nestedTooDeeply) :
    maxDepth < tableCost * openings text.toList := by
  refine Nat.lt_of_not_le fun hfew => ?_
  have hfits : Fits tableCost .nestedTooDeeply maxDepth (plainNewlines text.toList) := by
    show tableCost * openings (plainNewlines text.toList) ≤ maxDepth
    rwa [openings_plainNewlines]
  exact read_ne_error hfits h

end Bindery.Toml
