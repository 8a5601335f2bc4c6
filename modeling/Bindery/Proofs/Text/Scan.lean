/-
# Scans that avoid a fault

A scan avoids a fault if it does not fail with it on texts that fit, and leaves the end of such a text
(`Scan.Avoids`).  This carries over from the steps of a scan to the scan (`Scan.Avoids.bind`), since the end
of a text that fits does (`Scan.Fits.of_suffix`).  Going deeper into nested values takes away from the depth
that the text has to fit into, and the bracket that is passed pays for it (`Scan.avoids_nested`).
-/
import Bindery.Text.Ordinary
import Mathlib.Data.List.Infix

namespace Bindery.Scan

variable {α β : Type} {weight depth : Nat} {fault : ReadFault} {text rest : List Char}

/-! ## 1. Texts that fit -/

/-- What keeps a scan from a fault: short numerals, or brackets that, each by its weight, fit into the
depth.  Nothing keeps it from finding a text malformed. -/
def Fits (weight : Nat) : (fault : ReadFault) → (depth : Nat) → (text : List Char) → Prop
  | .malformed, _, _ => False
  | .numeralTooLong, _, text => ShortNumerals text
  | .nestedTooDeeply, depth, text => weight * openings text ≤ depth

theorem ShortNumerals.of_suffix (h : ShortNumerals text) (hrest : rest <:+ text) : ShortNumerals rest :=
  fun block hblock => h block (hblock.trans hrest.isInfix)

theorem openings_le_of_suffix (h : rest <:+ text) : openings rest ≤ openings text :=
  h.sublist.countP_le

theorem Fits.of_suffix (h : Fits weight fault depth text) (hrest : rest <:+ text) :
    Fits weight fault depth rest := by
  cases fault with
  | malformed => exact h
  | numeralTooLong => exact ShortNumerals.of_suffix h hrest
  | nestedTooDeeply => exact Nat.le_trans (Nat.mul_le_mul_left _ (openings_le_of_suffix hrest)) h

theorem Fits.ne_malformed (h : Fits weight fault depth text) : .malformed ≠ fault := by
  rintro rfl
  exact h

/-! ## 2. Scans -/

theorem bind_of_ok {scan : Scan α} {next : α → Scan β} {a : α} (h : scan text = .ok (a, rest)) :
    (scan >>= next) text = next a rest := by
  show (scan text >>= fun taken => next taken.1 taken.2) = _
  rw [h]
  rfl

theorem bind_of_error {scan : Scan α} {next : α → Scan β} {found : ReadFault}
    (h : scan text = .error found) : (scan >>= next) text = .error found := by
  show (scan text >>= fun taken => next taken.1 taken.2) = _
  rw [h]
  rfl

/-- A scan leaves the end of a text or fails with another fault. -/
def AvoidsOn (fault : ReadFault) (scan : Scan α) (text : List Char) : Prop :=
  (∃ a rest, scan text = .ok (a, rest) ∧ rest <:+ text) ∨
    ∃ other, scan text = .error other ∧ other ≠ fault

/-- A scan avoids a fault on texts that fit. -/
def Avoids (weight : Nat) (fault : ReadFault) (depth : Nat) (scan : Scan α) : Prop :=
  ∀ text, Fits weight fault depth text → AvoidsOn fault scan text

theorem AvoidsOn.of_eq {scan other : Scan α} (hother : AvoidsOn fault other rest)
    (h : scan text = other rest) (hrest : rest <:+ text) : AvoidsOn fault scan text := by
  rcases hother with ⟨a, after, hok, hafter⟩ | ⟨found, herror, hne⟩
  · exact .inl ⟨a, after, h.trans hok, hafter.trans hrest⟩
  · exact .inr ⟨found, h.trans herror, hne⟩

/-- **A scan avoids a fault if its steps do.** -/
theorem Avoids.bind {scan : Scan α} {next : α → Scan β} (hscan : Avoids weight fault depth scan)
    (hnext : ∀ a, Avoids weight fault depth (next a)) : Avoids weight fault depth (scan >>= next) := by
  intro text hfits
  rcases hscan text hfits with ⟨a, rest, hok, hrest⟩ | ⟨other, herror, hne⟩
  · exact (hnext a rest (hfits.of_suffix hrest)).of_eq (bind_of_ok hok) hrest
  · exact .inr ⟨other, bind_of_error herror, hne⟩

theorem avoids_pure (a : α) : Avoids weight fault depth (pure a : Scan α) :=
  fun text _ => .inl ⟨a, text, rfl, List.suffix_rfl⟩

theorem avoids_fail : Avoids weight fault depth (fail : Scan α) :=
  fun _ hfits => .inr ⟨_, rfl, hfits.ne_malformed⟩

theorem avoids_peek : Avoids weight fault depth peek :=
  fun text _ => .inl ⟨_, text, rfl, List.suffix_rfl⟩

theorem avoids_skipWhile (class_ : Char → Bool) : Avoids weight fault depth (skipWhile class_) :=
  fun _ _ => .inl ⟨_, _, rfl, List.dropWhile_suffix class_⟩

theorem avoids_takeWhile (class_ : Char → Bool) : Avoids weight fault depth (takeWhile class_) :=
  fun _ _ => .inl ⟨_, _, rfl, List.dropWhile_suffix class_⟩

theorem avoids_word (expected : String) : Avoids weight fault depth (word expected) := by
  intro text _
  unfold AvoidsOn word
  split
  · exact .inl ⟨_, _, rfl, List.drop_suffix _ text⟩
  · exact .inl ⟨_, _, rfl, List.suffix_rfl⟩

theorem avoids_expect (expected : String) : Avoids weight fault depth (expect expected) := by
  refine (avoids_word expected).bind fun isThere => ?_
  cases isThere with
  | true => exact avoids_pure ()
  | false => exact avoids_fail

/-- A word stands for a value, or something else is there. -/
theorem avoids_word_or (expected : String) (a : α) {otherwise : Scan α}
    (h : Avoids weight fault depth otherwise) :
    Avoids weight fault depth
      (word expected >>= fun isThere => if isThere = true then pure a else otherwise) := by
  refine (avoids_word expected).bind fun isThere => ?_
  cases isThere with
  | true => exact avoids_pure a
  | false => exact h

/-- A result is what there is at the front of a text, or the text is malformed. -/
def LeavesEnd (result : Except ReadFault (α × List Char)) (text : List Char) : Prop :=
  (∃ a rest, result = .ok (a, rest) ∧ rest <:+ text) ∨ result = .error .malformed

theorem LeavesEnd.of_suffix {result : Except ReadFault (α × List Char)} (h : LeavesEnd result rest)
    (hrest : rest <:+ text) : LeavesEnd result text := by
  rcases h with ⟨a, after, hok, hafter⟩ | herror
  · exact .inl ⟨a, after, hok, hafter.trans hrest⟩
  · exact .inr herror

theorem avoids_of_leavesEnd {scan : Scan α} (h : ∀ text, LeavesEnd (scan text) text) :
    Avoids weight fault depth scan :=
  fun text hfits => (h text).imp_right fun herror => ⟨_, herror, hfits.ne_malformed⟩

/-- What is found at the front of a text may be used as what can stand there. -/
theorem avoids_found_bind {find : List Char → Option (α × List Char)} {next : Option α → Scan β}
    (hfound : ∀ {text a rest}, Fits weight fault depth text → find text = some (a, rest) →
      rest <:+ text ∧ Avoids weight fault depth (next (some a)))
    (hnone : Avoids weight fault depth (next none)) :
    Avoids weight fault depth (found find >>= next) := by
  intro text hfits
  cases hfind : find text with
  | none =>
    have htaken : found find text = .ok (none, text) := by rw [found, hfind]
    exact (hnone text hfits).of_eq (bind_of_ok htaken) List.suffix_rfl
  | some taken =>
    obtain ⟨a, rest⟩ := taken
    obtain ⟨hrest, hnext⟩ := hfound hfits hfind
    have htaken : found find text = .ok (some a, rest) := by rw [found, hfind]
    exact (hnext rest (hfits.of_suffix hrest)).of_eq (bind_of_ok htaken) hrest

theorem avoids_found {find : List Char → Option (α × List Char)}
    (hfound : ∀ {text a rest}, find text = some (a, rest) → rest <:+ text) :
    Avoids weight fault depth (found find) := by
  intro text _
  unfold AvoidsOn found
  split
  · rename_i hfind
    exact .inl ⟨_, _, rfl, hfound hfind⟩
  · exact .inl ⟨_, _, rfl, List.suffix_rfl⟩

/-! ## 3. Numbers -/

/-- Digits are at the front of a text, perhaps with underscores between them. -/
def StartsWith (digits rest text : List Char) : Prop :=
  ∃ block, text = block ++ rest ∧ (∀ c ∈ block, isDigit c = true ∨ c = '_') ∧
    block.countP isDigit = digits.length

variable {digits : List Char}

theorem StartsWith.suffix (h : StartsWith digits rest text) : rest <:+ text := by
  obtain ⟨block, rfl, -⟩ := h
  exact List.suffix_append block rest

theorem StartsWith.length_le (h : StartsWith digits rest text) (hshort : ShortNumerals text) :
    digits.length ≤ Text.maxNumeralLength := by
  obtain ⟨block, rfl, hchars, hcount⟩ := h
  rw [← hcount]
  exact hshort block (List.prefix_append block rest).isInfix hchars

theorem startsWith_zero (rest : List Char) : StartsWith ['0'] rest ('0' :: rest) := by
  refine ⟨['0'], rfl, fun c hc => .inl ?_, rfl⟩
  rw [List.mem_singleton.mp hc]
  rfl

section

variable {find : List Char → List Char × List Char} (hfind : ∀ text, (find text).2 <:+ text)

include hfind

theorem fraction?_suffix (h : fraction? find text = some (digits, rest)) : rest <:+ text := by
  unfold fraction? at h
  split at h
  · rename_i after
    have hrest := hfind after
    split at h
    · cases h
    · rename_i hfound
      cases h
      rw [hfound] at hrest
      exact hrest.trans (List.suffix_cons _ after)
  · cases h

theorem exponent?_suffix {exponent : Exponent} (h : exponent? find text = some (exponent, rest)) :
    rest <:+ text := by
  unfold exponent? at h
  split at h
  · rename_i e after
    split at h
    · split at h
      rename_i negative signed hsign
      have hsigned : signed <:+ after := by
        split at hsign
        all_goals cases hsign
        · exact List.suffix_cons _ _
        · exact List.suffix_cons _ _
        · exact List.suffix_rfl
      have hrest := hfind signed
      split at h
      · cases h
      · rename_i hfound
        cases h
        rw [hfound] at hrest
        exact (hrest.trans hsigned).trans (List.suffix_cons e after)
    · cases h
  · cases h

end

/-- A number that is not too long is converted. -/
theorem avoids_wholeNumber {τ : Type} (negative : Bool)
    (hshort : fault = .numeralTooLong → digits.length ≤ Text.maxNumeralLength) :
    Avoids weight fault depth (StateT.lift (wholeNumber negative digits) : Scan (Value τ)) := by
  intro text _
  unfold AvoidsOn
  show (∃ a rest, (wholeNumber negative digits >>= fun value => pure (value, text)) = _ ∧ _) ∨
    ∃ other, (wholeNumber negative digits >>= fun value => pure (value, text)) = _ ∧ _
  rw [wholeNumber]
  split
  · rename_i hlong
    refine .inr ⟨_, rfl, fun heq => ?_⟩
    exact absurd (hshort heq.symm) (Nat.not_le.mpr hlong)
  · exact .inl ⟨_, _, rfl, List.suffix_rfl⟩

/-! ## 4. Nested values -/

/-- **A bracket pays for the depth that is taken inside it.** -/
theorem avoids_nested {cost : Nat} {inside : Nat → Scan α} {c : Char}
    (hopens : (c = '[' || c = '\x7b') = true) (hcost : cost ≤ weight)
    (hinside : Avoids weight fault (depth - cost) (inside (depth - cost)))
    (hfits : Fits weight fault depth (c :: rest)) :
    AvoidsOn fault (deeper cost depth >>= fun depth => skip >>= fun _ => inside depth) (c :: rest) := by
  have hpaid : fault = .nestedTooDeeply → weight * openings rest + weight ≤ depth := by
    rintro rfl
    have hone : openings (c :: rest) = openings rest + 1 := List.countP_cons_of_pos hopens
    have hall : weight * openings (c :: rest) ≤ depth := hfits
    rw [hone, Nat.mul_succ] at hall
    exact hall
  by_cases hdeep : depth < cost
  · have hdeeper : deeper cost depth (c :: rest) = .error .nestedTooDeeply := if_pos hdeep
    refine .inr ⟨.nestedTooDeeply, bind_of_error hdeeper, fun heq => ?_⟩
    have := hpaid heq.symm
    omega
  · have hdeeper : deeper cost depth (c :: rest) = .ok (depth - cost, c :: rest) := if_neg hdeep
    have hrest : rest <:+ c :: rest := List.suffix_cons c rest
    refine (hinside rest ?_).of_eq (bind_of_ok hdeeper) hrest
    cases fault with
    | malformed => exact hfits
    | numeralTooLong => exact ShortNumerals.of_suffix hfits hrest
    | nestedTooDeeply =>
      have := hpaid rfl
      show weight * openings rest ≤ depth - cost
      omega

/-- The next character says what is there. -/
theorem avoids_peek_bind {next : Option Char → Scan α} (hnil : Avoids weight fault depth (next none))
    (hcons : ∀ c rest, Fits weight fault depth (c :: rest) →
      AvoidsOn fault (next (some c)) (c :: rest)) :
    Avoids weight fault depth (peek >>= next) := by
  intro text hfits
  cases text with
  | nil => exact (hnil [] hfits).of_eq rfl List.suffix_rfl
  | cons c rest => exact (hcons c rest hfits).of_eq rfl List.suffix_rfl

/-! ## 5. Whole texts -/

theorem all_ne_error {scan : Scan α} (hscan : Avoids weight fault depth scan)
    (hfits : Fits weight fault depth text) : all scan text ≠ .error fault := by
  intro h
  rcases hscan text hfits with ⟨a, rest, hok, -⟩ | ⟨other, herror, hne⟩
  · rw [all, hok] at h
    cases rest with
    | nil => cases h
    | cons c rest =>
      cases h
      exact hfits.ne_malformed rfl
  · rw [all, herror] at h
    exact hne (Except.error.inj h)

end Bindery.Scan
