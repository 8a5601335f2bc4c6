/-
# Tags are read back

Names hold no character that means something in a tag, and every character of a value that does is
written as a reference.  So a tag that is cut at its quotes falls into its names and values
(`exists_cut_attributes`), each value is read as it was (`readValue_escape`), and a tag is read as it was
written (`Tag.read_print`).  None of its characters could be taken for the end of a tag or for the end of
a line (`Tag.plain_print`).
-/
import Mathlib.Data.List.Basic
import Bindery.Proofs.Xml.Legal
import Bindery.Xml.Reading

namespace Bindery.Xml

/-! ## 1. Names -/

/-- Whether a character may stand in a name. -/
def standsInName (c : Char) : Bool :=
  startsName c || ('0' ≤ c && c ≤ '9') || c = '-' || c = '.'

theorem standsInName_of_mem {name : List Char} (h : isName name = true) :
    ∀ c ∈ name, standsInName c = true := by
  cases name with
  | nil =>
    intro c hc
    cases hc
  | cons first rest =>
    rw [isName, Bool.and_eq_true, List.all_eq_true] at h
    refine List.forall_mem_cons.mpr ⟨?_, h.2⟩
    simp [standsInName, h.1]

/-- No character that may not stand in a name is in one. -/
theorem not_mem_of_isName {name : List Char} (h : isName name = true) {c : Char}
    (hc : standsInName c = false) : c ∉ name := by
  intro hmem
  rw [standsInName_of_mem h c hmem] at hc
  cases hc

/-- Names are made of plain ASCII. -/
theorem isLegal_of_standsInName {c : Char} (h : standsInName c = true) : isLegal c = true := by
  have hbounds : 0x20 ≤ c.toNat ∧ c.toNat < 0x80 := by
    have hletters : 'a'.val.toNat = 97 ∧ 'z'.val.toNat = 122 ∧ 'A'.val.toNat = 65 ∧
        'Z'.val.toNat = 90 ∧ '0'.val.toNat = 48 ∧ '9'.val.toNat = 57 := by decide
    have hval : c.val.toNat = c.toNat := rfl
    simp only [standsInName, startsName, Bool.or_eq_true, Bool.and_eq_true, decide_eq_true_eq,
      Char.le_def, UInt32.le_iff_toNat_le, hval] at h
    rcases h with (((((h | h) | rfl) | rfl) | h) | rfl) | rfl
    · omega
    · omega
    · decide
    · decide
    · omega
    · decide
    · decide
  simp only [isLegal, Bool.or_eq_true, Bool.and_eq_true, decide_eq_true_eq]
  omega

/-- The names in a tag are names, and no attribute comes twice. -/
structure IsTag (name : String) (attributes : List Attribute) : Prop where
  name : isName name.toList = true
  keys : ∀ item ∈ attributes, isName item.name.toList = true
  distinct : (attributes.map (·.name)).Nodup

/-- A tag that takes its attributes from a fixed list of names. -/
theorem IsTag.of_sublist {name : String} {attributes : List Attribute} (names : List String)
    (hname : isName name.toList = true)
    (hnames : names.Nodup ∧ ∀ other ∈ names, isName other.toList = true)
    (h : (attributes.map (·.name)).Sublist names) : IsTag name attributes where
  name := hname
  keys item hitem := hnames.2 item.name (h.subset (List.mem_map_of_mem hitem))
  distinct := hnames.1.sublist h

/-! ## 2. References -/

/-- A reference that is open is read as soon as it ends, whatever has come of it so far. -/
theorem expand_open {plain : Char → Char} {rest : List Char} : ∀ {opened name : List Char},
    ';' ∉ name → expand plain (some opened) (name ++ ';' :: rest) =
      (reference? (opened.reverse ++ name)).bind fun c => (expand plain none rest).map (c :: ·)
  | opened, [], _ => by
    rw [List.nil_append, expand, if_pos rfl, List.append_nil]
    cases reference? opened.reverse <;> cases expand plain none rest <;> rfl
  | opened, c :: name, h => by
    rw [List.mem_cons, not_or] at h
    rw [List.cons_append, expand, if_neg (Ne.symm h.1), expand_open h.2]
    simp

/-- A reference is read as what it stands for. -/
theorem expand_reference {plain : Char → Char} (name : List Char) {rest : List Char} {c : Char}
    (hname : ';' ∉ name) (hc : reference? name = some c) :
    expand plain none ('&' :: (name ++ ';' :: rest)) = (expand plain none rest).map (c :: ·) := by
  rw [expand, if_pos rfl, expand_open hname, List.reverse_nil, List.nil_append, hc]
  rfl

/-- A character that opens no reference stands for itself. -/
theorem expand_plain {plain : Char → Char} {c : Char} {rest : List Char} (hc : c ≠ '&') :
    expand plain none (c :: rest) = (expand plain none rest).map (plain c :: ·) := by
  rw [expand, if_neg hc]

/-- A character of a text is read back, if it is not read as another one when it stands for itself. -/
theorem expand_escapeInText {plain : Char → Char} {c : Char} (rest : List Char)
    (hc : c ≠ '\r' → plain c = c) :
    expand plain none (escapeInText c ++ rest) = (expand plain none rest).map (c :: ·) := by
  unfold escapeInText
  split
  · rename_i heq
    subst heq
    exact expand_reference "lt".toList (by decide) (by decide)
  split
  · rename_i heq
    subst heq
    exact expand_reference "gt".toList (by decide) (by decide)
  split
  · rename_i heq
    subst heq
    exact expand_reference "amp".toList (by decide) (by decide)
  split
  · rename_i heq
    subst heq
    exact expand_reference "#13".toList (by decide) (by decide)
  · rename_i hamp hreturn
    rw [List.singleton_append, expand_plain hamp, hc hreturn]

/-- In a value, only a space is a blank that stands for itself. -/
theorem expand_escapeInValue {c : Char} (rest : List Char) :
    expand (fun c => if isBlank c then ' ' else c) none (escapeInValue c ++ rest) =
      (expand (fun c => if isBlank c then ' ' else c) none rest).map (c :: ·) := by
  unfold escapeInValue
  split
  · rename_i heq
    subst heq
    exact expand_reference "quot".toList (by decide) (by decide)
  split
  · rename_i heq
    subst heq
    exact expand_reference "#10".toList (by decide) (by decide)
  split
  · rename_i heq
    subst heq
    exact expand_reference "#9".toList (by decide) (by decide)
  · rename_i hline htab
    refine expand_escapeInText rest fun hreturn => ?_
    split
    · -- Line feeds, tabs and carriage returns are references, so this blank is a space.
      rename_i hblank
      simp only [isBlank, Bool.or_eq_true, decide_eq_true_eq, hline, htab, hreturn, or_false]
        at hblank
      exact hblank.symm
    · rfl

/-- **A text is read back.** -/
theorem readText_escape : ∀ chars : List Char,
    readText (chars.flatMap escapeInText) = some chars
  | [] => rfl
  | c :: chars => by
    have ih := readText_escape chars
    rw [readText] at ih ⊢
    rw [List.flatMap_cons, expand_escapeInText _ fun _ => rfl, ih]
    rfl

/-- **A value is read back.** -/
theorem readValue_escape (value : String) :
    readValue (value.toList.flatMap escapeInValue) = some value := by
  have hchars : ∀ chars : List Char, expand (fun c => if isBlank c then ' ' else c) none
      (chars.flatMap escapeInValue) = some chars := by
    intro chars
    induction chars with
    | nil => rfl
    | cons c chars ih => rw [List.flatMap_cons, expand_escapeInValue, ih, Option.map_some]
  rw [readValue, hchars, Option.map_some, String.ofList_toList]

/-! ## 3. Characters without a meaning -/

/-- Whether a character is legal and could not be taken for a bracket or for the end of a line that is to
become plain. -/
def isPlain (c : Char) : Bool :=
  c != '<' && c != '>' && c != '\r' && isLegal c

/-- What may stand in a name is plain, for brackets and the ends of lines may not. -/
theorem isPlain_of_standsInName {c : Char} (h : standsInName c = true) : isPlain c = true := by
  have hne : ∀ d : Char, standsInName d = false → c ≠ d := by
    rintro d hd rfl
    rw [h] at hd
    cases hd
  simp [isPlain, hne '<' (by decide), hne '>' (by decide), hne '\r' (by decide),
    isLegal_of_standsInName h]

theorem all_isPlain_of_isName {name : List Char} (h : isName name = true) :
    name.all isPlain = true :=
  List.all_eq_true.mpr fun c hc => isPlain_of_standsInName (standsInName_of_mem h c hc)

/-- No character of a text is written as a bracket. -/
theorem all_isPlain_escapeInText {c : Char} (h : isLegal c = true) :
    (escapeInText c).all isPlain = true := by
  unfold escapeInText
  split
  · decide
  split
  · decide
  split
  · decide
  split
  · decide
  · rename_i hopen hclose _ hreturn
    simp [isPlain, hopen, hclose, hreturn, h]

theorem all_isPlain_escapeInValue {c : Char} (h : isLegal c = true) :
    (escapeInValue c).all isPlain = true := by
  unfold escapeInValue
  split
  · decide
  split
  · decide
  split
  · decide
  · exact all_isPlain_escapeInText h

/-- No character of a value is written as a quote, so the first quote ends the value. -/
theorem quote_not_mem_escapeInValue {c : Char} : '"' ∉ escapeInValue c := by
  unfold escapeInValue
  split
  · decide
  split
  · decide
  split
  · decide
  · rename_i hquote _ _
    unfold escapeInText
    split
    · decide
    split
    · decide
    split
    · decide
    split
    · decide
    · simpa using Ne.symm hquote

theorem all_isPlain_flatMap {escape : Char → List Char}
    (hescape : ∀ c, isLegal c = true → (escape c).all isPlain = true) {chars : List Char}
    (h : chars.all isLegal = true) : (chars.flatMap escape).all isPlain = true := by
  rw [List.all_flatMap, List.all_eq_true]
  exact fun c hc => hescape c (List.all_eq_true.mp h c hc)

/-! ## 4. Attributes -/

theorem Attribute.plain_print {item : Attribute} (hname : isName item.name.toList = true)
    (hvalue : isLegalText item.value = true) : item.print.all isPlain = true := by
  have hescaped := all_isPlain_flatMap (fun _ h => all_isPlain_escapeInValue h) hvalue
  have hmarks : isPlain ' ' = true ∧ isPlain '=' = true ∧ isPlain '"' = true := by decide
  simp only [Attribute.print, List.all_append, List.all_cons, List.all_nil, hmarks,
    all_isPlain_of_isName hname, hescaped, Bool.and_true]

/-- The name of an attribute is read from what stands before its first quote. -/
theorem attributeName?_print {name : String} (h : isName name.toList = true) :
    attributeName? (' ' :: (name.toList ++ ['='])) = some name := by
  simp [attributeName?, h]

/-- Attributes that follow a text are cut at their quotes: what comes before the first is the text with
the name of the first attribute, and what is cut off is read as the attributes. -/
theorem exists_cut_attributes : ∀ {attributes : List Attribute} {front : List Char}, '"' ∉ front →
    (∀ item ∈ attributes, isName item.name.toList = true) →
    ∃ key rest, (front ++ attributes.flatMap Attribute.print).splitOn '"' = (front ++ key) :: rest ∧
      readAttributes key rest = some attributes ∧ (key = [] ∨ ∃ tail, key = ' ' :: tail)
  | [], front, hfront, _ => by
    refine ⟨[], [], ?_, rfl, .inl rfl⟩
    rw [List.flatMap_nil, List.append_nil, List.splitOn_eq_singleton hfront]
  | item :: more, front, hfront, hnames => by
    obtain ⟨hname, hmore⟩ := List.forall_mem_cons.mp hnames
    obtain ⟨key, rest, hcut, hread, -⟩ := exists_cut_attributes (List.not_mem_nil (a := '"')) hmore
    have hquote : '"' ∉ front ++ ' ' :: (item.name.toList ++ ['=']) := by
      have := not_mem_of_isName hname (c := '"') (by decide)
      simp [hfront, this]
    have hvalue : '"' ∉ item.value.toList.flatMap escapeInValue := by
      rw [List.mem_flatMap]
      rintro ⟨c, -, hc⟩
      exact quote_not_mem_escapeInValue hc
    -- The quotes around the value are the next two: neither its name nor the value holds one.
    have hshape : front ++ (item :: more).flatMap Attribute.print =
        (front ++ ' ' :: (item.name.toList ++ ['='])) ++ '"' ::
          (item.value.toList.flatMap escapeInValue ++ '"' :: more.flatMap Attribute.print) := by
      simp [Attribute.print]
    refine ⟨' ' :: (item.name.toList ++ ['=']),
      item.value.toList.flatMap escapeInValue :: key :: rest, ?_, ?_, .inr ⟨_, rfl⟩⟩
    · rw [hshape, List.splitOn_append_cons_self, List.splitOn_append_cons_self,
        List.splitOn_eq_singleton hquote, List.splitOn_eq_singleton hvalue]
      rw [List.nil_append] at hcut
      rw [hcut]
      rfl
    · rw [readAttributes, attributeName?_print hname, readValue_escape, hread]
      rfl

/-! ## 5. Tags -/

/-- The inside of a tag is read as its name and its attributes. -/
theorem readTagBody_tag {name : String} {attributes : List Attribute} (h : IsTag name attributes) :
    readTagBody (tag name attributes) = some (name, attributes) := by
  have hquote := not_mem_of_isName h.name (c := '"') (by decide)
  have hspace : ∀ c ∈ name.toList, decide (c ≠ ' ') = true := by
    intro c hc
    rw [decide_eq_true_eq]
    rintro rfl
    exact not_mem_of_isName h.name (by decide) hc
  obtain ⟨key, rest, hcut, hread, hkey⟩ := exists_cut_attributes hquote h.keys
  have htake : (name.toList ++ key).takeWhile (· ≠ ' ') = name.toList := by
    rw [List.takeWhile_append_of_pos hspace]
    rcases hkey with rfl | ⟨tail, rfl⟩ <;> simp
  have hdrop : (name.toList ++ key).dropWhile (· ≠ ' ') = key := by
    rw [List.dropWhile_append_of_pos hspace]
    rcases hkey with rfl | ⟨tail, rfl⟩ <;> simp
  simp only [readTagBody, tag, hcut, List.headD_cons, List.tail_cons, htake, hdrop, hread, h.name,
    String.ofList_toList]
  exact if_pos h.distinct

/-- How a tag is written between its brackets. -/
def Tag.print : Tag → List Char
  | .opening name attributes => tag name attributes
  | .closing name => '/' :: name.toList
  | .whole name attributes => tag name attributes ++ ['/']

/-- A tag that can be written: its names are names, and its values are legal. -/
def Tag.IsWritable : Tag → Prop
  | .opening name attributes | .whole name attributes =>
    IsTag name attributes ∧ ∀ item ∈ attributes, isLegalText item.value = true
  | .closing name => isName name.toList = true

/-- The inside of a tag ends in a name or in a quote. -/
theorem getLast?_tag_ne_slash {name : String} {attributes : List Attribute}
    (h : isName name.toList = true) : (tag name attributes).getLast? ≠ some '/' := by
  rcases List.eq_nil_or_concat' attributes with rfl | ⟨before, last, rfl⟩
  · rw [tag, List.flatMap_nil, List.append_nil]
    intro hlast
    exact not_mem_of_isName h (by decide) (List.mem_of_getLast? hlast)
  · rw [tag, List.flatMap_append, List.flatMap_singleton, Attribute.print, ← List.append_assoc,
      ← List.append_assoc, List.getLast?_concat]
    decide

/-- The inside of a tag does not begin as that of a closing tag. -/
theorem exists_tag_eq_cons {name : String} (attributes : List Attribute)
    (h : isName name.toList = true) : ∃ c rest, tag name attributes = c :: rest ∧ c ≠ '/' := by
  cases hname : name.toList with
  | nil =>
    rw [hname] at h
    cases h
  | cons c rest =>
    refine ⟨c, rest ++ attributes.flatMap Attribute.print, by simp [tag, hname], ?_⟩
    rintro rfl
    exact not_mem_of_isName h (c := '/') (by decide) (by simp [hname])

/-- **A tag is read as it was written.** -/
theorem Tag.read_print {item : Tag} (h : item.IsWritable) : Tag.read item.print = some item := by
  cases item with
  | opening name attributes =>
    have hname := h.1.name
    obtain ⟨c, rest, hcons, hc⟩ := exists_tag_eq_cons attributes hname
    rw [Tag.print, Tag.read]
    · rw [if_neg (getLast?_tag_ne_slash hname), readTagBody_tag h.1]
      rfl
    · intro other hother
      rw [hcons, List.cons.injEq] at hother
      exact hc hother.1
  | closing name =>
    have hname : isName name.toList = true := h
    rw [Tag.print, Tag.read, if_pos hname, String.ofList_toList]
  | whole name attributes =>
    have hname := h.1.name
    obtain ⟨c, rest, hcons, hc⟩ := exists_tag_eq_cons attributes hname
    rw [Tag.print, Tag.read]
    · rw [if_pos List.getLast?_concat, List.dropLast_concat, readTagBody_tag h.1]
      rfl
    · intro other hother
      rw [hcons, List.cons_append, List.cons.injEq] at hother
      exact hc hother.1

theorem plain_tag {name : String} {attributes : List Attribute} (h : IsTag name attributes)
    (hvalues : ∀ item ∈ attributes, isLegalText item.value = true) :
    (tag name attributes).all isPlain = true := by
  rw [tag, List.all_append, all_isPlain_of_isName h.name, Bool.true_and, List.all_flatMap,
    List.all_eq_true]
  exact fun item hitem => Attribute.plain_print (h.keys item hitem) (hvalues item hitem)

/-- Inside its brackets a tag has plain characters only. -/
theorem Tag.plain_print {item : Tag} (h : item.IsWritable) : item.print.all isPlain = true := by
  cases item with
  | opening name attributes => exact plain_tag h.1 h.2
  | closing name =>
    have hname : isName name.toList = true := h
    rw [Tag.print, List.all_cons, all_isPlain_of_isName hname]
    rfl
  | whole name attributes =>
    rw [Tag.print, List.all_append, plain_tag h.1 h.2]
    rfl

end Bindery.Xml
