/-
# Which code points spell a valid path

A path comes as a sequence of code points, and surrogates may be among them.  `IsValidPoints` says on the
code points alone which sequences the check accepts: there are no surrogates, so the points spell a text
(`exists_text_of_no_surrogate`), and the parts between the slashes are what the check asks of segments
(`isValidPoints_chars`).  A path that is accepted is in normal form, and it is its own directory joined with
its file name (`IsValid.join_parent`).  All of it is `accepted_paths_are_normal`.
-/
import Mathlib.Data.String.Basic
import Bindery.Proofs.EntryPath.Link
import Bindery.Proofs.Success

namespace Bindery

/-! ## 1. Code points and texts -/

namespace Text.CodePoint

/-- The number of bytes that UTF-8 takes for a code point. -/
def utf8Size (point : CodePoint) : Nat :=
  if point.toNat < 0x80 then 1
  else if point.toNat < 0x800 then 2
  else if point.toNat < 0x10000 then 3
  else 4

/-- The number of bytes that UTF-8 takes for some code points. -/
def utf8Length : List CodePoint → Nat
  | [] => 0
  | point :: rest => point.utf8Size + utf8Length rest

theorem utf8Size_char (c : Char) : (char c).utf8Size = c.utf8Size := by
  have hnumber : (char c).toNat = c.val.toNat := rfl
  simp only [utf8Size, hnumber, Char.utf8Size, UInt32.le_iff_toNat_le, UInt32.toNat_ofNatLT,
    ← Nat.lt_succ_iff]

theorem utf8Length_chars (chars : List Char) :
    utf8Length (chars.map char) = (String.ofList chars).utf8ByteSize := by
  rw [String.utf8ByteSize_ofList]
  induction chars with
  | nil => rfl
  | cons c chars ih =>
    rw [List.map_cons, utf8Length, ih, utf8Size_char, String.utf8Len_cons, Nat.add_comm]

/-- The characters of a text spell the text. -/
theorem text?_chars (text : String) : text? (text.toList.map char) = some text := by
  have hchars : (text.toList.map char).mapM char? = some text.toList := by
    rw [mapM_eq_some_iff, List.forall₂_map_left_iff, List.forall₂_same]
    exact fun _ _ => rfl
  rw [text?, hchars, Option.map_some, String.ofList_toList]

/-- A surrogate spells nothing, whatever stands around it. -/
theorem text?_eq_none {points : List CodePoint} {code : Nat} (h : surrogate code ∈ points) :
    text? points = none := by
  have hnone : points.mapM char? = none := by
    induction points with
    | nil => cases h
    | cons point points ih =>
      rw [List.mapM_cons]
      rcases List.mem_cons.mp h with rfl | h
      · rfl
      · rw [ih h]
        cases point.char? <;> rfl
  rw [text?, hnone, Option.map_none]

/-- Code points without surrogates spell a text. -/
theorem exists_text_of_no_surrogate {points : List CodePoint}
    (h : ∀ code, surrogate code ∉ points) : ∃ text : String, points = text.toList.map char := by
  induction points with
  | nil => exact ⟨"", rfl⟩
  | cons point points ih =>
    obtain ⟨text, rfl⟩ := ih fun code hcode => h code (List.mem_cons_of_mem _ hcode)
    cases point with
    | surrogate code => exact absurd List.mem_cons_self (h code)
    | char c =>
      refine ⟨String.ofList (c :: text.toList), ?_⟩
      rw [String.toList_ofList, List.map_cons]

/-- Characters are cut at a character as their code points are. -/
theorem splitOn_chars (separator : Char) : ∀ chars : List Char,
    (chars.map char).splitOn (char separator) = (chars.splitOn separator).map (List.map char)
  | [] => rfl
  | c :: chars => by
    have hsame : (char c == char separator) = (c == separator) := by
      by_cases hc : c = separator <;> simp [hc]
    rw [List.map_cons, List.splitOn_cons_eq_if_modifyHead, List.splitOn_cons_eq_if_modifyHead,
      splitOn_chars separator chars, hsame]
    split
    · rfl
    · obtain ⟨first, rest, hsplit⟩ :=
        List.exists_cons_of_ne_nil (List.splitOn_ne_nil separator chars)
      rw [hsplit]
      rfl

end Text.CodePoint

namespace EntryPath

open Text CodePoint

/-! ## 2. Code points of valid paths -/

/-- The code points of a segment that the check accepts. -/
structure IsComponentPoints (component : List CodePoint) : Prop where
  ne_empty : component ≠ []
  allowed : ∀ c ∈ forbidden, .char c ∉ component
  no_dot_at_end : component.getLast? ≠ some (.char '.')

/-- The code points of a path that the check accepts. -/
structure IsValidPoints (points : List CodePoint) : Prop where
  no_surrogate : ∀ code, .surrogate code ∉ points
  size : utf8Length points ≤ 65535
  components : ∀ component ∈ points.splitOn (.char '/'), IsComponentPoints component
  fileName_size : ∀ fileName, (points.splitOn (.char '/')).getLast? = some fileName →
    utf8Length fileName ≤ 255

theorem isComponentPoints_chars {chars : List Char} :
    IsComponentPoints (chars.map char) ↔ IsComponent (String.ofList chars) := by
  have hmem : ∀ c, char c ∈ chars.map char ↔ c ∈ (String.ofList chars).toList := by
    intro c
    simp
  have hlast : (chars.map char).getLast? = some (.char '.') ↔
      (String.ofList chars).toList.getLast? = some '.' := by
    simp
  constructor
  · intro h
    refine ⟨?_, fun c hc hforbidden => h.allowed c hforbidden ((hmem c).mpr hc), ?_⟩
    · simpa using h.ne_empty
    · exact fun hdot => h.no_dot_at_end (hlast.mpr hdot)
  · intro h
    refine ⟨?_, fun c hforbidden hc => h.allowed c ((hmem c).mp hc) hforbidden, ?_⟩
    · simpa using h.ne_empty
    · exact fun hdot => h.no_dot_at_end (hlast.mp hdot)

/-- What is asked of the code points of a text is asked of the text. -/
theorem isValidPoints_chars {path : String} :
    IsValidPoints (path.toList.map char) ↔ IsValid path := by
  have hsize : utf8Length (path.toList.map char) = path.utf8ByteSize := by
    rw [utf8Length_chars, String.ofList_toList]
  have hlast : ((path.toList.map char).splitOn (.char '/')).getLast? =
      some ((fileName path).toList.map char) := by
    rw [splitOn_chars, List.getLast?_map, fileName, segments, List.getLast?_map,
      List.getLast?_eq_getLast_of_ne_nil (List.splitOn_ne_nil _ _)]
    simp
  have hcomponents : (∀ component ∈ (path.toList.map char).splitOn (.char '/'),
      IsComponentPoints component) ↔ ∀ component ∈ segments path, IsComponent component := by
    rw [splitOn_chars, segments, List.forall_mem_map, List.forall_mem_map]
    simp only [isComponentPoints_chars]
  constructor
  · intro h
    refine ⟨hcomponents.mp h.components, ?_, hsize ▸ h.size⟩
    have hname := h.fileName_size _ hlast
    rwa [utf8Length_chars, String.ofList_toList] at hname
  · intro h
    refine ⟨by simp, hsize ▸ h.size, hcomponents.mpr h.components, fun name hname => ?_⟩
    rw [hlast, Option.some.injEq] at hname
    rw [← hname, utf8Length_chars, String.ofList_toList]
    exact h.fileName_size

/-- The check accepts the sequences of code points that are valid, and no others. -/
theorem checkPoints_eq_ok_iff {points : List CodePoint} :
    checkPoints points = .ok () ↔ IsValidPoints points := by
  by_cases hsurrogate : ∀ code, surrogate code ∉ points
  · obtain ⟨path, rfl⟩ := exists_text_of_no_surrogate hsurrogate
    rw [isValidPoints_chars, ← check_eq_ok_iff, checkPoints, text?_chars]
  · push Not at hsurrogate
    obtain ⟨code, hcode⟩ := hsurrogate
    rw [checkPoints, text?_eq_none hcode]
    constructor
    · intro h
      cases h
    · intro h
      exact absurd hcode (h.no_surrogate code)

/-! ## 3. The directory and the file name -/

/-- A valid path lies in its directory under its file name. -/
theorem IsValid.join_parent {path : String} (h : IsValid path) :
    join (parent path) (fileName path) = path := by
  have hnames : ∀ name ∈ (segments path).dropLast, IsName name :=
    fun name hname => h.isName name ((List.dropLast_sublist _).subset hname)
  have hjoin := join_ofSegments (List.cons_ne_nil (fileName path) []) hnames
  rw [dropLast_append_fileName, ofSegments_segments, h.normalize_eq] at hjoin
  rw [h.parent_eq]
  exact hjoin

/-- **Accepted paths are in normal form.**  A sequence of code points is accepted exactly if it is valid,
and every other is refused with a fault of the path.  What is accepted spells a path, and unless a null
character is in it, normalizing leaves the path alone, and its directory joined with its file name is the
path again. -/
theorem accepted_paths_are_normal :
    (∀ points, checkPoints points = .ok () ↔ IsValidPoints points) ∧
    (∀ points, (∃ fault, checkPoints points = .error fault) ↔ ¬ IsValidPoints points) ∧
    ∀ points, checkPoints points = .ok () → .char '\x00' ∉ points →
      ∃ path, CodePoint.text? points = some path ∧ normalize path = path ∧
        join (parent path) (fileName path) = path := by
  refine ⟨fun points => checkPoints_eq_ok_iff, fun points => ?_, fun points haccepted _ => ?_⟩
  · rw [← checkPoints_eq_ok_iff]
    cases checkPoints points <;> simp
  · have hvalid := checkPoints_eq_ok_iff.mp haccepted
    obtain ⟨path, rfl⟩ := exists_text_of_no_surrogate hvalid.no_surrogate
    have hpath := isValidPoints_chars.mp hvalid
    exact ⟨path, text?_chars path, hpath.normalize_eq, hpath.join_parent⟩

/-- A path of four levels, one of them with letters of three bytes. -/
theorem image_accepted_in_normal_form :
    checkPoints ("OEBPS/..x/画像/cover.png".toList.map .char) = .ok () ∧
      .char '\x00' ∉ "OEBPS/..x/画像/cover.png".toList.map CodePoint.char ∧
      ∃ path, CodePoint.text? ("OEBPS/..x/画像/cover.png".toList.map .char) = some path ∧
        normalize path = path ∧ join (parent path) (fileName path) = path := by
  have haccepted : checkPoints ("OEBPS/..x/画像/cover.png".toList.map .char) = .ok () := by
    decide +kernel
  have hnull : .char '\x00' ∉ "OEBPS/..x/画像/cover.png".toList.map CodePoint.char := by decide
  exact ⟨haccepted, hnull, accepted_paths_are_normal.2.2 _ haccepted hnull⟩

end EntryPath
end Bindery
