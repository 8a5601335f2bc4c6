/-
# Recipe files are read or refused

The recipes of a file are the items of its list, one for each, in order; a file that is wrong or cannot be
read is refused as such (`Recipe.load_answered`).  Four faults escape: U+0000 in the location, a JSON file
whose top is no table, a numeral that is too long, and values that are nested too deeply.  The last two need
a text with such a numeral or with many brackets.  So the law that every file is read or refused is false
(`Recipe.not_load_answered`).
-/
import Bindery.Proofs.Json
import Bindery.Proofs.Toml
import Bindery.Recipe.Listed

namespace Bindery.Recipe

open Text

variable {source key : String} {index : Nat} {item value : Value CodePoints} {recipe : Recipe}
  {recipes : List Recipe} {fields : Value.Fields CodePoints} {fault : Fault} {disk : Disk}
  {location : Location} {data : ByteArray}

/-! ## 1. Items -/

theorem textField_eq_ok_iff {text : CodePoints} :
    textField fields source index key = .ok text ↔ fields.get? key = some (.text text) := by
  unfold textField
  split
  · rename_i s hget
    simp [hget]
  · rename_i hother
    constructor
    · intro h
      cases h
    · intro hget
      exact absurd hget (hother text)

/-- **An item is read as the recipe that it describes.** -/
theorem read_eq_ok_iff : read source index item = .ok recipe ↔ Describes item recipe := by
  obtain ⟨name, format, body⟩ := recipe
  cases item with
  | table fields =>
    simp only [read, bind_eq_ok_iff, textField_eq_ok_iff, Describes, Value.table.injEq, exists_eq_left']
    constructor
    · rintro ⟨name', hname, format', hformat, h⟩
      split at h
      · rename_i hbody
        cases h
        exact ⟨hname, hformat, hbody⟩
      · cases h
    · rintro ⟨hname, hformat, hbody⟩
      refine ⟨name, hname, format, hformat, ?_⟩
      rw [hbody]
      rfl
  | null | bool | int | decimal | text | list | dateTime | date | time =>
    simp [read, Describes, refuse]

theorem exists_recipeFault_of_textField (h : textField fields source index key = .error fault) :
    ∃ cause, fault = .recipe cause := by
  unfold textField at h
  split at h
  · cases h
  · cases h
    exact ⟨_, rfl⟩

/-- An item that describes no recipe is a fault of the recipe. -/
theorem exists_recipeFault_of_read (h : read source index item = .error fault) :
    ∃ cause, fault = .recipe cause := by
  cases item with
  | table fields =>
    rcases bind_eq_error_iff.mp h with h | ⟨name, -, h⟩
    · exact exists_recipeFault_of_textField h
    rcases bind_eq_error_iff.mp h with h | ⟨format, -, h⟩
    · exact exists_recipeFault_of_textField h
    · split at h
      · cases h
      · cases h
        exact ⟨_, rfl⟩
  | null | bool | int | decimal | text | list | dateTime | date | time =>
    cases h
    exact ⟨_, rfl⟩

/-! ## 2. Lists -/

/-- **A table is read as the recipes that it lists.** -/
theorem readAll_table_eq_ok_iff :
    readAll source (.table fields) = .ok recipes ↔ Lists fields recipes := by
  rw [readAll, Lists]
  split
  · rename_i items hitems
    rw [mapM_eq_ok_iff]
    simp only [hitems, read_eq_ok_iff, Option.some.injEq, Value.list.injEq, exists_eq_left']
    rw [← List.forall₂_map_left_iff (f := Prod.fst), List.zipIdx_map_fst]
  · rename_i hother
    constructor
    · intro h
      cases h
    · rintro ⟨items, hitems, -⟩
      exact absurd hitems (hother items)

theorem exists_recipeFault_of_readAll (h : readAll source (.table fields) = .error fault) :
    ∃ cause, fault = .recipe cause := by
  rw [readAll] at h
  split at h
  · obtain ⟨_, -, hread⟩ := exists_of_mapM_eq_error h
    exact exists_recipeFault_of_read hread
  · cases h
    exact ⟨_, rfl⟩

theorem exists_recipeFault_of_unlisted (h : ∀ recipes, ¬ Lists fields recipes) :
    ∃ cause, readAll source (.table fields) = .error (.recipe cause) := by
  cases hread : readAll source (.table fields) with
  | ok recipes => exact absurd (readAll_table_eq_ok_iff.mp hread) (h recipes)
  | error fault =>
    obtain ⟨cause, rfl⟩ := exists_recipeFault_of_readAll hread
    exact ⟨cause, rfl⟩

/-- What is no table is not refused for what it lists. -/
theorem readAll_of_not_table (h : value.kind ≠ .table) :
    readAll source value = .error .topNotTable := by
  cases value with
  | table => exact absurd rfl h
  | null | bool | int | decimal | text | list | dateTime | date | time => rfl

/-! ## 3. Files -/

theorem fileBytes_of_nul (h : Disk.hasNul location = true) :
    fileBytes disk location = .error .pathWithNul := by
  rw [fileBytes, h]
  rfl

theorem fileBytes_cases (h : Disk.hasNul location = false) :
    (∃ data, fileBytes disk location = .ok data) ∨
      ∃ cause, fileBytes disk location = .error (.file cause) := by
  rw [fileBytes, h, if_neg (by simp)]
  cases disk.find location with
  | ok tree =>
    cases tree with
    | file data => exact .inl ⟨data, rfl⟩
    | directory => exact .inr ⟨_, rfl⟩
  | error refusal => exact .inr ⟨_, rfl⟩

/-- The text of a TOML file is a table, if it is anything. -/
theorem kind_of_toml {text : String} (htoml : isJson location = false)
    (h : readText location text = .ok value) : value.kind = .table := by
  rw [readText, htoml, if_neg (by simp), map_eq_ok_iff] at h
  obtain ⟨read, hread, rfl⟩ := h
  obtain ⟨document, -, hread⟩ := bind_eq_ok_iff.mp hread
  rw [Value.kind_map, ← pure_eq_ok_iff.mp hread]
  rfl

theorem readText_eq_error_iff {text : String} {found : ReadFault} :
    readText location text = .error found ↔
      (isJson location = true ∧ Json.read text = .error found) ∨
        (isJson location = false ∧ Toml.read text = .error found) := by
  rw [readText]
  cases isJson location <;> simp [map_eq_error_iff]

/-- A file holds a value, is unreadable, or has a numeral or a nesting that is not read. -/
theorem fileValue_cases (location : Location) (data : ByteArray) :
    (∃ value, fileValue location data = .ok value ∧ (isJson location = false → value.kind = .table)) ∨
      fileValue location data = .error (.recipe (.unreadable location.text)) ∨
      fileValue location data = .error .numeralTooLong ∨
      fileValue location data = .error .nestedTooDeeply := by
  rw [fileValue]
  cases String.fromUTF8? data with
  | none => exact .inr (.inl rfl)
  | some text =>
    dsimp only
    cases hread : readText location text with
    | ok value => exact .inl ⟨value, rfl, fun htoml => kind_of_toml htoml hread⟩
    | error fault =>
      cases fault with
      | malformed => exact .inr (.inl rfl)
      | numeralTooLong => exact .inr (.inr (.inl rfl))
      | nestedTooDeeply => exact .inr (.inr (.inr rfl))

/-- A text that is not unreadable has a fault that its reader found. -/
theorem exists_text_of_fileValue (h : fileValue location data = .error fault)
    (hfault : fault ≠ .recipe (.unreadable location.text)) :
    ∃ text found, String.fromUTF8? data = some text ∧ readText location text = .error found ∧
      ((found = .numeralTooLong ∧ fault = .numeralTooLong) ∨
        (found = .nestedTooDeeply ∧ fault = .nestedTooDeeply)) := by
  rw [fileValue] at h
  cases htext : String.fromUTF8? data with
  | none =>
    rw [htext] at h
    exact absurd (Except.error.inj h).symm hfault
  | some text =>
    rw [htext] at h
    dsimp only at h
    cases hread : readText location text with
    | ok value =>
      rw [hread] at h
      cases h
    | error found =>
      rw [hread] at h
      refine ⟨text, found, rfl, hread, ?_⟩
      cases found with
      | malformed => exact absurd (Except.error.inj h).symm hfault
      | numeralTooLong => exact .inl ⟨rfl, (Except.error.inj h).symm⟩
      | nestedTooDeeply => exact .inr ⟨rfl, (Except.error.inj h).symm⟩

theorem exists_long_numeral (h : fileValue location data = .error .numeralTooLong) :
    ∃ text, String.fromUTF8? data = some text ∧ ¬ Scan.ShortNumerals text.toList := by
  obtain ⟨text, found, htext, hread, ⟨rfl, -⟩ | ⟨-, hfault⟩⟩ := exists_text_of_fileValue h (by simp)
  · refine ⟨text, htext, ?_⟩
    rcases readText_eq_error_iff.mp hread with ⟨-, hread⟩ | ⟨-, hread⟩
    · exact Json.not_shortNumerals_of_read hread
    · exact Toml.not_shortNumerals_of_read hread
  · cases hfault

theorem exists_opensMany (h : fileValue location data = .error .nestedTooDeeply) :
    ∃ text, String.fromUTF8? data = some text ∧ OpensMany location text := by
  obtain ⟨text, found, htext, hread, ⟨-, hfault⟩ | ⟨rfl, -⟩⟩ := exists_text_of_fileValue h (by simp)
  · cases hfault
  · refine ⟨text, htext, ?_⟩
    unfold OpensMany
    rcases readText_eq_error_iff.mp hread with ⟨hjson, hread⟩ | ⟨htoml, hread⟩
    · rw [if_pos hjson]
      exact Json.maxDepth_lt_of_read hread
    · rw [if_neg (by simp [htoml])]
      exact Toml.maxDepth_lt_of_read hread

/-! ## 4. Loading -/

theorem load_of_unread (h : fileBytes disk location = .error fault) :
    load disk location = .error fault := by
  rw [load, h]
  rfl

theorem load_of_refused (hbytes : fileBytes disk location = .ok data)
    (h : fileValue location data = .error fault) : load disk location = .error fault := by
  rw [load, hbytes]
  exact congrArg (· >>= fun value => readAll location.text value) h

theorem load_of_value (hbytes : fileBytes disk location = .ok data)
    (h : fileValue location data = .ok value) :
    load disk location = readAll location.text value := by
  rw [load, hbytes]
  exact congrArg (· >>= fun value => readAll location.text value) h

/-- Where a fault escapes, loading ends with it. -/
theorem load_of_escapes (h : Escapes disk location fault) : load disk location = .error fault := by
  cases h with
  | nul hnul => exact load_of_unread (fileBytes_of_nul hnul)
  | numeral hbytes hvalue => exact load_of_refused hbytes hvalue
  | nesting hbytes hvalue => exact load_of_refused hbytes hvalue
  | top _ hbytes hvalue htop => exact (load_of_value hbytes hvalue).trans (readAll_of_not_table htop)

theorem not_isAnswered_of_escapes (h : Escapes disk location fault) :
    ¬ IsAnswered (load disk location) := by
  rw [load_of_escapes h]
  cases h <;> exact id

/-- The ways in which loading a recipe file can end, each with what the file holds then. -/
inductive Outcome (disk : Disk) (location : Location) : Except Fault (List Recipe) → Prop where
  | escaped {fault : Fault} (hescapes : Escapes disk location fault) :
      Outcome disk location (.error fault)
  | unread {cause : FileFault} (hbytes : fileBytes disk location = .error (.file cause)) :
      Outcome disk location (.error (.file cause))
  | unreadable {data : ByteArray} (hbytes : fileBytes disk location = .ok data)
      (hvalue : fileValue location data = .error (.recipe (.unreadable location.text))) :
      Outcome disk location (.error (.recipe (.unreadable location.text)))
  | listed {data : ByteArray} {fields : Value.Fields CodePoints} {recipes : List Recipe}
      (hbytes : fileBytes disk location = .ok data)
      (hvalue : fileValue location data = .ok (.table fields)) (hlists : Lists fields recipes) :
      Outcome disk location (.ok recipes)
  | unlisted {data : ByteArray} {fields : Value.Fields CodePoints} {cause : RecipeFault}
      (hbytes : fileBytes disk location = .ok data)
      (hvalue : fileValue location data = .ok (.table fields))
      (hnone : ∀ recipes, ¬ Lists fields recipes) : Outcome disk location (.error (.recipe cause))

/-- A table gives the recipes that it lists, or is wrong. -/
theorem outcome_of_table (hbytes : fileBytes disk location = .ok data)
    (hvalue : fileValue location data = .ok (.table fields)) :
    Outcome disk location (load disk location) := by
  rw [load_of_value hbytes hvalue]
  by_cases hlists : ∃ recipes, Lists fields recipes
  · obtain ⟨recipes, hlists⟩ := hlists
    rw [readAll_table_eq_ok_iff.mpr hlists]
    exact .listed hbytes hvalue hlists
  · rw [not_exists] at hlists
    obtain ⟨cause, hread⟩ := exists_recipeFault_of_unlisted hlists
    rw [hread]
    exact .unlisted hbytes hvalue hlists

theorem outcome_of_escapes (h : Escapes disk location fault) :
    Outcome disk location (load disk location) := by
  rw [load_of_escapes h]
  exact .escaped h

/-- Loading a recipe file ends in one of these ways. -/
theorem load_outcome (disk : Disk) (location : Location) :
    Outcome disk location (load disk location) := by
  cases hnul : Disk.hasNul location with
  | true => exact outcome_of_escapes (.nul hnul)
  | false =>
    rcases fileBytes_cases hnul with ⟨data, hbytes⟩ | ⟨cause, hbytes⟩
    · rcases fileValue_cases location data with ⟨value, hvalue, htoml⟩ | hvalue | hvalue | hvalue
      · by_cases htop : value.kind = .table
        · cases value with
          | table fields => exact outcome_of_table hbytes hvalue
          | null | bool | int | decimal | text | list | dateTime | date | time => cases htop
        · have hjson : isJson location = true := by
            rw [← Bool.not_eq_false]
            exact mt htoml htop
          exact outcome_of_escapes (.top hjson hbytes hvalue htop)
      · rw [load_of_refused hbytes hvalue]
        exact .unreadable hbytes hvalue
      · exact outcome_of_escapes (.numeral hbytes hvalue)
      · exact outcome_of_escapes (.nesting hbytes hvalue)
    · rw [load_of_unread hbytes]
      exact .unread hbytes

/-- What is no answer has escaped. -/
theorem escapes_of_load (h : load disk location = .error fault)
    (hfault : ¬ IsAnswered (.error fault : Except Fault (List Recipe))) :
    Escapes disk location fault := by
  have houtcome := load_outcome disk location
  rw [h] at houtcome
  cases houtcome with
  | escaped hescapes => exact hescapes
  | unread | unreadable | unlisted => exact absurd trivial hfault

theorem load_eq_ok_iff : load disk location = .ok recipes ↔
    ∃ data fields, fileBytes disk location = .ok data ∧
      fileValue location data = .ok (.table fields) ∧ Lists fields recipes := by
  constructor
  · intro h
    have houtcome := load_outcome disk location
    rw [h] at houtcome
    cases houtcome with
    | listed hbytes hvalue hlists => exact ⟨_, _, hbytes, hvalue, hlists⟩
  · rintro ⟨data, fields, hbytes, hvalue, hlists⟩
    rw [load_of_value hbytes hvalue]
    exact readAll_table_eq_ok_iff.mpr hlists

theorem load_eq_file_iff {cause : FileFault} : load disk location = .error (.file cause) ↔
    fileBytes disk location = .error (.file cause) := by
  refine ⟨fun h => ?_, load_of_unread⟩
  have houtcome := load_outcome disk location
  rw [h] at houtcome
  cases houtcome with
  | escaped hescapes => cases hescapes
  | unread hbytes => exact hbytes

/-- A text that cannot be read, or a table that lists no recipes, is wrong. -/
theorem exists_load_eq_recipe_iff : (∃ cause, load disk location = .error (.recipe cause)) ↔
    ∃ data, fileBytes disk location = .ok data ∧
      (fileValue location data = .error (.recipe (.unreadable location.text)) ∨
        ∃ fields, fileValue location data = .ok (.table fields) ∧
          ∀ recipes, ¬ Lists fields recipes) := by
  constructor
  · rintro ⟨cause, h⟩
    have houtcome := load_outcome disk location
    rw [h] at houtcome
    cases houtcome with
    | escaped hescapes => cases hescapes
    | unreadable hbytes hvalue => exact ⟨_, hbytes, .inl hvalue⟩
    | unlisted hbytes hvalue hnone => exact ⟨_, hbytes, .inr ⟨_, hvalue, hnone⟩⟩
  · rintro ⟨data, hbytes, hvalue | ⟨fields, hvalue, hnone⟩⟩
    · exact ⟨_, load_of_refused hbytes hvalue⟩
    · obtain ⟨cause, hread⟩ := exists_recipeFault_of_unlisted hnone
      exact ⟨cause, (load_of_value hbytes hvalue).trans hread⟩

/-- What becomes of a recipe file. -/
structure Loads (disk : Disk) (location : Location) : Prop where
  /-- A list of recipes gives one recipe for each item, in order. -/
  loaded_iff : ∀ recipes, load disk location = .ok recipes ↔
    ∃ data fields, fileBytes disk location = .ok data ∧
      fileValue location data = .ok (.table fields) ∧ Lists fields recipes
  unread_iff : ∀ cause, load disk location = .error (.file cause) ↔
    fileBytes disk location = .error (.file cause)
  /-- A text that cannot be read, or a table that lists no recipes, is wrong. -/
  wrong_iff : (∃ cause, load disk location = .error (.recipe cause)) ↔
    ∃ data, fileBytes disk location = .ok data ∧
      (fileValue location data = .error (.recipe (.unreadable location.text)) ∨
        ∃ fields, fileValue location data = .ok (.table fields) ∧ ∀ recipes, ¬ Lists fields recipes)
  answered_iff : IsAnswered (load disk location) ↔ ∀ fault, ¬ Escapes disk location fault
  escapes : ∀ fault, Escapes disk location fault → load disk location = .error fault
  /-- Only a text that has one has a numeral that is too long. -/
  numeral : load disk location = .error .numeralTooLong → ∃ data text,
    fileBytes disk location = .ok data ∧ String.fromUTF8? data = some text ∧
      ¬ Scan.ShortNumerals text.toList
  /-- Only a text that opens many brackets has values that are nested too deeply. -/
  nesting : load disk location = .error .nestedTooDeeply → ∃ data text,
    fileBytes disk location = .ok data ∧ String.fromUTF8? data = some text ∧ OpensMany location text

/-- **A recipe file is read or refused unless a fault escapes**, and it is read exactly if it lists
recipes. -/
theorem load_answered (disk : Disk) (location : Location) : Loads disk location where
  loaded_iff _ := load_eq_ok_iff
  unread_iff _ := load_eq_file_iff
  wrong_iff := exists_load_eq_recipe_iff
  answered_iff := by
    refine ⟨fun h fault hescapes => not_isAnswered_of_escapes hescapes h, fun h => ?_⟩
    cases hload : load disk location with
    | ok recipes => trivial
    | error fault =>
      by_contra hfault
      exact h fault (escapes_of_load hload hfault)
  escapes _ := load_of_escapes
  numeral h := by
    cases escapes_of_load h (by simp [IsAnswered]) with
    | numeral hbytes hvalue =>
      obtain ⟨text, htext, hlong⟩ := exists_long_numeral hvalue
      exact ⟨_, text, hbytes, htext, hlong⟩
  nesting h := by
    cases escapes_of_load h (by simp [IsAnswered]) with
    | nesting hbytes hvalue =>
      obtain ⟨text, htext, hmany⟩ := exists_opensMany hvalue
      exact ⟨_, text, hbytes, htext, hmany⟩

/-- A JSON file whose top is an empty list. -/
def listFile : Disk where
  top := .directory [("book.json", .file "[]".toUTF8)]
  workingDirectory := []
  home := "home"

theorem not_load_answered : ¬ IsAnswered (load listFile ⟨"", ["book.json"]⟩) := by
  have hjson : isJson ⟨"", ["book.json"]⟩ = true := by decide +kernel
  have hbytes : fileBytes listFile ⟨"", ["book.json"]⟩ = .ok "[]".toUTF8 := rfl
  have hvalue : fileValue ⟨"", ["book.json"]⟩ "[]".toUTF8 = .ok (.list []) := by
    have htext : String.fromUTF8? "[]".toUTF8 = some "[]" := by decide
    have hread : Json.read "[]" = .ok (.list []) := rfl
    simp only [fileValue, readText, htext, hjson, if_true, hread]
  exact not_isAnswered_of_escapes (.top hjson hbytes hvalue (by decide))

end Bindery.Recipe
