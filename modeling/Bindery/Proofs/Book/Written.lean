/-
# Books are read as they were written

A book that is written as the body of a recipe and read again is the same book, if all its texts are texts
that XML allows and every manifest path names a file.  Each field is found under the key it was written
under, since no table has a key twice; a field that was left out is read as missing.  The proof follows the
writing: the fields first, then each part of a book, then the book (`Book.ofValue_toValue`).
-/
import Bindery.Proofs.Book.Legal

namespace Bindery

open Value

/-! ## 1. Fields -/

namespace Value.Fields

@[simp] theorem get?_nil (key : String) : Fields.get? [] key = none := rfl

@[simp] theorem get?_cons (name : String) (value : Value) (fields : Fields) (key : String) :
    Fields.get? ((name, value) :: fields) key = if key = name then some value else fields.get? key := by
  rw [get?, List.lookup_cons]
  by_cases h : key = name
  · simp [h]
  · rw [beq_eq_false_iff_ne.mpr h, if_neg h]
    rfl

@[simp] theorem get?_append (fields more : Fields) (key : String) :
    Fields.get? (fields ++ more) key = (fields.get? key).or (more.get? key) :=
  List.lookup_append

@[simp] theorem get?_optionalField (name : String) (text : Option String) (key : String) :
    Fields.get? (optionalField name text) key =
      if key = name then text.map Value.text else none := by
  cases text <;> simp [optionalField, textField]

@[simp] theorem get?_optionalListField {α : Type} (write : α → Value) (name : String)
    (items : Option (List α)) (key : String) :
    Fields.get? (optionalListField write name items) key =
      if key = name then items.map fun items => .list (items.map write) else none := by
  cases items <;> simp [optionalListField]

end Value.Fields

section Fields

variable {fields : Fields} {place : Place} {key : String}

theorem asText_text {text : String} (h : Xml.isLegalText text = true) :
    (Value.text text).asText place = .ok text := by
  have hnone : Xml.illegal? text = none := by
    simpa [Xml.illegal?, Xml.isLegalText] using h
  rw [asText, hnone]

theorem requiredText_eq_ok {text : String} (h : fields.get? key = some (.text text))
    (hlegal : Xml.isLegalText text = true) : fields.requiredText place key = .ok text := by
  rw [Fields.requiredText, h]
  exact asText_text hlegal

theorem optionalText_eq_ok {text : Option String} (h : fields.get? key = text.map Value.text)
    (hlegal : AllLegal text.toList) : fields.optionalText place key = .ok text := by
  cases text with
  | none =>
    rw [Fields.optionalText, Fields.present?, h]
    rfl
  | some text =>
    rw [Fields.optionalText, Fields.present?, h]
    show ((Value.text text).asText _).map some = .ok (some text)
    rw [asText_text (by simpa using hlegal)]
    rfl

theorem optionalBool_eq_ok {mark : Option Bool} (h : fields.get? key = mark.map Value.bool) :
    fields.optionalBool place key = .ok mark := by
  rw [Fields.optionalBool, Fields.present?, h]
  cases mark <;> rfl

theorem optionalList_eq_ok {items : Option (List Value)} (h : fields.get? key = items.map .list) :
    fields.optionalList key = .ok items := by
  rw [Fields.optionalList, Fields.present?, h]
  cases items <;> rfl

end Fields

/-! ## 2. Lists -/

/-- The items of a list are read in order, if each is read wherever it stands. -/
theorem readItems_eq_ok {α β : Type} {read : Place → α → Except Fault β} {place : Place}
    {items : List α} {values : List β}
    (h : List.Forall₂ (fun item value => ∀ place, read place item = .ok value) items values) :
    readItems read place items = .ok values := by
  have hindexed : ∀ start, List.Forall₂
      (fun pair value => read (.item place pair.2) pair.1 = .ok value) (items.zipIdx start) values := by
    induction h with
    | nil => exact fun _ => .nil
    | cons hitem _ ih => exact fun start => .cons (hitem _) (ih (start + 1))
  exact mapM_eq_ok_iff.mpr (hindexed 0)

/-- Values that are written one by one are read one by one. -/
theorem readItems_map {α β : Type} {read : Place → α → Except Fault β} {write : β → α}
    {place : Place} {values : List β}
    (h : ∀ value ∈ values, ∀ place, read place (write value) = .ok value) :
    readItems read place (values.map write) = .ok values := by
  refine readItems_eq_ok ((List.forall₂_map_left_iff).mpr ?_)
  exact List.forall₂_same.mpr h

/-- Values of a list that may be left out are read one by one, if it was not. -/
theorem readOptional_map {α β : Type} {read : Place → α → Except Fault β} {write : β → α}
    {values : Option (List β)} (key : String)
    (h : ∀ value ∈ values.getD [], ∀ place, read place (write value) = .ok value) :
    readOptional read key (values.map fun values => values.map write) = .ok values := by
  cases values with
  | none => rfl
  | some values =>
    rw [Option.getD_some] at h
    rw [Option.map_some, readOptional, readItems_map h]
    rfl

/-- A value is written as a table from which it is read. -/
def WrittenAsTable {α : Type} (read : Place → Fields → Except Fault α) (write : α → Value)
    (value : α) : Prop :=
  ∃ fields, write value = .table fields ∧ ∀ place, read place fields = .ok value

/-- Values that are written as tables give tables from which they are read. -/
theorem exists_tables {α : Type} {read : Place → Fields → Except Fault α} {write : α → Value}
    {values : List α} (h : ∀ value ∈ values, WrittenAsTable read write value) :
    ∃ tables : List Fields, values.map write = tables.map Value.table ∧
      List.Forall₂ (fun table value => ∀ place, read place table = .ok value) tables values := by
  induction values with
  | nil => exact ⟨[], rfl, .nil⟩
  | cons value rest ih =>
    obtain ⟨hvalue, hrest⟩ := List.forall_mem_cons.mp h
    obtain ⟨fields, hwrite, hread⟩ := hvalue
    obtain ⟨tables, htables, hall⟩ := ih hrest
    exact ⟨fields :: tables, by rw [List.map_cons, List.map_cons, hwrite, htables], .cons hread hall⟩

/-- **A list of tables is read as it was written**, and so is one that was left out. -/
theorem optionalTables_written {α : Type} {read : Place → Fields → Except Fault α}
    {write : α → Value} {fields : Fields} {key : String} (values : Option (List α))
    (hget : fields.get? key = values.map fun values => .list (values.map write))
    (h : ∀ value ∈ values.getD [], WrittenAsTable read write value) :
    ∃ tables, fields.optionalTables key = .ok tables ∧ readOptional read key tables = .ok values := by
  cases values with
  | none =>
    have hlist : fields.optionalList key = .ok none := optionalList_eq_ok hget
    refine ⟨none, ?_, rfl⟩
    rw [Fields.optionalTables, hlist]
    rfl
  | some values =>
    rw [Option.getD_some] at h
    obtain ⟨tables, htables, hread⟩ := exists_tables h
    have hlist : fields.optionalList key = .ok (some (values.map write)) := optionalList_eq_ok hget
    have hitems : readItems asTable (.top key) (tables.map Value.table) = .ok tables :=
      readItems_map fun _ _ _ => rfl
    refine ⟨some tables, ?_, ?_⟩
    · rw [Fields.optionalTables, hlist]
      show (readItems asTable (.top key) (values.map write) >>= fun tables => pure (some tables)) = _
      rw [htables, hitems]
      rfl
    · rw [readOptional, readItems_eq_ok hread]
      rfl

/-! ## 3. Names -/

theorem DublinCore.ofName?_name (element : DublinCore) :
    DublinCore.ofName? element.name = some element := by
  cases element <;> rfl

theorem PageKind.ofName?_name (kind : PageKind) : PageKind.ofName? kind.name = some kind := by
  cases kind <;> rfl

theorem DublinCore.legal_name (element : DublinCore) : Xml.isLegalText element.name = true := by
  cases element <;> decide

theorem PageKind.legal_name (kind : PageKind) : Xml.isLegalText kind.name = true := by
  cases kind <;> decide

/-! ## 4. Container, metadata and files -/

theorem Rootfile.written {rootfile : Rootfile}
    (h : AllLegal [rootfile.path, rootfile.mediaType]) :
    WrittenAsTable Rootfile.read Rootfile.toValue rootfile := by
  simp only [allLegal_cons] at h
  refine ⟨_, rfl, fun place => ?_⟩
  rw [Rootfile.read, requiredText_eq_ok (by simp [textField]) h.1,
    requiredText_eq_ok (by simp [textField]) h.2.1]
  rfl

theorem Metadatum.written {item : Metadatum} (h : AllLegal item.texts) :
    WrittenAsTable Metadatum.read Metadatum.toValue item := by
  cases item with
  | custom name content =>
    simp only [Metadatum.texts, allLegal_cons] at h
    refine ⟨_, rfl, fun place => ?_⟩
    rw [Metadatum.read, if_pos (by simp [textField]),
      requiredText_eq_ok (by simp [textField]) h.1,
      requiredText_eq_ok (by simp [textField]) h.2.1]
    rfl
  | core statement =>
    simp only [Metadatum.texts, given_cons, given_nil, allLegal_cons, allLegal_append] at h
    obtain ⟨hcontent, hid, hscheme, hfileAs, hrole, hevent, hlang, -⟩ := h
    refine ⟨_, rfl, fun place => ?_⟩
    rw [Metadatum.read, if_neg (by simp [textField]),
      requiredText_eq_ok (by simp [textField]) statement.element.legal_name]
    refine bind_eq_ok_iff.mpr ⟨_, rfl, ?_⟩
    rw [DublinCore.ofName?_name]
    dsimp only
    rw [requiredText_eq_ok (by simp [textField]) hcontent,
      optionalText_eq_ok (by simp [textField]) hid,
      optionalText_eq_ok (by simp [textField]) hscheme,
      optionalText_eq_ok (by simp [textField]) hfileAs,
      optionalText_eq_ok (by simp [textField]) hrole,
      optionalText_eq_ok (by simp [textField]) hevent,
      optionalText_eq_ok (by simp [textField]) hlang]
    rfl

theorem ManifestItem.written {item : ManifestItem} (h : AllLegal item.texts)
    (hpath : EntryPath.normalize item.path ≠ "") :
    WrittenAsTable ManifestItem.read ManifestItem.toValue item := by
  simp only [ManifestItem.texts, given_cons, given_nil, allLegal_cons, allLegal_append] at h
  obtain ⟨⟨hsource, hinside, hmediaType, hid, -⟩, hfallback, hstyle, hnamespace, hmodules, -⟩ := h
  refine ⟨_, rfl, fun place => ?_⟩
  rw [ManifestItem.read, requiredText_eq_ok (by simp [textField]) hinside]
  refine bind_eq_ok_iff.mpr ⟨_, rfl, ?_⟩
  rw [if_neg hpath, requiredText_eq_ok (by simp [textField]) hsource,
    requiredText_eq_ok (by simp [textField]) hmediaType,
    requiredText_eq_ok (by simp [textField]) hid,
    optionalText_eq_ok (by simp [textField]) hfallback,
    optionalText_eq_ok (by simp [textField]) hstyle,
    optionalText_eq_ok (by simp [textField]) hnamespace,
    optionalText_eq_ok (by simp [textField]) hmodules]
  rfl

theorem ExtraFile.written {file : ExtraFile} (h : AllLegal [file.source, file.path]) :
    WrittenAsTable ExtraFile.read ExtraFile.toValue file := by
  simp only [allLegal_cons] at h
  refine ⟨_, rfl, fun place => ?_⟩
  rw [ExtraFile.read, requiredText_eq_ok (by simp [textField]) h.1,
    requiredText_eq_ok (by simp [textField]) h.2.1]
  rfl

/-! ## 5. Reading order and guide -/

theorem SpineItem.read_toValue {item : SpineItem} (h : AllLegal item.texts) (place : Place) :
    SpineItem.read place item.toValue = .ok item := by
  cases item with
  | bare idref => rfl
  | marked idref linear =>
    simp only [SpineItem.texts, allLegal_cons] at h
    have hlinear : Fields.get? (linear.map fun mark => ("linear", Value.bool mark)).toList "linear" =
        linear.map Value.bool := by
      cases linear <;> simp
    rw [SpineItem.toValue, SpineItem.read]
    · refine bind_eq_ok_iff.mpr ⟨_, rfl, ?_⟩
      rw [requiredText_eq_ok (by simp [textField]) h.1,
        optionalBool_eq_ok (by simpa [textField] using hlinear)]
      rfl
    · intro idref h
      cases h

theorem GuideReference.written {reference : GuideReference} (h : AllLegal reference.texts) :
    WrittenAsTable GuideReference.read GuideReference.toValue reference := by
  simp only [GuideReference.texts, given_cons, given_nil, allLegal_cons, allLegal_append] at h
  obtain ⟨⟨htype, hidref, -⟩, htitle, hfragment, -⟩ := h
  refine ⟨_, rfl, fun place => ?_⟩
  rw [GuideReference.read, requiredText_eq_ok (by simp [textField]) htype,
    requiredText_eq_ok (by simp [textField]) hidref,
    optionalText_eq_ok (by simp [textField]) htitle,
    optionalText_eq_ok (by simp [textField]) hfragment]
  rfl

theorem NavigationFile.read_toValue {file : NavigationFile} (h : AllLegal (given [file.id, file.path])) :
    NavigationFile.read file.toValue = .ok file := by
  simp only [given_cons, given_nil, allLegal_append] at h
  refine bind_eq_ok_iff.mpr ⟨_, rfl, ?_⟩
  rw [optionalText_eq_ok (by simp) h.1, optionalText_eq_ok (by simp) h.2.1]
  rfl

/-! ## 6. Labels -/

theorem NavLabel.read_toValue {label : NavLabel} (h : AllLegal (label.text :: label.lang.toList))
    (place : Place) : NavLabel.read place label.toValue = .ok label := by
  rw [allLegal_cons] at h
  refine bind_eq_ok_iff.mpr ⟨_, rfl, ?_⟩
  rw [requiredText_eq_ok (by simp [textField]) h.1, optionalText_eq_ok (by simp [textField]) h.2]
  rfl

/-- A label is read from every table that has its field and not the other one. -/
theorem Label.read_written {label : Label} {fields : Fields} (h : AllLegal label.texts)
    (hone : fields.get? "label" = Fields.get? [label.toField] "label")
    (hmany : fields.get? "labels" = Fields.get? [label.toField] "labels") (place : Place) :
    Label.read place fields = .ok label := by
  cases label with
  | simple content =>
    replace hone : fields.get? "label" = some (.text content) := by
      simpa [Label.toField, textField] using hone
    replace hmany : fields.get? "labels" = none := by
      simpa [Label.toField, textField] using hmany
    simp only [Label.texts, Label.labels, List.flatMap_cons, List.flatMap_nil, List.append_nil,
      allLegal_cons] at h
    rw [Label.read, hone, hmany]
    dsimp only
    rw [requiredText_eq_ok hone h.1]
    rfl
  | several first rest =>
    replace hone : fields.get? "label" = none := by
      simpa [Label.toField] using hone
    replace hmany : fields.get? "labels" =
        some (.list ((first :: rest).map NavLabel.toValue)) := by
      simpa [Label.toField] using hmany
    have hlabels : readItems NavLabel.read (.field place "labels")
        ((first :: rest).map NavLabel.toValue) = .ok (first :: rest) :=
      readItems_map fun label hlabel => NavLabel.read_toValue (allLegal_flatMap.mp h label hlabel)
    rw [Label.read, hone, hmany]
    refine bind_eq_ok_iff.mpr ⟨_, rfl, bind_eq_ok_iff.mpr ⟨_, hlabels, rfl⟩⟩

/-- The field of a label has one of two keys. -/
theorem Label.toField_fst (label : Label) :
    label.toField.1 = "label" ∨ label.toField.1 = "labels" := by
  cases label
  · exact .inl rfl
  · exact .inr rfl

/-- The field of a label is none of the other fields of a target. -/
theorem Label.get?_toField {label : Label} {key : String} (hone : key ≠ "label")
    (hmany : key ≠ "labels") : Fields.get? [label.toField] key = none := by
  have hne : key ≠ label.toField.1 := by
    rcases label.toField_fst with h | h
    · exact h ▸ hone
    · exact h ▸ hmany
  rw [Fields.get?_cons, if_neg hne, Fields.get?_nil]

theorem Label.get?_toField_cons (label : Label) (fields : Fields) (key : String) :
    Fields.get? (label.toField :: fields) key =
      (Fields.get? [label.toField] key).or (fields.get? key) :=
  Fields.get?_append [label.toField] fields key

/-! ## 7. Table of contents -/

theorem get?_targetFields (label : Label) (idref : String) (fragment : Option String) (key : String) :
    Fields.get? (targetFields label idref fragment) key =
      (Fields.get? [label.toField] key).or
        (if key = "idref" then some (.text idref)
          else if key = "fragment" then fragment.map Value.text else none) := by
  have hfields : targetFields label idref fragment =
      label.toField :: textField "idref" idref :: optionalField "fragment" fragment := rfl
  rw [hfields, Label.get?_toField_cons, textField, Fields.get?_cons "idref",
    Fields.get?_optionalField]

theorem NavPoint.read_written {point : NavPoint} {more : Fields}
    (h : AllLegal (targetTexts point.label point.idref point.fragment))
    (hmore : more.get? "label" = none ∧ more.get? "labels" = none ∧ more.get? "idref" = none ∧
      more.get? "fragment" = none) (place : Place) :
    NavPoint.read place (targetFields point.label point.idref point.fragment ++ more) =
      .ok point := by
  simp only [targetTexts, allLegal_append, allLegal_cons] at h
  obtain ⟨hlabel, hidref, hfragment⟩ := h
  rw [NavPoint.read, Label.read_written hlabel (by simp [get?_targetFields, hmore])
    (by simp [get?_targetFields, hmore])]
  refine bind_eq_ok_iff.mpr ⟨_, rfl, ?_⟩
  rw [requiredText_eq_ok (by simp [get?_targetFields, Label.get?_toField]) hidref,
    optionalText_eq_ok (by simp [get?_targetFields, Label.get?_toField, hmore]) hfragment]
  rfl

namespace NavTree

/-- The entries below an entry are those of its field `children`. -/
theorem readChildren_eq (place : Place) : ∀ fields : Fields,
    readChildren place fields =
      match fields.get? "children" with
      | none => .ok []
      | some value => readBelow place value
  | [] => rfl
  | (key, value) :: rest => by
    rw [readChildren, Fields.get?_cons]
    by_cases h : key = "children"
    · rw [if_pos h, if_pos h.symm]
    · rw [if_neg h, if_neg (Ne.symm h)]
      exact readChildren_eq place rest

mutual

/-- **A tree is read as it was written.** -/
theorem read_toValue : ∀ {tree : NavTree}, AllLegal (textsAll [tree]) → ∀ place,
    read place tree.toValue = .ok tree
  | .node point children, h, place => by
    rw [textsAll_node, allLegal_append, allLegal_append] at h
    obtain ⟨hpoint, hchildren, -⟩ := h
    have hbelow : readChildren place (targetFields point.label point.idref point.fragment ++
        [("children", .list (allToValues children))]) = .ok children := by
      rw [readChildren_eq, Fields.get?_append, get?_targetFields,
        Label.get?_toField (by decide) (by decide)]
      exact readForest_allToValues hchildren _ 0
    rw [toValue, read, hbelow]
    refine bind_eq_ok_iff.mpr ⟨_, rfl, ?_⟩
    rw [NavPoint.read_written hpoint (by simp)]
    rfl

/-- **A forest is read as it was written.** -/
theorem readForest_allToValues : ∀ {forest : List NavTree}, AllLegal (textsAll forest) →
    ∀ place index, readForest place index (allToValues forest) = .ok forest
  | [], _, _, _ => rfl
  | tree :: rest, h, place, index => by
    rw [textsAll_cons, allLegal_append] at h
    rw [allToValues, readForest, read_toValue h.1, readForest_allToValues h.2]
    rfl

end

end NavTree

/-! ## 8. Pages and lists -/

theorem PageTarget.written {page : PageTarget} (h : AllLegal page.texts) :
    WrittenAsTable PageTarget.read PageTarget.toValue page := by
  simp only [PageTarget.texts, targetTexts, allLegal_cons, allLegal_append] at h
  obtain ⟨⟨hid, hvalue⟩, hlabel, hidref, hfragment⟩ := h
  refine ⟨_, rfl, fun place => ?_⟩
  have hnumber : ∀ fields : Fields, fields.get? "value" = page.value.map Value.text →
      PageTarget.readValue place fields = .ok page.value := by
    intro fields hget
    rw [PageTarget.readValue, Fields.present?, hget]
    cases hpage : page.value with
    | none => rfl
    | some text =>
      rw [hpage] at hvalue
      show ((Value.text text).asText _).map some = .ok (some text)
      rw [asText_text (by simpa using hvalue)]
      rfl
  rw [PageTarget.read, requiredText_eq_ok (by simp [textField]) page.kind.legal_name]
  refine bind_eq_ok_iff.mpr ⟨_, rfl, ?_⟩
  rw [PageKind.ofName?_name]
  dsimp only
  rw [hnumber _ (by simp [textField, get?_targetFields, Label.get?_toField]),
    Label.read_written hlabel (by simp [textField, get?_targetFields])
      (by simp [textField, get?_targetFields])]
  refine bind_eq_ok_iff.mpr ⟨_, rfl, bind_eq_ok_iff.mpr ⟨_, rfl, ?_⟩⟩
  rw [requiredText_eq_ok (by simp [textField]) hid,
    requiredText_eq_ok (by simp [textField, get?_targetFields, Label.get?_toField]) hidref,
    optionalText_eq_ok (by simp [textField, get?_targetFields, Label.get?_toField]) hfragment]
  rfl

theorem NavTarget.read_toValue {target : NavTarget}
    (h : AllLegal (targetTexts target.label target.idref target.fragment)) (place : Place) :
    NavTarget.read place target.toValue = .ok target := by
  simp only [targetTexts, allLegal_cons, allLegal_append] at h
  obtain ⟨hlabel, hidref, hfragment⟩ := h
  refine bind_eq_ok_iff.mpr ⟨_, rfl, ?_⟩
  rw [Label.read_written hlabel (by simp [get?_targetFields]) (by simp [get?_targetFields])]
  refine bind_eq_ok_iff.mpr ⟨_, rfl, ?_⟩
  rw [requiredText_eq_ok (by simp [get?_targetFields, Label.get?_toField]) hidref,
    optionalText_eq_ok (by simp [get?_targetFields, Label.get?_toField]) hfragment]
  rfl

theorem NavList.written {navList : NavList} (h : AllLegal navList.texts) :
    WrittenAsTable NavList.read NavList.toValue navList := by
  rw [NavList.texts, allLegal_append, allLegal_flatMap] at h
  obtain ⟨hlabel, htargets⟩ := h
  refine ⟨_, rfl, fun place => ?_⟩
  have hlist : Fields.get? [navList.label.toField, ("list", .list (navList.targets.map
      NavTarget.toValue))] "list" = some (.list (navList.targets.map NavTarget.toValue)) := by
    simp [Label.get?_toField_cons _ [_], Label.get?_toField]
  have hread : readItems NavTarget.read (.field place "list")
      (navList.targets.map NavTarget.toValue) = .ok navList.targets :=
    readItems_map fun target htarget => NavTarget.read_toValue (htargets target htarget)
  rw [NavList.read, hlist]
  refine bind_eq_ok_iff.mpr ⟨_, rfl, bind_eq_ok_iff.mpr ⟨_, hread, ?_⟩⟩
  rw [Label.read_written hlabel (by simp [Label.get?_toField_cons _ [_]])
    (by simp [Label.get?_toField_cons _ [_]])]
  rfl

/-! ## 9. The book -/

theorem readItems_of_readOptional {α β : Type} {read : Place → α → Except Fault β} {key : String}
    {items : Option (List α)} {values : Option (List β)}
    (h : readOptional read key items = .ok values) :
    readItems read (.top key) (items.getD []) = .ok (values.getD []) := by
  unfold readOptional at h
  split at h
  · cases h
    rfl
  · obtain ⟨list, hlist, rfl⟩ := map_eq_ok_iff.mp h
    exact hlist

/-- The entries that a table of contents gives are those of its field; an empty one has none. -/
def contentsValues : List NavTree → Option (List Value)
  | [] => none
  | tree :: rest => some (NavTree.allToValues (tree :: rest))

theorem get?_contentsField (forest : List NavTree) (key : String) :
    Fields.get? (contentsField forest) key =
      if key = "navmap" then (contentsValues forest).map Value.list else none := by
  cases forest <;> simp [contentsField, contentsValues]

theorem readForest_contentsValues {forest : List NavTree} (h : AllLegal (NavTree.textsAll forest))
    (place : Place) :
    NavTree.readForest place 0 ((contentsValues forest).getD []) = .ok forest := by
  cases forest with
  | nil => rfl
  | cons tree rest => exact NavTree.readForest_allToValues h place 0

theorem get?_navigationFile (file : Option NavigationFile) (key : String) :
    Fields.get? (file.map fun file => ("ncx_meta", file.toValue)).toList key =
      if key = "ncx_meta" then file.map NavigationFile.toValue else none := by
  cases file <;> simp

/-- What is said about the navigation document is read as it was written. -/
theorem mapM_navigationFile {fields : Fields} {file : Option NavigationFile}
    (hget : fields.get? "ncx_meta" = file.map NavigationFile.toValue)
    (h : AllLegal ((file.map fun file => given [file.id, file.path]).getD [])) :
    (fields.present? "ncx_meta").mapM NavigationFile.read = .ok file := by
  rw [Fields.present?, hget]
  cases file with
  | none => rfl
  | some file =>
    show (some file.toValue).mapM NavigationFile.read = .ok (some file)
    rw [Option.mapM_some, NavigationFile.read_toValue h]
    rfl

/-- Each part of a book stands in some fields under its own key. -/
structure Book.StandsIn (book : Book) (fields : Fields) : Prop where
  manifest : fields.get? "manifest" = some (.list (book.manifest.map ManifestItem.toValue))
  rootfiles : fields.get? "rootfiles" =
    book.rootfiles.map fun items => .list (items.map Rootfile.toValue)
  metadata : fields.get? "metadata" =
    book.metadata.map fun items => .list (items.map Metadatum.toValue)
  spine : fields.get? "spine" = book.spine.map fun items => .list (items.map SpineItem.toValue)
  guide : fields.get? "guide" =
    book.guide.map fun items => .list (items.map GuideReference.toValue)
  navigationFile : fields.get? "ncx_meta" = book.navigationFile.map NavigationFile.toValue
  contents : fields.get? "navmap" = (contentsValues book.contents).map Value.list
  pages : fields.get? "pagelist" = book.pages.map fun items => .list (items.map PageTarget.toValue)
  navLists : fields.get? "navlists" =
    book.navLists.map fun items => .list (items.map NavList.toValue)
  extraFiles : fields.get? "nonmanifest_files" =
    some (.list (book.extraFiles.map ExtraFile.toValue))

theorem Book.exists_standsIn (book : Book) :
    ∃ fields : Fields, book.toValue = .table fields ∧ book.StandsIn fields := by
  refine ⟨_, rfl, ?_⟩
  constructor <;> simp [get?_contentsField, get?_navigationFile]

/-- **A book is read as it was written.** -/
theorem Book.ofValue_toValue {book : Book} (h : book.WellFormed) :
    Book.ofValue book.toValue = .ok book := by
  have hparts := h.legalParts
  obtain ⟨fields, hfields, hstands⟩ := book.exists_standsIn
  obtain ⟨rootfiles, hrootfileTables, hrootfiles⟩ := optionalTables_written
    book.rootfiles hstands.rootfiles fun file hfile => Rootfile.written (hparts.rootfiles file hfile)
  obtain ⟨metadata, hmetadataTables, hmetadata⟩ := optionalTables_written
    book.metadata hstands.metadata fun item hitem => Metadatum.written (hparts.metadata item hitem)
  obtain ⟨guide, hguideTables, hguide⟩ := optionalTables_written
    book.guide hstands.guide fun item hitem => GuideReference.written (hparts.guide item hitem)
  obtain ⟨pages, hpageTables, hpages⟩ := optionalTables_written
    book.pages hstands.pages fun page hpage => PageTarget.written (hparts.pages page hpage)
  obtain ⟨navLists, hnavListTables, hnavLists⟩ := optionalTables_written
    book.navLists hstands.navLists fun list hlist => NavList.written (hparts.navLists list hlist)
  obtain ⟨extraFiles, hextraTables, hextraFiles⟩ := optionalTables_written
    (some book.extraFiles) hstands.extraFiles
    fun file hfile => ExtraFile.written (hparts.extraFiles file hfile)
  obtain ⟨manifest, hmanifestTables, hmanifest⟩ := optionalTables_written
    (some book.manifest) hstands.manifest
    fun item hitem => ManifestItem.written (hparts.items item hitem) (h.paths_name_files item hitem)
  have hspineItems : fields.optionalList "spine" =
      .ok (book.spine.map fun items => items.map SpineItem.toValue) :=
    optionalList_eq_ok (by simpa [Function.comp_def] using hstands.spine)
  have hspine := readOptional_map "spine"
    fun item hitem => SpineItem.read_toValue (hparts.spine item hitem)
  have hcontentsItems : fields.optionalList "navmap" = .ok (contentsValues book.contents) :=
    optionalList_eq_ok hstands.contents
  have hfile := mapM_navigationFile hstands.navigationFile hparts.navigationFile
  have hcontents := readForest_contentsValues hparts.contents (.top "navmap")
  rw [hfields, Book.ofValue]
  refine bind_eq_ok_iff.mpr ⟨fields, rfl, ?_⟩
  rw [if_neg (by simp [hstands.manifest])]
  simp only [bind_eq_ok_iff, pure_eq_ok_iff]
  exact ⟨rootfiles, hrootfileTables, metadata, hmetadataTables, guide, hguideTables, pages,
    hpageTables, navLists, hnavListTables, extraFiles, hextraTables, _, hspineItems, _,
    hcontentsItems, _, hfile, manifest, hmanifestTables, _, readItems_of_readOptional hmanifest,
    _, hrootfiles, _, hmetadata, _, hspine, _, hguide, _, hcontents, _, hpages, _, hnavLists, _,
    readItems_of_readOptional hextraFiles, rfl⟩

end Bindery
