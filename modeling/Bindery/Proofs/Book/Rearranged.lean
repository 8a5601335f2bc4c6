/-
# Recipes in another order are books in another order

What is read from an item of a recipe does not hang on the place of the item, which only the messages
name (`IsPlaceFree`).  So a list with the same items in another order is read as the same values in
that order (`exists_readItems_of_perm`), and a rearranged recipe as a rearranged book
(`Book.exists_ofValue_of_rearranged`).
-/
import Mathlib.Data.List.Perm.Basic
import Bindery.Book.Reading
import Bindery.Book.Rearranged
import Bindery.Proofs.Success

namespace Bindery

open Value

/-! ## 1. Readings that agree -/

/-- Two readings give the same values; their faults may differ. -/
def Agree {α : Type} (x y : Except Fault α) : Prop := ∀ a, x = .ok a ↔ y = .ok a

namespace Agree

variable {α β : Type} {x y : Except Fault α}

theorem refl (x : Except Fault α) : Agree x x := fun _ => .rfl

theorem error (fault other : Fault) : Agree (.error fault : Except Fault α) (.error other) := by
  simp [Agree]

theorem bind {f g : α → Except Fault β} (h : Agree x y) (hnext : ∀ a, Agree (f a) (g a)) :
    Agree (x >>= f) (y >>= g) := by
  intro b
  simp only [bind_eq_ok_iff, h _, hnext _ b]

theorem map (h : Agree x y) (f : α → β) : Agree (x.map f) (y.map f) := by
  intro b
  simp only [map_eq_ok_iff, h _]

end Agree

/-- What is read does not hang on the place that the messages name. -/
def IsPlaceFree {α β : Type} (read : Place → α → Except Fault β) : Prop :=
  ∀ place other item, Agree (read place item) (read other item)

/-! ## 2. Fields -/

theorem placeFree_asTable : IsPlaceFree asTable := by
  intro place other value
  cases value with
  | table fields => exact .refl _
  | _ => exact .error _ _

theorem placeFree_asList : IsPlaceFree asList := by
  intro place other value
  cases value with
  | list items => exact .refl _
  | _ => exact .error _ _

theorem placeFree_asText : IsPlaceFree asText := by
  intro place other value
  cases value with
  | text s =>
    simp only [asText]
    split
    · exact .error _ _
    · exact .refl _
  | _ => exact .error _ _

section Fields

variable (fields : Fields) (place other : Place) (key : String)

theorem agree_requiredText :
    Agree (fields.requiredText place key) (fields.requiredText other key) := by
  unfold Fields.requiredText
  split
  · exact .error _ _
  · exact placeFree_asText _ _ _

theorem agree_optionalText :
    Agree (fields.optionalText place key) (fields.optionalText other key) := by
  unfold Fields.optionalText
  split
  · exact .refl _
  · exact (placeFree_asText _ _ _).map some

theorem agree_optionalBool :
    Agree (fields.optionalBool place key) (fields.optionalBool other key) := by
  unfold Fields.optionalBool
  split
  · exact .refl _
  · exact .refl _
  · exact .error _ _

end Fields

/-! ## 3. Lists -/

theorem symm_of_rel {α : Type} {items others : Option (List α)}
    (h : Option.Rel List.Perm items others) : Option.Rel List.Perm others items := by
  cases h with
  | none => exact .none
  | some hperm => exact .some hperm.symm

/-- A list that is left out counts as empty. -/
theorem getD_perm_of_rel {α : Type} {items others : Option (List α)}
    (h : Option.Rel List.Perm items others) : (items.getD []).Perm (others.getD []) := by
  cases h with
  | none => exact .refl _
  | some hperm => exact hperm

section Lists

variable {α β : Type} {read : Place → α → Except Fault β} {place other : Place}
  {items others : List α} {values : List β}

/-- A list is read item by item, from whatever place. -/
theorem readItems_eq_ok_iff (h : IsPlaceFree read) (anywhere : Place) :
    readItems read place items = .ok values ↔
      List.Forall₂ (fun item value => read anywhere item = .ok value) items values := by
  rw [readItems, mapM_eq_ok_iff]
  conv_rhs => rw [← List.zipIdx_map_fst 0 items, List.forall₂_map_left_iff]
  exact ⟨fun hall => hall.imp fun _ value => (h _ _ _ value).mp,
    fun hall => hall.imp fun _ value => (h _ _ _ value).mpr⟩

theorem placeFree_readItems (h : IsPlaceFree read) : IsPlaceFree (readItems read) := by
  intro place other items values
  rw [readItems_eq_ok_iff h place, readItems_eq_ok_iff h place]

/-- **The same items in another order are read as the same values in that order.** -/
theorem exists_readItems_of_perm (h : IsPlaceFree read) (hperm : items.Perm others)
    (hread : readItems read place items = .ok values) :
    ∃ values', readItems read place others = .ok values' ∧ values.Perm values' := by
  have hall := (readItems_eq_ok_iff h place).mp hread
  obtain ⟨values', hall', hvalues⟩ := List.perm_comp_forall₂ hperm.symm hall
  exact ⟨values', (readItems_eq_ok_iff h place).mpr hall', hvalues.symm⟩

theorem exists_readOptional_of_rel {key : String} {items others : Option (List α)}
    {values : Option (List β)} (h : IsPlaceFree read) (hrel : Option.Rel List.Perm items others)
    (hread : readOptional read key items = .ok values) :
    ∃ values', readOptional read key others = .ok values' ∧ Option.Rel List.Perm values values' := by
  cases hrel with
  | none =>
    cases hread
    exact ⟨none, rfl, .none⟩
  | some hperm =>
    obtain ⟨list, hlist, rfl⟩ := map_eq_ok_iff.mp hread
    obtain ⟨list', hlist', hvalues⟩ := exists_readItems_of_perm h hperm hlist
    exact ⟨some list', map_eq_ok_iff.mpr ⟨list', hlist', rfl⟩, .some hvalues⟩

end Lists

/-! ## 4. Parts of a book -/

theorem Metadatum.placeFree_read : IsPlaceFree Metadatum.read := by
  intro place other fields
  unfold Metadatum.read
  split
  · exact (agree_requiredText _ _ _ _).bind fun name =>
      (agree_requiredText _ _ _ _).bind fun content => .refl _
  · refine (agree_requiredText _ _ _ _).bind fun name => ?_
    split
    · exact .error _ _
    · exact (agree_requiredText _ _ _ _).bind fun content =>
        (agree_optionalText _ _ _ _).bind fun id =>
        (agree_optionalText _ _ _ _).bind fun scheme =>
        (agree_optionalText _ _ _ _).bind fun fileAs =>
        (agree_optionalText _ _ _ _).bind fun role =>
        (agree_optionalText _ _ _ _).bind fun event =>
        (agree_optionalText _ _ _ _).bind fun lang => .refl _

theorem ManifestItem.placeFree_read : IsPlaceFree ManifestItem.read := by
  intro place other fields
  unfold ManifestItem.read
  refine (agree_requiredText _ _ _ _).bind fun path => ?_
  split
  · exact .error _ _
  · exact (agree_requiredText _ _ _ _).bind fun source =>
      (agree_requiredText _ _ _ _).bind fun mediaType =>
      (agree_requiredText _ _ _ _).bind fun id =>
      (agree_optionalText _ _ _ _).bind fun fallback =>
      (agree_optionalText _ _ _ _).bind fun fallbackStyle =>
      (agree_optionalText _ _ _ _).bind fun requiredNamespace =>
      (agree_optionalText _ _ _ _).bind fun requiredModules => .refl _

theorem ExtraFile.placeFree_read : IsPlaceFree ExtraFile.read := fun _ _ _ =>
  (agree_requiredText _ _ _ _).bind fun _ => (agree_requiredText _ _ _ _).bind fun _ => .refl _

theorem SpineItem.placeFree_read : IsPlaceFree SpineItem.read := by
  intro place other value
  unfold SpineItem.read
  split
  · exact .refl _
  · exact (placeFree_asTable _ _ _).bind fun fields =>
      (agree_requiredText _ _ _ _).bind fun idref =>
      (agree_optionalBool _ _ _ _).bind fun linear => .refl _

theorem GuideReference.placeFree_read : IsPlaceFree GuideReference.read := fun _ _ _ =>
  (agree_requiredText _ _ _ _).bind fun _ => (agree_requiredText _ _ _ _).bind fun _ =>
  (agree_optionalText _ _ _ _).bind fun _ => (agree_optionalText _ _ _ _).bind fun _ => .refl _

theorem NavLabel.placeFree_read : IsPlaceFree NavLabel.read := fun _ _ _ =>
  (placeFree_asTable _ _ _).bind fun _ => (agree_requiredText _ _ _ _).bind fun _ =>
  (agree_optionalText _ _ _ _).bind fun _ => .refl _

theorem Label.placeFree_read : IsPlaceFree Label.read := by
  intro place other fields
  unfold Label.read
  split
  · exact .error _ _
  · exact (agree_requiredText _ _ _ _).map _
  · refine (placeFree_asList _ _ _).bind fun items =>
      (placeFree_readItems NavLabel.placeFree_read _ _ _).bind fun labels => ?_
    split
    · exact .error _ _
    · exact .refl _
  · exact .error _ _

theorem PageTarget.agree_readValue (fields : Fields) (place other : Place) :
    Agree (PageTarget.readValue place fields) (PageTarget.readValue other fields) := by
  unfold PageTarget.readValue
  split
  · exact .refl _
  · exact .refl _
  · exact (placeFree_asText _ _ _).map some
  · exact .error _ _

theorem PageTarget.placeFree_read : IsPlaceFree PageTarget.read := by
  intro place other fields
  unfold PageTarget.read
  refine (agree_requiredText _ _ _ _).bind fun kindName => ?_
  split
  · exact .error _ _
  · exact (PageTarget.agree_readValue _ _ _).bind fun value =>
      (Label.placeFree_read _ _ _).bind fun label =>
      (agree_requiredText _ _ _ _).bind fun id =>
      (agree_requiredText _ _ _ _).bind fun idref =>
      (agree_optionalText _ _ _ _).bind fun fragment => .refl _

theorem NavTarget.placeFree_read : IsPlaceFree NavTarget.read := fun _ _ _ =>
  (placeFree_asTable _ _ _).bind fun _ => (Label.placeFree_read _ _ _).bind fun _ =>
  (agree_requiredText _ _ _ _).bind fun _ => (agree_optionalText _ _ _ _).bind fun _ => .refl _

theorem NavList.placeFree_read : IsPlaceFree NavList.read := by
  intro place other fields
  unfold NavList.read
  split
  · exact .error _ _
  · exact (placeFree_asList _ _ _).bind fun items =>
      (placeFree_readItems NavTarget.placeFree_read _ _ _).bind fun targets =>
      (Label.placeFree_read _ _ _).bind fun label => .refl _

/-! ## 5. The book -/

section Book

variable {fields others : Fields} {key : String}

theorem isNone_of_rel (h : fields.get? key = others.get? key ∨
    Option.Rel SameItems (fields.get? key) (others.get? key)) :
    (fields.get? key).isNone = (others.get? key).isNone := by
  rcases h with heq | hrel
  · rw [heq]
  · revert hrel
    generalize fields.get? key = value, others.get? key = value'
    intro hrel
    cases hrel <;> rfl

/-- A list of a rearranged recipe has the items of the list. -/
theorem exists_optionalList_of_rel {items : Option (List Value)}
    (h : fields.get? key = others.get? key ∨
      Option.Rel SameItems (fields.get? key) (others.get? key))
    (hlist : fields.optionalList key = .ok items) :
    ∃ items', others.optionalList key = .ok items' ∧ Option.Rel List.Perm items items' := by
  rcases h with heq | hrel
  · rw [Fields.optionalList, Fields.present?, heq] at hlist
    refine ⟨items, hlist, ?_⟩
    cases items with
    | none => exact .none
    | some items => exact .some (.refl items)
  · rw [Fields.optionalList, Fields.present?] at hlist ⊢
    revert hlist hrel
    generalize fields.get? key = value, others.get? key = value'
    intro hlist hrel
    cases hrel with
    | none =>
      cases hlist
      exact ⟨none, rfl, .none⟩
    | some hsame =>
      obtain ⟨hperm⟩ := hsame
      cases hlist
      exact ⟨_, rfl, .some hperm⟩

theorem exists_optionalTables_of_rel {tables : Option (List Fields)}
    (h : fields.get? key = others.get? key ∨
      Option.Rel SameItems (fields.get? key) (others.get? key))
    (htables : fields.optionalTables key = .ok tables) :
    ∃ tables', others.optionalTables key = .ok tables' ∧ Option.Rel List.Perm tables tables' := by
  obtain ⟨items, hlist, htables⟩ := bind_eq_ok_iff.mp htables
  obtain ⟨items', hlist', hrel⟩ := exists_optionalList_of_rel h hlist
  cases hrel with
  | none =>
    cases htables
    exact ⟨none, bind_eq_ok_iff.mpr ⟨none, hlist', rfl⟩, .none⟩
  | some hperm =>
    obtain ⟨list, hread, htables⟩ := bind_eq_ok_iff.mp htables
    cases htables
    obtain ⟨list', hread', hlists⟩ := exists_readItems_of_perm placeFree_asTable hperm hread
    exact ⟨some list', bind_eq_ok_iff.mpr ⟨_, hlist', bind_eq_ok_iff.mpr ⟨_, hread', rfl⟩⟩,
      .some hlists⟩

/-- **A list of tables in a rearranged recipe** is read as the same values in its order. -/
theorem exists_tables_of_rel {α : Type} {read : Place → Fields → Except Fault α}
    {tables : Option (List Fields)} {values : Option (List α)} (hfree : IsPlaceFree read)
    (h : fields.get? key = others.get? key ∨
      Option.Rel SameItems (fields.get? key) (others.get? key))
    (htables : fields.optionalTables key = .ok tables)
    (hvalues : readOptional read key tables = .ok values) :
    ∃ tables' values', others.optionalTables key = .ok tables' ∧
      readOptional read key tables' = .ok values' ∧ Option.Rel List.Perm values values' := by
  obtain ⟨tables', htables', hrel⟩ := exists_optionalTables_of_rel h htables
  obtain ⟨values', hvalues', hperm⟩ := exists_readOptional_of_rel hfree hrel hvalues
  exact ⟨tables', values', htables', hvalues', hperm⟩

/-- The same for a list that counts as empty when it is left out. -/
theorem exists_items_of_rel {α : Type} {read : Place → Fields → Except Fault α}
    {tables : Option (List Fields)} {values : List α} (hfree : IsPlaceFree read)
    (h : fields.get? key = others.get? key ∨
      Option.Rel SameItems (fields.get? key) (others.get? key))
    (htables : fields.optionalTables key = .ok tables)
    (hvalues : readItems read (.top key) (tables.getD []) = .ok values) :
    ∃ tables' values', others.optionalTables key = .ok tables' ∧
      readItems read (.top key) (tables'.getD []) = .ok values' ∧ values.Perm values' := by
  obtain ⟨tables', htables', hrel⟩ := exists_optionalTables_of_rel h htables
  obtain ⟨values', hvalues', hperm⟩ :=
    exists_readItems_of_perm hfree (getD_perm_of_rel hrel) hvalues
  exact ⟨tables', values', htables', hvalues', hperm⟩

/-- **A rearranged recipe is read as a rearranged book.** -/
theorem Book.exists_ofValue_of_rearranged {body other : Value} {book : Book}
    (h : body.Rearranged other) (hbook : Book.ofValue body = .ok book) :
    ∃ book', Book.ofValue other = .ok book' ∧ book.Rearranged book' := by
  obtain ⟨hkeys⟩ := h
  rename_i fields others
  have hlists : ∀ key, fields.get? key = others.get? key ∨
      Option.Rel SameItems (fields.get? key) (others.get? key) := fun key =>
    (hkeys key).imp_right And.right
  have hsame : ∀ key ∉ Book.listFields, fields.get? key = others.get? key := fun key hkey =>
    (hkeys key).resolve_right fun hlist => hkey hlist.1
  obtain ⟨_, hfields, hbook⟩ := bind_eq_ok_iff.mp hbook
  cases hfields
  split at hbook
  · cases hbook
  rename_i hsome
  simp only [bind_eq_ok_iff, pure_eq_ok_iff] at hbook
  obtain ⟨rootfileTables, hrootfileTables, metadataTables, hmetadataTables, guideTables,
    hguideTables, pageTables, hpageTables, navListTables, hnavListTables, extraTables, hextraTables,
    spineItems, hspineItems, contentsItems, hcontentsItems, navigationFile, hnavigationFile,
    manifestTables, hmanifestTables, manifest, hmanifest, rootfiles, hrootfiles, metadata, hmetadata,
    spine, hspine, guide, hguide, contents, hcontents, pages, hpages, navLists, hnavLists,
    extraFiles, hextraFiles, rfl⟩ := hbook
  -- The fields whose order counts are the same.
  rw [Fields.optionalTables, Fields.optionalList, Fields.present?, hsame _ (by decide)]
    at hrootfileTables
  rw [Fields.optionalList, Fields.present?, hsame _ (by decide)] at hcontentsItems
  rw [Fields.present?, hsame _ (by decide)] at hnavigationFile
  -- The others give the same items.
  obtain ⟨_, manifest', hmanifestTables', hmanifest', hmanifestPerm⟩ :=
    exists_items_of_rel ManifestItem.placeFree_read (hlists _) hmanifestTables hmanifest
  obtain ⟨_, extraFiles', hextraTables', hextraFiles', hextraPerm⟩ :=
    exists_items_of_rel ExtraFile.placeFree_read (hlists _) hextraTables hextraFiles
  obtain ⟨_, metadata', hmetadataTables', hmetadata', hmetadataRel⟩ :=
    exists_tables_of_rel Metadatum.placeFree_read (hlists _) hmetadataTables hmetadata
  obtain ⟨_, guide', hguideTables', hguide', hguideRel⟩ :=
    exists_tables_of_rel GuideReference.placeFree_read (hlists _) hguideTables hguide
  obtain ⟨_, pages', hpageTables', hpages', hpagesRel⟩ :=
    exists_tables_of_rel PageTarget.placeFree_read (hlists _) hpageTables hpages
  obtain ⟨_, navLists', hnavListTables', hnavLists', hnavListsRel⟩ :=
    exists_tables_of_rel NavList.placeFree_read (hlists _) hnavListTables hnavLists
  obtain ⟨_, hspineItems', hspineItemsRel⟩ := exists_optionalList_of_rel (hlists _) hspineItems
  obtain ⟨spine', hspine', hspineRel⟩ :=
    exists_readOptional_of_rel SpineItem.placeFree_read hspineItemsRel hspine
  refine ⟨⟨manifest', rootfiles, metadata', spine', guide', navigationFile, contents, pages',
    navLists', extraFiles'⟩, ?_, ?_⟩
  · refine bind_eq_ok_iff.mpr ⟨others, rfl, ?_⟩
    rw [if_neg (isNone_of_rel (hlists _) ▸ hsome)]
    simp only [bind_eq_ok_iff, pure_eq_ok_iff]
    exact ⟨_, hrootfileTables, _, hmetadataTables', _, hguideTables', _, hpageTables', _,
      hnavListTables', _, hextraTables', _, hspineItems', _, hcontentsItems, _, hnavigationFile, _,
      hmanifestTables', _, hmanifest', _, hrootfiles, _, hmetadata', _, hspine', _, hguide', _,
      hcontents, _, hpages', _, hnavLists', _, hextraFiles', rfl⟩
  · exact {
      manifest := hmanifestPerm
      extraFiles := hextraPerm
      metadata := hmetadataRel
      spine := hspineRel
      guide := hguideRel
      pages := hpagesRel
      navLists := hnavListsRel
      rootfiles := rfl
      navigationFile := rfl
      contents := rfl }

end Book

end Bindery
