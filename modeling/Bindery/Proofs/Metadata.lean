/-
# What metadata have once they are complete

Complete metadata have a title, and an identifier with an id that is not empty: the unique identifier
(`exists_title_resolve`, `exists_unique_resolve`).  Their ids are those of the recipe, or those and one
that was made up (`writtenIds_resolve`).  They hold no text that is not one of the recipe's, one of the
environment's or a default, so if all these are legal, all texts of the metadata are (`legal_resolve`).
-/
import Bindery.Metadata
import Bindery.Proofs.Book.Legal

namespace Bindery

open Xml

/-! ## 1. The statements of complete metadata -/

namespace Metadata

variable {environment : Environment} {freshId : String} {element : DublinCore}
  {items : List Metadatum} {statement : Statement}

theorem statement?_eq_some_iff {item : Metadatum} :
    statement? element item = some statement ↔
      item = .core statement ∧ statement.element = element := by
  cases item with
  | custom => simp [statement?]
  | core other =>
    by_cases h : other.element = element
    · simp only [statement?, if_pos h, Option.some.injEq, Metadatum.core.injEq]
      exact ⟨fun heq => ⟨heq, heq ▸ h⟩, And.left⟩
    · rw [statement?, if_neg h]
      constructor
      · intro heq
        cases heq
      · rintro ⟨heq, helement⟩
        cases heq
        exact absurd helement h

theorem mem_of_first? (h : first? element items = some statement) :
    .core statement ∈ items ∧ statement.element = element := by
  obtain ⟨item, hitem, hstatement⟩ := List.exists_of_findSome?_eq_some h
  obtain ⟨rfl, helement⟩ := statement?_eq_some_iff.mp hstatement
  exact ⟨hitem, helement⟩

theorem identified?_eq_some_iff {item : Metadatum} :
    identified? item = some statement ↔ item = .core statement ∧
      statement.element = .identifier ∧ ∃ id, statement.id = some id ∧ id ≠ "" := by
  rw [identified?, Option.filter_eq_some_iff, statement?_eq_some_iff, and_assoc]
  refine and_congr_right fun _ => and_congr_right fun _ => ?_
  cases statement.id <;> simp

/-- Completing metadata takes no statement away. -/
theorem first?_completedBy_isSome (other : Statement) (h : (first? element items).isSome = true) :
    (first? element (completedBy items other)).isSome = true := by
  unfold completedBy
  split
  · rw [first?, List.findSome?_append]
    simp only [first?] at h
    simp [h]
  · exact h

theorem first?_completedBy_self (items : List Metadatum) (h : statement.element = element) :
    (first? element (completedBy items statement)).isSome = true := by
  subst h
  unfold completedBy
  split
  · rw [first?, List.findSome?_append]
    simp [statement?]
  · rename_i hsome
    exact Option.isSome_iff_ne_none.mpr (by simpa using hsome)

/-- The items of the recipe, completed by the statements that a package cannot do without. -/
def completed (environment : Environment) (freshId : String) (items : List Metadatum) :
    List Metadatum :=
  (required environment freshId).foldl completedBy items

theorem mem_completedBy {item : Metadatum} (h : item ∈ items) :
    item ∈ completedBy items statement := by
  unfold completedBy
  split
  · exact List.mem_append_left _ h
  · exact h

theorem mem_of_mem_completedBy {item : Metadatum} (h : item ∈ completedBy items statement) :
    item ∈ items ∨ item = .core statement := by
  unfold completedBy at h
  split at h
  · simpa using h
  · exact .inl h

/-- Complete metadata hold items of the recipe and statements that a package cannot do without. -/
theorem mem_of_mem_completed {item : Metadatum} (h : item ∈ completed environment freshId items) :
    item ∈ items ∨ ∃ statement ∈ required environment freshId, item = .core statement := by
  rcases mem_of_mem_completedBy h with h | rfl
  · rcases mem_of_mem_completedBy h with h | rfl
    · rcases mem_of_mem_completedBy h with h | rfl
      · exact .inl h
      · exact .inr ⟨_, List.mem_cons_self, rfl⟩
    · exact .inr ⟨_, List.mem_cons_of_mem _ List.mem_cons_self, rfl⟩
  · exact .inr ⟨_, List.mem_cons_of_mem _ (List.mem_cons_of_mem _ List.mem_cons_self), rfl⟩

theorem first?_title_completed (items : List Metadatum) :
    (first? .title (completed environment freshId items)).isSome = true :=
  first?_completedBy_isSome _ (first?_completedBy_isSome _ (first?_completedBy_self items rfl))

theorem first?_identifier_completed (items : List Metadatum) :
    (first? .identifier (completed environment freshId items)).isSome = true :=
  first?_completedBy_isSome _ (first?_completedBy_self _ rfl)

/-! ## 2. The unique identifier -/

theorem giveId_cons (id : String) (item : Metadatum) (rest : List Metadatum) :
    giveId id (item :: rest) =
      match statement? .identifier item with
      | some statement => .core { statement with id := some id } :: rest
      | none => item :: giveId id rest := rfl

theorem first?_giveId (id : String) (h : element ≠ .identifier) : ∀ items : List Metadatum,
    first? element (giveId id items) = first? element items
  | [] => rfl
  | item :: rest => by
    have ih := first?_giveId id h rest
    rw [giveId_cons]
    split
    · rename_i statement hstatement
      obtain ⟨rfl, helement⟩ := statement?_eq_some_iff.mp hstatement
      have hne : statement.element ≠ element := by
        rw [helement]
        exact h.symm
      simp [first?, statement?, hne]
    · simp only [first?, List.findSome?_cons] at ih ⊢
      rw [ih]

/-- Among items with an identifier, one has an id once it is given. -/
theorem findSome?_giveId {id : String} (hid : id ≠ "") : ∀ {items : List Metadatum},
    (first? .identifier items).isSome = true →
      ((giveId id items).findSome? identified?).isSome = true
  | [], h => by simp [first?] at h
  | item :: rest, h => by
    rw [giveId_cons]
    split
    · rename_i statement hstatement
      obtain ⟨-, helement⟩ := statement?_eq_some_iff.mp hstatement
      have hidentified : identified? (.core { statement with id := some id }) =
          some { statement with id := some id } :=
        identified?_eq_some_iff.mpr ⟨rfl, helement, id, rfl, hid⟩
      rw [List.findSome?_cons, hidentified]
      rfl
    · rename_i hnone
      rw [first?, List.findSome?_cons, hnone] at h
      rw [List.findSome?_cons]
      split
      · rfl
      · exact findSome?_giveId hid h

variable {recipe : Option (List Metadatum)}

theorem items_resolve : (resolve environment freshId recipe).items =
    if ((completed environment freshId (recipe.getD [])).findSome? identified?).isSome then
      completed environment freshId (recipe.getD [])
    else giveId freshId (completed environment freshId (recipe.getD [])) := rfl

theorem title_eq_of_first? (h : first? .title (resolve environment freshId recipe).items = some statement) :
    (resolve environment freshId recipe).title = statement.content := by
  have htitle : (resolve environment freshId recipe).title =
      ((first? .title (resolve environment freshId recipe).items).map (·.content)).getD
        defaultTitle := rfl
  rw [htitle, h]
  rfl

/-- The unique identifier is the first identifier with an id. -/
theorem unique_of_identified
    (h : (resolve environment freshId recipe).items.findSome? identified? = some statement) :
    statement.id = some (resolve environment freshId recipe).uniqueId ∧
      (resolve environment freshId recipe).identifier = statement.content := by
  obtain ⟨item, -, hitem⟩ := List.exists_of_findSome?_eq_some h
  obtain ⟨-, -, id, hid, -⟩ := identified?_eq_some_iff.mp hitem
  have hunique : (resolve environment freshId recipe).uniqueId =
      ((((resolve environment freshId recipe).items.findSome? identified?).or
        (first? .identifier (resolve environment freshId recipe).items)).bind (·.id)).getD
          freshId := rfl
  have hcontent : (resolve environment freshId recipe).identifier =
      ((((resolve environment freshId recipe).items.findSome? identified?).or
        (first? .identifier (resolve environment freshId recipe).items)).map (·.content)).getD
          environment.uuid := rfl
  constructor
  · rw [hunique, h, Option.some_or, Option.bind_some, hid]
    rfl
  · rw [hcontent, h, Option.some_or, Option.map_some]
    rfl

/-- **Complete metadata have a title.** -/
theorem exists_title_resolve : ∃ statement,
    first? .title (resolve environment freshId recipe).items = some statement ∧
      (resolve environment freshId recipe).title = statement.content := by
  have hsome : (first? .title (resolve environment freshId recipe).items).isSome = true := by
    rw [items_resolve]
    split
    · exact first?_title_completed _
    · rw [first?_giveId _ (by decide)]
      exact first?_title_completed _
  obtain ⟨statement, hstatement⟩ := Option.isSome_iff_exists.mp hsome
  exact ⟨statement, hstatement, title_eq_of_first? hstatement⟩

/-- **Complete metadata have a unique identifier**: the first identifier with an id. -/
theorem exists_unique_resolve (hfresh : freshId ≠ "") : ∃ statement,
    (resolve environment freshId recipe).items.findSome? identified? = some statement ∧
      statement.id = some (resolve environment freshId recipe).uniqueId ∧
      (resolve environment freshId recipe).identifier = statement.content := by
  have hsome : ((resolve environment freshId recipe).items.findSome? identified?).isSome = true := by
    rw [items_resolve]
    split
    · assumption
    · exact findSome?_giveId hfresh (first?_identifier_completed _)
  obtain ⟨statement, hstatement⟩ := Option.isSome_iff_exists.mp hsome
  exact ⟨statement, hstatement, unique_of_identified hstatement⟩

/-- What complete metadata say of their title and their unique identifier, their items say. -/
theorem resolve_eq_of_items {other : Environment} {otherId : String} {others : Option (List Metadatum)}
    (hfresh : freshId ≠ "")
    (h : (resolve other otherId others).items = (resolve environment freshId recipe).items) :
    resolve other otherId others = resolve environment freshId recipe := by
  obtain ⟨unique, hunique, hid, hcontent⟩ := @exists_unique_resolve environment freshId recipe hfresh
  obtain ⟨title, htitle, hname⟩ := @exists_title_resolve environment freshId recipe
  obtain ⟨hid', hcontent'⟩ := unique_of_identified (h ▸ hunique)
  have hname' := title_eq_of_first? (h ▸ htitle)
  rw [hid, Option.some.injEq] at hid'
  rw [← hcontent] at hcontent'
  rw [← hname] at hname'
  cases hother : resolve other otherId others
  cases hresolve : resolve environment freshId recipe
  rw [hother, hresolve] at h hid' hcontent' hname'
  exact congr (congr (congr (congrArg Metadata.mk h) hid'.symm) hcontent') hname'

/-! ## 3. The ids of complete metadata -/

/-- The id with which an item is written; an empty id is left out. -/
def writtenId? : Metadatum → Option String
  | .core statement => statement.id.filter (· ≠ "")
  | .custom _ _ => none

/-- An identifier that does not count as identified is written without an id. -/
theorem writtenId?_of_not_identified (h : identified? (.core statement) = none)
    (helement : statement.element = .identifier) : writtenId? (.core statement) = none := by
  rw [writtenId?, Option.filter_eq_none_iff]
  intro id hid hne
  have hidentified : identified? (.core statement) = some statement :=
    identified?_eq_some_iff.mpr ⟨rfl, helement, id, hid, by simpa using hne⟩
  rw [h] at hidentified
  cases hidentified

/-- A statement without an id brings none. -/
theorem writtenIds_completedBy (h : writtenId? (.core statement) = none) (items : List Metadatum) :
    (completedBy items statement).filterMap writtenId? = items.filterMap writtenId? := by
  unfold completedBy
  split
  · rw [List.filterMap_append, List.filterMap_cons_none h, List.filterMap_nil, List.append_nil]
  · rfl

/-- The identifier that is given an id had none, so the id comes in addition. -/
theorem writtenIds_giveId {id : String} (hid : id ≠ "") : ∀ {items : List Metadatum},
    (∀ item ∈ items, identified? item = none) → (first? .identifier items).isSome = true →
      ((giveId id items).filterMap writtenId?).Perm (id :: items.filterMap writtenId?)
  | [], _, h => by simp [first?] at h
  | item :: rest, hnone, h => by
    rw [List.forall_mem_cons] at hnone
    rw [giveId_cons]
    split
    · rename_i statement hstatement
      obtain ⟨rfl, helement⟩ := statement?_eq_some_iff.mp hstatement
      have hgiven : writtenId? (.core { statement with id := some id }) = some id := by
        simp [writtenId?, hid]
      rw [List.filterMap_cons_some hgiven,
        List.filterMap_cons_none (writtenId?_of_not_identified hnone.1 helement)]
    · rename_i hother
      rw [first?, List.findSome?_cons, hother] at h
      have ih := writtenIds_giveId hid hnone.2 h
      cases hwritten : writtenId? item with
      | none => rwa [List.filterMap_cons_none hwritten, List.filterMap_cons_none hwritten]
      | some written =>
        rw [List.filterMap_cons_some hwritten, List.filterMap_cons_some hwritten]
        exact (ih.cons written).trans (.swap _ _ _)

/-- Completing adds no id, or the fresh one together with the identifier that bears it. -/
theorem writtenIds_completed (environment : Environment) (hfresh : freshId ≠ "")
    (items : List Metadatum) :
    (completed environment freshId items).filterMap writtenId? = items.filterMap writtenId? ∨
      ((completed environment freshId items).findSome? identified?).isSome = true ∧
        ((completed environment freshId items).filterMap writtenId?).Perm
          (freshId :: items.filterMap writtenId?) := by
  obtain ⟨title, unique, language, hrequired, htitle, helement, hid, hlanguage⟩ :
      ∃ title unique language, required environment freshId = [title, unique, language] ∧
        writtenId? (.core title) = none ∧ unique.element = .identifier ∧
        unique.id = some freshId ∧ writtenId? (.core language) = none :=
    ⟨_, _, _, rfl, rfl, rfl, rfl, rfl⟩
  have hcompleted : completed environment freshId items =
      completedBy (completedBy (completedBy items title) unique) language := by
    rw [completed, hrequired]
    rfl
  -- Of the three statements only the identifier has an id; the other two change nothing here.
  rw [hcompleted, writtenIds_completedBy hlanguage, ← writtenIds_completedBy htitle items]
  generalize completedBy items title = titled
  by_cases hpresent : (first? unique.element titled).isNone = true
  · have hunique : completedBy titled unique = titled ++ [.core unique] := if_pos hpresent
    have hwritten : writtenId? (.core unique) = some freshId := by
      simp [writtenId?, hid, hfresh]
    have hidentified : identified? (.core unique) = some unique :=
      identified?_eq_some_iff.mpr ⟨rfl, helement, freshId, hid, hfresh⟩
    refine .inr ⟨?_, ?_⟩
    · have hmem : Metadatum.core unique ∈ completedBy titled unique := by simp [hunique]
      rw [List.findSome?_isSome_iff]
      exact ⟨_, mem_completedBy hmem, by rw [hidentified]; rfl⟩
    · rw [hunique, List.filterMap_append, List.filterMap_cons_some hwritten, List.filterMap_nil]
      exact List.perm_append_singleton _ _
  · exact .inl (by rw [completedBy, if_neg hpresent])

/-- **The ids of complete metadata** are those of the recipe, or those and the fresh one. -/
theorem writtenIds_resolve (hfresh : freshId ≠ "") :
    ((resolve environment freshId recipe).items.filterMap writtenId?).Perm
        ((recipe.getD []).filterMap writtenId?) ∨
      ((resolve environment freshId recipe).items.filterMap writtenId?).Perm
        (freshId :: (recipe.getD []).filterMap writtenId?) := by
  rw [items_resolve]
  rcases writtenIds_completed environment hfresh (recipe.getD []) with
    hsame | ⟨hidentified, hperm⟩
  · split
    · exact .inl (by rw [hsame])
    · rename_i hnone
      rw [← hsame]
      refine .inr (writtenIds_giveId hfresh ?_ (first?_identifier_completed _))
      rwa [Option.isSome_iff_ne_none, not_not, List.findSome?_eq_none_iff] at hnone
  · exact .inr (by rwa [if_pos hidentified])

end Metadata

/-! ## 4. Legal metadata -/

namespace Environment

/-- An environment whose texts XML allows. -/
structure Legal (environment : Environment) : Prop where
  uuid : isLegalText environment.uuid = true
  language : AllLegal environment.language.toList

/-- A language tag holds what the language of the user holds, but hyphens. -/
theorem Legal.languageTag {environment : Environment} (h : environment.Legal) :
    isLegalText environment.languageTag = true := by
  have hlanguage := h.language
  unfold Environment.languageTag
  split
  · rfl
  · rename_i language heq
    rw [heq] at hlanguage
    split
    · rfl
    · rw [isLegalText_iff, String.toList_ofList]
      intro c hc
      obtain ⟨original, horiginal, rfl⟩ := List.mem_map.mp hc
      split
      · rfl
      · exact isLegalText_iff.mp (hlanguage language (by simp)) original
          ((List.takeWhile_sublist _).subset horiginal)

end Environment

namespace Metadata

variable {environment : Environment} {freshId : String} {recipe : Option (List Metadatum)}

theorem legal_completed (henvironment : environment.Legal) (hfresh : isLegalText freshId = true)
    {items : List Metadatum} (h : ∀ item ∈ items, AllLegal item.texts) :
    ∀ item ∈ completed environment freshId items, AllLegal item.texts := by
  have htitle : isLegalText defaultTitle = true := by decide
  have hscheme : isLegalText "UUID" = true := by decide
  intro item hitem
  rcases mem_of_mem_completed hitem with hitem | ⟨statement, hstatement, rfl⟩
  · exact h item hitem
  · simp only [required, List.mem_cons, List.not_mem_nil, or_false] at hstatement
    rcases hstatement with rfl | rfl | rfl
    · simpa [Metadatum.texts] using htitle
    · simpa [Metadatum.texts] using ⟨henvironment.uuid, hfresh, hscheme⟩
    · simpa [Metadatum.texts] using henvironment.languageTag

theorem legal_giveId {id : String} (hid : isLegalText id = true) : ∀ {items : List Metadatum},
    (∀ item ∈ items, AllLegal item.texts) → ∀ item ∈ giveId id items, AllLegal item.texts
  | [], h => h
  | item :: rest, h => by
    obtain ⟨hitem, hrest⟩ := List.forall_mem_cons.mp h
    rw [giveId_cons]
    split
    · rename_i statement hstatement
      obtain ⟨rfl, -⟩ := statement?_eq_some_iff.mp hstatement
      refine List.forall_mem_cons.mpr ⟨?_, hrest⟩
      simp only [Metadatum.texts, given_cons, given_nil, allLegal_cons, allLegal_append,
        Option.toList_some, allLegal_nil] at hitem ⊢
      exact ⟨hitem.1, ⟨hid, trivial⟩, hitem.2.2⟩
    · exact List.forall_mem_cons.mpr ⟨hitem, legal_giveId hid hrest⟩

/-- **All texts of complete metadata are legal** if those that they are made from are. -/
theorem legal_resolve (henvironment : environment.Legal) (hfresh : isLegalText freshId = true)
    (h : ∀ item ∈ recipe.getD [], AllLegal item.texts) :
    ∀ item ∈ (resolve environment freshId recipe).items, AllLegal item.texts := by
  have hcompleted := legal_completed henvironment hfresh h
  rw [items_resolve]
  split
  · exact hcompleted
  · exact legal_giveId hfresh hcompleted

/-- The title of complete metadata comes from the recipe or is the default. -/
theorem legal_title (h : ∀ item ∈ recipe.getD [], AllLegal item.texts) :
    isLegalText (resolve environment freshId recipe).title = true := by
  obtain ⟨statement, hstatement, htitle⟩ := @exists_title_resolve environment freshId recipe
  have hfirst : first? .title (completed environment freshId (recipe.getD [])) = some statement := by
    rw [items_resolve] at hstatement
    split at hstatement
    · exact hstatement
    · rwa [first?_giveId _ (by decide)] at hstatement
  obtain ⟨hmem, helement⟩ := mem_of_first? hfirst
  rw [htitle]
  rcases mem_of_mem_completed hmem with hmem | ⟨other, hother, heq⟩
  · exact h _ hmem _ (by simp [Metadatum.texts])
  · cases heq
    simp only [required, List.mem_cons, List.not_mem_nil, or_false] at hother
    rcases hother with rfl | rfl | rfl
    · exact (by decide : isLegalText defaultTitle = true)
    · cases helement
    · cases helement

/-- The unique identifier is one of the statements, so its id and its text are legal with them. -/
theorem legal_unique (henvironment : environment.Legal) (hfresh : isLegalText freshId = true)
    (hne : freshId ≠ "") (h : ∀ item ∈ recipe.getD [], AllLegal item.texts) :
    isLegalText (resolve environment freshId recipe).uniqueId = true ∧
      isLegalText (resolve environment freshId recipe).identifier = true := by
  obtain ⟨statement, hstatement, hid, hcontent⟩ := exists_unique_resolve hne
  obtain ⟨item, hitem, hidentified⟩ := List.exists_of_findSome?_eq_some hstatement
  obtain ⟨rfl, -⟩ := identified?_eq_some_iff.mp hidentified
  have htexts := legal_resolve henvironment hfresh h _ hitem
  refine ⟨htexts _ ?_, ?_⟩
  · simp [Metadatum.texts, hid]
  · rw [hcontent]
    exact htexts _ (by simp [Metadatum.texts])

end Metadata
end Bindery
