/-
# What metadata take from the machine

A book that states an identifier takes none from the machine that it is made on, and one that states a
language takes no language (`resolve_congr`).  Its title never comes from the machine
(`title_resolve_congr`), and neither the language of the machine nor a statement of one has a part in its
unique identifier (`identifier_resolve_congr`).  The proofs take the completion apart: first the title and
the identifier (`uniqueItems`), then the language.
-/
import Bindery.Proofs.Metadata

namespace Bindery.Metadata

variable {here there : Environment} {freshId : String} {element : DublinCore}
  {items : List Metadatum} {statement : Statement}

/-! ## 1. Completing -/

/-- Some items make a statement by an element. -/
def States (element : DublinCore) (items : List Metadatum) : Prop :=
  (first? element items).isSome = true

/-- A statement by an element is not completed. -/
theorem completedBy_of_states (h : States statement.element items) :
    completedBy items statement = items := by
  rw [States, Option.isSome_iff_ne_none] at h
  rw [completedBy, if_neg (by simpa using h)]

/-- Completing changes nothing about the statements by other elements. -/
theorem first?_completedBy_of_ne (h : statement.element ≠ element) :
    first? element (completedBy items statement) = first? element items := by
  unfold completedBy
  split
  · simp [first?, List.findSome?_append, statement?, h]
  · rfl

theorem findSome?_identified_completedBy (h : statement.element ≠ .identifier) :
    (completedBy items statement).findSome? identified? = items.findSome? identified? := by
  have hnone : identified? (.core statement) = none := by
    rw [identified?, statement?, if_neg h]
    rfl
  unfold completedBy
  split
  · rw [List.findSome?_append, List.findSome?_cons, hnone, List.findSome?_nil, Option.or_none]
  · rfl

theorem giveId_append {id : String} {more : List Metadatum} : ∀ {items : List Metadatum},
    States .identifier items → giveId id (items ++ more) = giveId id items ++ more
  | [], h => by simp [States, first?] at h
  | item :: rest, h => by
    rw [List.cons_append, giveId_cons, giveId_cons]
    cases hitem : statement? .identifier item with
    | some statement => rfl
    | none =>
      rw [States, first?, List.findSome?_cons, hitem] at h
      dsimp only
      rw [giveId_append h, List.cons_append]

/-- An id is given to the first identifier, whatever is completed after it. -/
theorem giveId_completedBy {id : String} (hstates : States .identifier items)
    (h : statement.element ≠ .identifier) :
    giveId id (completedBy items statement) = completedBy (giveId id items) statement := by
  unfold completedBy
  rw [first?_giveId id h]
  split
  · exact giveId_append hstates
  · rfl

/-! ## 2. Title and identifier -/

/-- The statement of a language that the machine makes. -/
def languageStatement (environment : Environment) : Statement :=
  { element := .language, content := environment.languageTag }

@[simp] theorem element_languageStatement (environment : Environment) :
    (languageStatement environment).element = .language := rfl

/-- The items with a title and an identifier. -/
def titledItems (environment : Environment) (freshId : String) (items : List Metadatum) :
    List Metadatum :=
  completedBy (completedBy items { element := .title, content := defaultTitle })
    { element := .identifier, content := environment.uuid, id := some freshId, scheme := some "UUID" }

/-- The items with a title and a unique identifier. -/
def uniqueItems (environment : Environment) (freshId : String) (items : List Metadatum) :
    List Metadatum :=
  if ((titledItems environment freshId items).findSome? identified?).isSome then
    titledItems environment freshId items
  else giveId freshId (titledItems environment freshId items)

/-- The language is completed last, and changes nothing about the unique identifier. -/
theorem items_resolve_eq (environment : Environment) (recipe : Option (List Metadatum)) :
    (resolve environment freshId recipe).items =
      completedBy (uniqueItems environment freshId (recipe.getD []))
        (languageStatement environment) := by
  have hcompleted : completed environment freshId (recipe.getD []) =
      completedBy (titledItems environment freshId (recipe.getD []))
        (languageStatement environment) := rfl
  have hne : (languageStatement environment).element ≠ .identifier := by simp
  have hstates : States .identifier (titledItems environment freshId (recipe.getD [])) :=
    first?_completedBy_self _ rfl
  rw [items_resolve, hcompleted, findSome?_identified_completedBy hne, uniqueItems]
  split
  · rfl
  · exact giveId_completedBy hstates hne

/-- The identifier of the machine is taken only by a book that states none. -/
theorem uniqueItems_congr (h : States .identifier items ∨ here.uuid = there.uuid) :
    uniqueItems here freshId items = uniqueItems there freshId items := by
  have htitled : titledItems here freshId items = titledItems there freshId items := by
    rcases h with h | h
    · have hstates : States .identifier
          (completedBy items { element := .title, content := defaultTitle }) :=
        first?_completedBy_isSome _ h
      have hsame : ∀ environment : Environment, titledItems environment freshId items =
          completedBy items { element := .title, content := defaultTitle } :=
        fun environment => completedBy_of_states hstates
      rw [hsame, hsame]
    · rw [titledItems, titledItems, h]
  rw [uniqueItems, uniqueItems, htitled]

theorem first?_uniqueItems (environment : Environment) (hne : element ≠ .identifier) :
    first? element (uniqueItems environment freshId items) =
      first? element (completedBy items { element := .title, content := defaultTitle }) := by
  have htitled : first? element (titledItems environment freshId items) =
      first? element (completedBy items { element := .title, content := defaultTitle }) :=
    first?_completedBy_of_ne hne.symm
  unfold uniqueItems
  split
  · exact htitled
  · rw [first?_giveId freshId hne, htitled]

/-! ## 3. Two machines -/

variable {recipe : Option (List Metadatum)}

/-- **The title does not come from the machine.** -/
theorem title_resolve_congr (here there : Environment) (freshId : String)
    (recipe : Option (List Metadatum)) :
    (resolve here freshId recipe).title = (resolve there freshId recipe).title := by
  have htitle : ∀ environment : Environment, (resolve environment freshId recipe).title =
      ((first? .title (completedBy (recipe.getD [])
        { element := .title, content := defaultTitle })).map (·.content)).getD defaultTitle := by
    intro environment
    have hne : (languageStatement environment).element ≠ .title := by simp
    show ((first? .title (resolve environment freshId recipe).items).map (·.content)).getD _ = _
    rw [items_resolve_eq, first?_completedBy_of_ne hne, first?_uniqueItems environment (by decide)]
  rw [htitle, htitle]

theorem findSome?_identified_resolve (hfresh : freshId ≠ "") (environment : Environment)
    (recipe : Option (List Metadatum)) :
    ((resolve environment freshId recipe).items.findSome? identified?).map
        (fun statement => (statement.id, statement.content)) =
      some (some (resolve environment freshId recipe).uniqueId,
        (resolve environment freshId recipe).identifier) := by
  obtain ⟨statement, hstatement, hid, hcontent⟩ :
      ∃ statement, (resolve environment freshId recipe).items.findSome? identified? =
          some statement ∧ statement.id = some (resolve environment freshId recipe).uniqueId ∧
        (resolve environment freshId recipe).identifier = statement.content :=
    exists_unique_resolve hfresh
  rw [hstatement, Option.map_some, hid, hcontent]

/-- **The unique identifier comes from the machine only for a book that states none.** -/
theorem identifier_resolve_congr (hfresh : freshId ≠ "")
    (h : States .identifier (recipe.getD []) ∨ here.uuid = there.uuid) :
    (resolve here freshId recipe).identifier = (resolve there freshId recipe).identifier := by
  have hunique : ∀ environment : Environment,
      (resolve environment freshId recipe).items.findSome? identified? =
        (uniqueItems environment freshId (recipe.getD [])).findSome? identified? := by
    intro environment
    have hne : (languageStatement environment).element ≠ .identifier := by simp
    rw [items_resolve_eq, findSome?_identified_completedBy hne]
  have hhere := findSome?_identified_resolve hfresh here recipe
  have hthere := findSome?_identified_resolve hfresh there recipe
  rw [hunique, uniqueItems_congr h, ← hunique, hthere] at hhere
  rw [Option.some.injEq, Prod.mk.injEq] at hhere
  exact hhere.2.symm

/-- **A book that states an identifier and a language takes nothing from the machine.** -/
theorem resolve_congr (hfresh : freshId ≠ "")
    (hidentifier : States .identifier (recipe.getD []) ∨ here.uuid = there.uuid)
    (hlanguage : States .language (recipe.getD []) ∨ here.languageTag = there.languageTag) :
    resolve here freshId recipe = resolve there freshId recipe := by
  have hitems : (resolve here freshId recipe).items = (resolve there freshId recipe).items := by
    rw [items_resolve_eq, items_resolve_eq, uniqueItems_congr hidentifier]
    rcases hlanguage with hstates | htag
    · have hunique : States .language (uniqueItems there freshId (recipe.getD [])) := by
        rw [States, first?_uniqueItems there (by decide)]
        exact first?_completedBy_isSome _ hstates
      have hsame : ∀ environment : Environment,
          completedBy (uniqueItems there freshId (recipe.getD [])) (languageStatement environment) =
            uniqueItems there freshId (recipe.getD []) :=
        fun environment => completedBy_of_states hunique
      rw [hsame, hsame]
    · rw [languageStatement, languageStatement, htag]
  exact resolve_eq_of_items hfresh hitems

end Bindery.Metadata
