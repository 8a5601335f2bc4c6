/-
# Completing metadata only adds

Complete metadata are the items of the recipe and, after them, the statements that were missing
(`completed_eq`).  Only where no identifier of the recipe has an id, the first identifier is given one
(`Kept`, `exists_kept`).  Nothing is missing from what is complete, and one of its identifiers has an id, so
completing it again changes nothing (`resolve_of_complete`).  Both together are `resolve_completes`.
-/
import Bindery.Proofs.Metadata.Machine

namespace Bindery.Metadata

variable {environment : Environment} {freshId : String} {element : DublinCore}
  {items recipe : List Metadatum} {statement : Statement} {statements : List Statement}
  {kind : Statement → Prop}

/-! ## 1. First statements -/

/-- An identifier with an id that is not empty. -/
def IsIdentified (statement : Statement) : Prop :=
  statement.element = .identifier ∧ ∃ id, statement.id = some id ∧ id ≠ ""

/-- The first statement of a kind. -/
def IsFirst (kind : Statement → Prop) (items : List Metadatum) (statement : Statement) : Prop :=
  ∃ before after, items = before ++ .core statement :: after ∧ kind statement ∧
    ∀ earlier, .core earlier ∈ before → ¬ kind earlier

/-- Looks for the statements of a kind. -/
def Finds (find? : Metadatum → Option Statement) (kind : Statement → Prop) : Prop :=
  ∀ item statement, find? item = some statement ↔ item = .core statement ∧ kind statement

theorem finds_statement? (element : DublinCore) :
    Finds (statement? element) fun statement => statement.element = element :=
  fun _ _ => statement?_eq_some_iff

theorem finds_identified? : Finds identified? IsIdentified :=
  fun _ _ => identified?_eq_some_iff

namespace Finds

variable {find? : Metadatum → Option Statement}

theorem isFirst (hfind : Finds find? kind) (h : items.findSome? find? = some statement) :
    IsFirst kind items statement := by
  obtain ⟨before, item, after, rfl, hitem, hnone⟩ := List.findSome?_eq_some_iff.mp h
  obtain ⟨rfl, hkind⟩ := (hfind item statement).mp hitem
  refine ⟨before, after, rfl, hkind, fun earlier hearlier hkind' => ?_⟩
  have hfound : find? (.core earlier) = some earlier := (hfind _ _).mpr ⟨rfl, hkind'⟩
  rw [hnone _ hearlier] at hfound
  cases hfound

theorem eq_none_iff (hfind : Finds find? kind) :
    items.findSome? find? = none ↔ ∀ statement, .core statement ∈ items → ¬ kind statement := by
  rw [List.findSome?_eq_none_iff]
  constructor
  · intro hnone statement hmem hkind
    have hfound : find? (.core statement) = some statement := (hfind _ _).mpr ⟨rfl, hkind⟩
    rw [hnone _ hmem] at hfound
    cases hfound
  · intro hnone item hmem
    rw [Option.eq_none_iff_forall_ne_some]
    intro statement hfound
    obtain ⟨rfl, hkind⟩ := (hfind _ _).mp hfound
    exact hnone statement hmem hkind

end Finds

/-! ## 2. What is missing -/

instance (element : DublinCore) (items : List Metadatum) : Decidable (States element items) :=
  inferInstanceAs (Decidable (_ = true))

/-- The statements that some items do not make, in order. -/
def missing (statements : List Statement) (items : List Metadatum) : List Statement :=
  statements.filter fun statement => ¬ States statement.element items

theorem completedBy_of_not_states (h : ¬ States statement.element items) :
    completedBy items statement = items ++ [.core statement] := by
  rw [States, Bool.not_eq_true, Option.isSome_eq_false_iff] at h
  rw [completedBy, if_pos h]

/-- A statement that is made already is not made again, nor does it change what others are missing. -/
theorem missing_completedBy (h : statement.element ∉ statements.map (·.element)) :
    missing statements (completedBy items statement) = missing statements items := by
  refine List.filter_congr fun other hother => ?_
  have hne : statement.element ≠ other.element := fun heq => h (heq ▸ List.mem_map_of_mem hother)
  have hsame : States other.element (completedBy items statement) ↔ States other.element items := by
    rw [States, States, first?_completedBy_of_ne hne]
  exact decide_eq_decide.mpr (not_congr hsame)

/-- Completing by statements of different elements adds those that are missing, in order. -/
theorem foldl_completedBy (hdistinct : (statements.map (·.element)).Nodup) (items : List Metadatum) :
    statements.foldl completedBy items = items ++ (missing statements items).map .core := by
  induction statements generalizing items with
  | nil => exact (List.append_nil items).symm
  | cons statement rest ih =>
    rw [List.map_cons, List.nodup_cons] at hdistinct
    rw [List.foldl_cons, ih hdistinct.2, missing_completedBy hdistinct.1, missing, missing]
    by_cases hstates : States statement.element items
    · rw [completedBy_of_states hstates, List.filter_cons_of_neg (by simpa using hstates)]
    · rw [completedBy_of_not_states hstates, List.filter_cons_of_pos (by simpa using hstates),
        List.map_cons, List.append_assoc, List.singleton_append]

theorem elements_required (environment : Environment) (freshId : String) :
    ((required environment freshId).map (·.element)).Nodup :=
  (by decide : [DublinCore.title, .identifier, .language].Nodup)

theorem completed_eq (environment : Environment) (freshId : String) (items : List Metadatum) :
    completed environment freshId items =
      items ++ (missing (required environment freshId) items).map .core :=
  foldl_completedBy (elements_required environment freshId) items

/-! ## 3. What is kept -/

/-- The items of a recipe with an id for the first identifier, unless some identifier has one or there is
no identifier. -/
inductive Kept (freshId : String) (recipe : List Metadatum) : List Metadatum → Prop where
  | identified : (∃ statement, .core statement ∈ recipe ∧ IsIdentified statement) →
      Kept freshId recipe recipe
  | without : ¬ States .identifier recipe → Kept freshId recipe recipe
  | given {before after : List Metadatum} {statement : Statement} :
      (∀ statement, .core statement ∈ recipe → ¬ IsIdentified statement) →
      recipe = before ++ .core statement :: after → statement.element = .identifier →
      (∀ earlier, .core earlier ∈ before → earlier.element ≠ .identifier) →
      Kept freshId recipe (before ++ .core { statement with id := some freshId } :: after)

theorem giveId_of_first {before after : List Metadatum} (helement : statement.element = .identifier)
    (hbefore : ∀ earlier, .core earlier ∈ before → earlier.element ≠ .identifier) :
    giveId freshId (before ++ .core statement :: after) =
      before ++ .core { statement with id := some freshId } :: after := by
  induction before with
  | nil =>
    have hfound : statement? .identifier (.core statement) = some statement :=
      statement?_eq_some_iff.mpr ⟨rfl, helement⟩
    rw [List.nil_append, giveId_cons, hfound]
    rfl
  | cons item before ih =>
    have hother : statement? .identifier item = none := by
      rw [Option.eq_none_iff_forall_ne_some]
      intro earlier hearlier
      obtain ⟨rfl, hidentifier⟩ := statement?_eq_some_iff.mp hearlier
      exact hbefore earlier List.mem_cons_self hidentifier
    rw [List.cons_append, giveId_cons, hother, List.cons_append]
    dsimp only
    rw [ih fun earlier hearlier => hbefore earlier (List.mem_cons_of_mem _ hearlier)]

/-- No statement that is missing is an identifier where there is one. -/
theorem findSome?_identified_missing (h : States .identifier items) :
    ((missing statements items).map Metadatum.core).findSome? identified? = none := by
  rw [finds_identified?.eq_none_iff]
  rintro statement hmem ⟨helement, -⟩
  obtain ⟨other, hother, heq⟩ := List.mem_map.mp hmem
  cases heq
  have hmissing := (List.mem_filter.mp hother).2
  rw [helement] at hmissing
  exact absurd h (by simpa using hmissing)

/-- **The items of complete metadata** are the items that are kept, and what was missing. -/
theorem exists_kept (environment : Environment) (recipe : Option (List Metadatum))
    (hfresh : freshId ≠ "") : ∃ kept, Kept freshId (recipe.getD []) kept ∧
      (resolve environment freshId recipe).items =
        kept ++ (missing (required environment freshId) (recipe.getD [])).map .core := by
  generalize hitems : recipe.getD [] = items
  have hresolve := @items_resolve environment freshId recipe
  rw [hitems, completed_eq, List.findSome?_append] at hresolve
  cases hfound : items.findSome? identified? with
  | some statement =>
    obtain ⟨before, after, rfl, hidentified, -⟩ := finds_identified?.isFirst hfound
    rw [hfound, Option.some_or, Option.isSome_some, if_pos rfl] at hresolve
    exact ⟨_, .identified ⟨statement, by simp, hidentified⟩, hresolve⟩
  | none =>
    rw [hfound, Option.none_or] at hresolve
    by_cases hstates : States .identifier items
    · rw [findSome?_identified_missing hstates, Option.isSome_none, if_neg Bool.false_ne_true,
        giveId_append hstates] at hresolve
      obtain ⟨statement, hstatement⟩ := Option.isSome_iff_exists.mp hstates
      obtain ⟨before, after, rfl, helement, hbefore⟩ :=
        (finds_statement? .identifier).isFirst hstatement
      rw [giveId_of_first helement hbefore] at hresolve
      exact ⟨_, .given (finds_identified?.eq_none_iff.mp hfound) rfl helement hbefore, hresolve⟩
    · -- The identifier that is missing is made with an id.
      have hmade : ((missing (required environment freshId) items).map Metadatum.core).findSome?
          identified? ≠ none := by
        rw [Ne, finds_identified?.eq_none_iff]
        intro hnone
        obtain ⟨made, hrequired, helement, hid⟩ : ∃ made ∈ required environment freshId,
            made.element = .identifier ∧ made.id = some freshId := by simp [required]
        refine hnone made (List.mem_map_of_mem ?_) ⟨helement, freshId, hid, hfresh⟩
        exact List.mem_filter.mpr ⟨hrequired, by simpa [helement] using hstates⟩
      rw [if_pos (Option.isSome_iff_ne_none.mpr hmade)] at hresolve
      exact ⟨items, .without hstates, hresolve⟩

/-! ## 4. Completing again -/

/-- Items that lack nothing. -/
structure IsComplete (items : List Metadatum) : Prop where
  title : States .title items
  language : States .language items
  identified : (items.findSome? identified?).isSome = true

theorem isComplete_resolve (environment : Environment) (recipe : Option (List Metadatum))
    (hfresh : freshId ≠ "") : IsComplete (resolve environment freshId recipe).items := by
  constructor
  · obtain ⟨statement, hstatement, -⟩ := @exists_title_resolve environment freshId recipe
    rw [States, hstatement]
    rfl
  · rw [items_resolve_eq]
    exact first?_completedBy_self _ rfl
  · obtain ⟨statement, hstatement, -⟩ := @exists_unique_resolve environment freshId recipe hfresh
    rw [hstatement]
    rfl

/-- **Nothing is added to complete items.** -/
theorem items_resolve_of_complete (h : IsComplete items) (environment : Environment)
    (freshId : String) : (resolve environment freshId (some items)).items = items := by
  have hidentifier : States .identifier items := by
    obtain ⟨statement, hstatement⟩ := Option.isSome_iff_exists.mp h.identified
    obtain ⟨before, after, rfl, ⟨helement, -⟩, -⟩ := finds_identified?.isFirst hstatement
    by_contra hnone
    rw [States, Option.not_isSome_iff_eq_none] at hnone
    exact (finds_statement? .identifier).eq_none_iff.mp hnone statement (by simp) helement
  have hmissing : missing (required environment freshId) items = [] := by
    simp [missing, required, h.title, h.language, hidentifier]
  rw [items_resolve, Option.getD_some, completed_eq, hmissing, List.map_nil, List.append_nil,
    if_pos h.identified]

/-! ## 5. What completing does -/

/-- What complete metadata are, given the items of a recipe. -/
structure Completes (environment : Environment) (freshId : String) (recipe : List Metadatum)
    (metadata : Metadata) : Prop where
  /-- The items of the recipe come first, and then what was missing. -/
  items : ∃ kept, Kept freshId recipe kept ∧
    metadata.items = kept ++ (missing (required environment freshId) recipe).map .core
  unique : ∃ statement, IsFirst IsIdentified metadata.items statement ∧
    statement.id = some metadata.uniqueId ∧ statement.content = metadata.identifier
  title : ∃ statement, IsFirst (·.element = .title) metadata.items statement ∧
    statement.content = metadata.title

/-- **Resolving metadata completes them**, once and for all: it keeps the items of the recipe, adds what is
missing, and names the first title and the first identifier with an id; and completing what is complete
changes nothing, whatever the machine and the id made up for it are. -/
theorem resolve_completes (environment : Environment) (recipe : Option (List Metadatum))
    (hfresh : freshId ≠ "") :
    Completes environment freshId (recipe.getD []) (resolve environment freshId recipe) ∧
      ∀ (other : Environment) (otherId : String),
        resolve other otherId (some (resolve environment freshId recipe).items) =
          resolve environment freshId recipe := by
  constructor
  · obtain ⟨unique, hunique, hid, hcontent⟩ := @exists_unique_resolve environment freshId recipe hfresh
    obtain ⟨title, htitle, hname⟩ := @exists_title_resolve environment freshId recipe
    exact ⟨exists_kept environment recipe hfresh,
      ⟨unique, finds_identified?.isFirst hunique, hid, hcontent.symm⟩,
      ⟨title, (finds_statement? .title).isFirst htitle, hname.symm⟩⟩
  · intro other otherId
    exact resolve_eq_of_items hfresh
      (items_resolve_of_complete (isComplete_resolve environment recipe hfresh) other otherId)

/-- Two identifiers without an id, after an item of another kind; a title and a language are missing. -/
def unidentifiedItems : List Metadatum :=
  [.custom "cover" "front", .core { element := .identifier, content := "one", id := some "" },
    .core { element := .identifier, content := "two" }]

theorem unidentifiedItems_completed : "BookId" ≠ "" ∧
    Completes ⟨"", some "de_AT"⟩ "BookId" unidentifiedItems
      (resolve ⟨"", some "de_AT"⟩ "BookId" (some unidentifiedItems)) ∧
    ∀ (other : Environment) (otherId : String), resolve other otherId
        (some (resolve ⟨"", some "de_AT"⟩ "BookId" (some unidentifiedItems)).items) =
      resolve ⟨"", some "de_AT"⟩ "BookId" (some unidentifiedItems) :=
  have hfresh : "BookId" ≠ "" := by decide
  ⟨hfresh, resolve_completes ⟨"", some "de_AT"⟩ (some unidentifiedItems) hfresh⟩

end Bindery.Metadata
