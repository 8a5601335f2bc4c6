/-
# Chains of fallbacks

An item names at most one fallback, so the fallbacks from an item on form one chain.  `Settles` says
how a chain ends that the search for a document of the reading order follows to its end, and a search
that ends has followed such a chain (`settles_of_reaches`).  The search stops at the first document.
Before it there is no fallback without an item and no circle (`Settles.resolved`,
`Settles.acyclic`); what comes after it is not seen, so a circle that is left goes through a document
(`exists_document_of_circle`).
-/
import Mathlib.Data.List.Nodup
import Mathlib.Logic.Relation
import Bindery.Proofs.Success
import Bindery.Spine

namespace Bindery

/-- Where no two items share an identifier, an identifier finds the item that has it. -/
theorem Book.item?_eq_some_iff {book : Book} {id : String} {item : ManifestItem}
    (hids : (book.manifest.map (·.id)).Nodup) :
    book.item? id = some item ↔ item ∈ book.manifest ∧ item.id = id := by
  refine ⟨Book.mem_and_id_eq_of_item?, fun ⟨hitem, hid⟩ => ?_⟩
  have hsome : (book.item? id).isSome = true :=
    List.find?_isSome.mpr ⟨item, hitem, by simpa using hid⟩
  obtain ⟨found, hfound⟩ := Option.isSome_iff_exists.mp hsome
  obtain ⟨hmem, hid'⟩ := Book.mem_and_id_eq_of_item? hfound
  rw [hfound, List.inj_on_of_nodup_map hids hmem hitem (hid'.trans hid.symm)]

namespace Spine

variable {book : Book} {item next : ManifestItem} {b : Bool}

/-! ## 1. Chains -/

/-- Whether an item may stand in the reading order itself. -/
def IsDocument (item : ManifestItem) : Prop := item.mediaType ∈ mediaTypes

instance (item : ManifestItem) : Decidable (IsDocument item) :=
  inferInstanceAs (Decidable (item.mediaType ∈ mediaTypes))

/-- An item has the other as its fallback. -/
def FallsBack (book : Book) (item next : ManifestItem) : Prop :=
  ∃ idref, item.fallback = some idref ∧ book.item? idref = some next

theorem FallsBack.unique {other : ManifestItem} (h : FallsBack book item next)
    (h' : FallsBack book item other) : next = other := by
  obtain ⟨idref, hidref, hnext⟩ := h
  obtain ⟨idref', hidref', hother⟩ := h'
  rw [hidref, Option.some.injEq] at hidref'
  subst hidref'
  exact Option.some.inj (hnext.symm.trans hother)

/-- A step of the search: from an item that is no document to its fallback. -/
def Passes (book : Book) (item next : ManifestItem) : Prop :=
  ¬ IsDocument item ∧ FallsBack book item next

/-- The chain of fallbacks from an item on ends: at a document, with `true`, or at an item without
fallback, with `false`. -/
inductive Settles (book : Book) : ManifestItem → Bool → Prop
  | document {item : ManifestItem} (h : IsDocument item) : Settles book item true
  | last {item : ManifestItem} (h : ¬ IsDocument item) (hlast : item.fallback = none) :
      Settles book item false
  | next {item next : ManifestItem} {b : Bool} (h : Passes book item next)
      (rest : Settles book next b) : Settles book item b

/-- A search that comes to an answer has followed a chain that ends so. -/
theorem settles_of_reaches {start : ManifestItem} {visited : List String} {current : ManifestItem}
    (h : reaches book start visited current = .ok b) : Settles book current b := by
  fun_induction reaches book start visited current with
  | case1 visited current hdocument =>
    cases h
    exact .document (by simpa [IsDocument] using hdocument)
  | case2 visited current hdocument hlast =>
    cases h
    exact .last (by simpa [IsDocument] using hdocument) hlast
  | case3 => cases h
  | case4 => cases h
  | case5 visited current hdocument idref hidref _ next hnext ih =>
    exact .next ⟨by simpa [IsDocument] using hdocument, idref, hidref, hnext⟩ (ih h)

theorem reaches_of_document {start : ManifestItem} {visited : List String} (h : IsDocument item) :
    reaches book start visited item = .ok true := by
  rw [reaches, if_pos (by simpa [IsDocument] using h)]

theorem eligible_of_document (h : IsDocument item) : eligible book item = .ok true :=
  reaches_of_document h

/-- The search goes on to a fallback that it has not passed before. -/
theorem reaches_of_passes {start : ManifestItem} {visited : List String} (h : Passes book item next)
    (hnew : next.id ∉ item.id :: visited) :
    reaches book start visited item = reaches book start (item.id :: visited) next := by
  obtain ⟨hitem, idref, hidref, hfound⟩ := h
  rw [(Book.mem_and_id_eq_of_item? hfound).2] at hnew
  rw [reaches, if_neg (by simpa [IsDocument] using hitem)]
  split
  · rename_i hnone
    rw [hidref] at hnone
    cases hnone
  · rename_i idref' hsome
    obtain rfl : idref = idref' := Option.some.inj (hidref.symm.trans hsome)
    rw [dif_neg (by simpa using hnew)]
    split
    · rename_i hnone
      rw [hfound] at hnone
      cases hnone
    · rename_i other hother
      obtain rfl : next = other := Option.some.inj (hfound.symm.trans hother)
      rfl

/-- A step of the search, without what ensures that it ends. -/
theorem reaches_eq {start : ManifestItem} {visited : List String} {current : ManifestItem} :
    reaches book start visited current =
      if mediaTypes.contains current.mediaType then .ok true
      else match current.fallback with
        | none => .ok false
        | some idref =>
          if (current.id :: visited).contains idref then
            .error (.order (.fallbackCycle start.id idref))
          else match book.item? idref with
            | none => .error (.missingItem (.fallback idref current.id))
            | some next => reaches book start (current.id :: visited) next := by
  rw [reaches]
  by_cases hdocument : mediaTypes.contains current.mediaType = true
  · rw [if_pos hdocument, if_pos hdocument]
  · rw [if_neg hdocument, if_neg hdocument]
    cases current.fallback with
    | none => rfl
    | some idref =>
      simp only [dite_eq_ite]
      cases book.item? idref <;> rfl

/-- The search is the same in a book with other items if every identifier finds the same item. -/
theorem eligible_congr {other : Book} (h : ∀ id, book.item? id = other.item? id)
    (item : ManifestItem) : eligible book item = eligible other item := by
  suffices hreaches : ∀ start visited current,
      reaches book start visited current = reaches other start visited current from hreaches _ _ _
  intro start visited current
  fun_induction reaches book start visited current with
  | case1 visited current hdocument => rw [reaches_eq, if_pos hdocument]
  | case2 visited current hdocument hlast => rw [reaches_eq, if_neg hdocument, hlast]
  | case3 visited current hdocument idref hidref hseen =>
    rw [reaches_eq, if_neg hdocument, hidref]
    exact (if_pos hseen).symm
  | case4 visited current hdocument idref hidref hseen hnone =>
    rw [reaches_eq, if_neg hdocument, hidref]
    show _ = ite _ _ _
    rw [if_neg hseen, ← h, hnone]
  | case5 visited current hdocument idref hidref hseen next hnext ih =>
    rw [ih]
    conv_rhs => rw [reaches_eq, if_neg hdocument, hidref]
    show _ = ite _ _ _
    rw [if_neg hseen, ← h, hnext]

/-- An item of a list may stand in the reading order, and those before it in the list may not. -/
def IsFirstEligible (book : Book) (items : List ManifestItem) (item : ManifestItem) : Prop :=
  ∃ before after, items = before ++ item :: after ∧
    (∀ earlier ∈ before, eligible book earlier = .ok false) ∧ eligible book item = .ok true

/-- The search for the first eligible item finds it. -/
theorem isFirstEligible_of_eq_ok {items : List ManifestItem}
    (h : firstEligibleOf book items = .ok item) : IsFirstEligible book items item := by
  induction items with
  | nil => cases h
  | cons first rest ih =>
    obtain ⟨found, hfound, h⟩ := bind_eq_ok_iff.mp h
    cases found with
    | true =>
      cases h
      exact ⟨[], rest, rfl, List.forall_mem_nil _, hfound⟩
    | false =>
      obtain ⟨before, after, rfl, hbefore, hitem⟩ := ih h
      exact ⟨first :: before, after, rfl, List.forall_mem_cons.mpr ⟨hfound, hbefore⟩, hitem⟩

theorem firstEligibleOf_eq_ok_iff {items : List ManifestItem} :
    firstEligibleOf book items = .ok item ↔ IsFirstEligible book items item := by
  refine ⟨isFirstEligible_of_eq_ok, ?_⟩
  rintro ⟨before, after, rfl, hbefore, hitem⟩
  induction before with
  | nil => exact bind_eq_ok_iff.mpr ⟨true, hitem, rfl⟩
  | cons first before ih =>
    obtain ⟨hfirst, hbefore⟩ := List.forall_mem_cons.mp hbefore
    exact bind_eq_ok_iff.mpr ⟨false, hfirst, ih hbefore⟩

/-- The first eligible item of a list is one of the list. -/
theorem mem_of_firstEligibleOf {items : List ManifestItem}
    (h : firstEligibleOf book items = .ok item) : item ∈ items := by
  obtain ⟨before, after, rfl, -⟩ := isFirstEligible_of_eq_ok h
  exact List.mem_append_right before List.mem_cons_self

/-- Where every chain of fallbacks settles, the search finds an eligible item if there is one. -/
theorem exists_firstEligibleOf_iff {items : List ManifestItem}
    (h : ∀ item ∈ items, ∃ b, eligible book item = .ok b) :
    (∃ item, firstEligibleOf book items = .ok item) ↔
      ∃ item ∈ items, eligible book item = .ok true := by
  constructor
  · rintro ⟨item, hitem⟩
    obtain ⟨before, after, rfl, -, heligible⟩ := isFirstEligible_of_eq_ok hitem
    exact ⟨item, List.mem_append_right before List.mem_cons_self, heligible⟩
  · intro hexists
    induction items with
    | nil => simp at hexists
    | cons first rest ih =>
      obtain ⟨hfirst, hrest⟩ := List.forall_mem_cons.mp h
      obtain ⟨b, hb⟩ := hfirst
      cases b with
      | true => exact ⟨first, bind_eq_ok_iff.mpr ⟨true, hb, rfl⟩⟩
      | false =>
        obtain ⟨item, hitem, heligible⟩ := hexists
        have hlater : item ∈ rest := by
          refine (List.mem_cons.mp hitem).resolve_left fun heq => ?_
          rw [heq, hb] at heligible
          cases heligible
        obtain ⟨found, hfound⟩ := ih hrest ⟨item, hlater, heligible⟩
        exact ⟨found, bind_eq_ok_iff.mpr ⟨false, hb, hfound⟩⟩

/-- A reading order has a first linear item if one of its items is not marked as not linear. -/
theorem exists_firstLinear_iff {items : List SpineItem} (hspine : book.spine = some items) :
    (∃ idref, firstLinear book = .ok idref) ↔ ∃ item ∈ items, item.linear ≠ some false := by
  have hentries : entries book = .ok (items.map fun item => ⟨item.idref, item.linear⟩) := by
    rw [entries, hspine]
  have hfirst : (∃ idref, firstLinear book = .ok idref) ↔
      ((items.map fun item => (⟨item.idref, item.linear⟩ : Entry)).find?
        (·.linear ≠ some false)).isSome = true := by
    rw [firstLinear, hentries]
    simp only [bind, Except.bind]
    generalize List.find? _ _ = found
    cases found <;> simp [pure, Except.pure, throw, throwThe, MonadExceptOf.throw]
  rw [hfirst, List.find?_isSome]
  simp

/-- Without a reading order, the first eligible item is the first linear one. -/
theorem firstLinear_eq_ok_iff {idref : String} (hspine : book.spine = none) :
    firstLinear book = .ok idref ↔ ∃ item, firstEligible book = .ok item ∧ item.id = idref := by
  rw [firstLinear, entries, hspine]
  cases hfirst : firstEligible book with
  | error fault => simp [Except.map, bind, Except.bind]
  | ok item => simp [Except.map, bind, Except.bind, pure, Except.pure]

/-! ## 2. Before the first document -/

/-- The fallback of an item, if it has one, is the identifier of an item. -/
def Resolves (book : Book) (item : ManifestItem) : Prop :=
  ∀ idref, item.fallback = some idref → ∃ next, book.item? idref = some next

/-- Following fallbacks from an item leads back to it. -/
def OnCircle (book : Book) (item : ManifestItem) : Prop :=
  Relation.TransGen (FallsBack book) item item

theorem Settles.resolved (h : Settles book item b) (hitem : ¬ IsDocument item) :
    Resolves book item := by
  cases h with
  | document hdocument => exact absurd hdocument hitem
  | last _ hlast =>
    intro idref hidref
    rw [hlast] at hidref
    cases hidref
  | @next _ next _ hnext _ =>
    obtain ⟨-, idref, hidref, hfound⟩ := hnext
    intro idref' hidref'
    rw [hidref, Option.some.injEq] at hidref'
    exact ⟨next, hidref' ▸ hfound⟩

/-- A chain that ends does not come back to where it began: the step after its beginning would begin
such a circle too. -/
theorem Settles.acyclic (h : Settles book item b) : ¬ Relation.TransGen (Passes book) item item := by
  induction h with
  | document hdocument =>
    intro hcircle
    obtain ⟨_, hfirst, -⟩ := Relation.TransGen.head'_iff.mp hcircle
    exact hfirst.1 hdocument
  | last _ hlast =>
    intro hcircle
    obtain ⟨_, ⟨-, idref, hidref, -⟩, -⟩ := Relation.TransGen.head'_iff.mp hcircle
    rw [hlast] at hidref
    cases hidref
  | @next item next _ hnext _ ih =>
    intro hcircle
    obtain ⟨other, hfirst, hback⟩ := Relation.TransGen.head'_iff.mp hcircle
    have hother : other = next := hfirst.2.unique hnext.2
    subst hother
    exact ih (Relation.TransGen.tail'_iff.mpr ⟨item, hback, hnext⟩)

/-! ## 3. After the first document -/

/-- A chain of fallbacks is one that the search would follow, or goes on from a document. -/
theorem passes_or_document (h : Relation.TransGen (FallsBack book) item next) :
    Relation.TransGen (Passes book) item next ∨
      ∃ document, IsDocument document ∧ Relation.ReflTransGen (FallsBack book) item document ∧
        Relation.TransGen (FallsBack book) document next := by
  induction h using Relation.TransGen.head_induction_on with
  | @single item hstep =>
    by_cases hitem : IsDocument item
    · exact .inr ⟨item, hitem, .refl, .single hstep⟩
    · exact .inl (.single ⟨hitem, hstep⟩)
  | @head item middle hstep hrest ih =>
    by_cases hitem : IsDocument item
    · exact .inr ⟨item, hitem, .refl, .head hstep hrest⟩
    · rcases ih with hpasses | ⟨document, hdocument, hto, hfrom⟩
      · exact .inl (.head ⟨hitem, hstep⟩ hpasses)
      · exact .inr ⟨document, hdocument, .head hstep hto, hfrom⟩

theorem mem_of_chain (hitem : item ∈ book.manifest)
    (h : Relation.ReflTransGen (FallsBack book) item next) : next ∈ book.manifest := by
  cases Relation.ReflTransGen.cases_tail h with
  | inl heq => exact heq ▸ hitem
  | inr hlast =>
    obtain ⟨_, -, idref, -, hfound⟩ := hlast
    exact (Book.mem_and_id_eq_of_item? hfound).1

/-- If the chain of each item ends, every circle goes through a document. -/
theorem exists_document_of_circle (hsettles : ∃ b, Settles book item b)
    (hitem : item ∈ book.manifest) (h : OnCircle book item) :
    ∃ document ∈ book.manifest, IsDocument document ∧ OnCircle book document := by
  rcases passes_or_document h with hpasses | ⟨document, hdocument, hto, hfrom⟩
  · obtain ⟨b, hb⟩ := hsettles
    exact absurd hpasses hb.acyclic
  · exact ⟨document, mem_of_chain hitem hto, hdocument, hfrom.trans_left hto⟩

end Spine
end Bindery
