/-
# The reading order

Only documents of two media types may stand in the reading order; an item of another type is eligible
if its chain of fallbacks reaches such a document.  `eligible` follows the chain, and stops at an
identifier without an item and at a chain that comes back to itself.  A book without a reading order
gets its first eligible item as the only one.
-/
import Bindery.Book
import Bindery.Fault

namespace Bindery.Spine

/-! ## 1. Chains of fallbacks -/

/-- The media types that may stand in the reading order. -/
def mediaTypes : List String := ["application/xhtml+xml", "application/x-dtbook+xml"]

/-- How many manifest items have an identifier outside a list. -/
def countOutside (manifest : List ManifestItem) (ids : List String) : Nat :=
  manifest.countP fun item => !ids.contains item.id

theorem countOutside_cons_le (manifest : List ManifestItem) (id : String) (ids : List String) :
    countOutside manifest (id :: ids) ≤ countOutside manifest ids := by
  refine List.countP_mono_left fun item _ h => ?_
  simp only [List.contains_cons, Bool.not_or, Bool.and_eq_true] at h
  exact h.2

/-- An item whose identifier is new to a list is no longer outside once the identifier is added. -/
theorem countOutside_cons_lt {manifest : List ManifestItem} {item : ManifestItem}
    {ids : List String} (member : item ∈ manifest) (new : ids.contains item.id = false) :
    countOutside manifest (item.id :: ids) < countOutside manifest ids := by
  induction manifest with
  | nil => cases member
  | cons head rest ih =>
    have rest_le := countOutside_cons_le rest item.id ids
    rcases List.mem_cons.mp member with rfl | member
    · simp only [countOutside, List.countP_cons, List.contains_cons, BEq.rfl, Bool.true_or,
        Bool.not_true, new, Bool.not_false] at rest_le ⊢
      simp only [Bool.false_eq_true, if_false, if_true]
      omega
    · have := ih member
      have head_le := countOutside_cons_le [head] item.id ids
      simp only [countOutside, List.countP_cons, List.countP_nil] at this head_le ⊢
      omega

/-- Whether the chain from `current`, which began at `start`, reaches a document that may stand in
the reading order.  `visited` holds the identifiers passed before. -/
def reaches (book : Book) (start : ManifestItem) (visited : List String)
    (current : ManifestItem) : Except Fault Bool :=
  if mediaTypes.contains current.mediaType then .ok true
  else match current.fallback with
    | none => .ok false
    | some idref =>
      if _seen : (current.id :: visited).contains idref then
        .error (.order (.fallbackCycle start.id idref))
      else match _found : book.item? idref with
        | none => .error (.missingItem (.fallback idref current.id))
        | some next => reaches book start (current.id :: visited) next
termination_by countOutside book.manifest (current.id :: visited)
decreasing_by
  obtain ⟨member, rfl⟩ := Book.mem_and_id_eq_of_item? _found
  exact countOutside_cons_lt member (by simpa using _seen)

/-- Whether an item may stand in the reading order, itself or by its fallbacks. -/
def eligible (book : Book) (item : ManifestItem) : Except Fault Bool :=
  reaches book item [] item

/-- The first eligible item of a list; a chain that goes astray before it ends the search. -/
def firstEligibleOf (book : Book) : List ManifestItem → Except Fault ManifestItem
  | [] => .error (.order .nothingEligible)
  | item :: rest => do
    if ← eligible book item then return item
    firstEligibleOf book rest

/-- The first eligible item of the manifest. -/
def firstEligible (book : Book) : Except Fault ManifestItem :=
  firstEligibleOf book book.manifest

/-! ## 2. The order -/

/-- An item of the reading order with its mark whether it is linear. -/
structure Entry where
  idref : String
  linear : Option Bool
  deriving DecidableEq, Repr

/-- The reading order of a book. -/
def entries (book : Book) : Except Fault (List Entry) :=
  match book.spine with
  | some items => .ok (items.map fun item => ⟨item.idref, item.linear⟩)
  | none => (firstEligible book).map fun item => [⟨item.id, none⟩]

/-- The first item of the reading order that is not marked as not linear. -/
def firstLinear (book : Book) : Except Fault String := do
  match (← entries book).find? (·.linear ≠ some false) with
  | some entry => return entry.idref
  | none => throw (.order .nothingLinear)

end Bindery.Spine
