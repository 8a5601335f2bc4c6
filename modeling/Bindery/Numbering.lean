/-
# Numbers in the navigation document

Two things are counted while the navigation document is written: the identifiers made for targets
that have none, and the order in which the targets are played.
-/
import Bindery.FreshName

namespace Bindery

/-! ## 1. Identifiers -/

/-- Gives out identifiers of the form `stem-N` that clash with none in use. -/
structure IdSupply where
  /-- The identifiers in use. -/
  taken : List String
  /-- How many identifiers were given out for each stem. -/
  counts : List (String × Nat)
  deriving Repr

namespace IdSupply

/-- A supply beside the identifiers of a document. -/
def beside (taken : List String) : IdSupply := ⟨taken, []⟩

/-- Adds one to the count of a stem. -/
def countUp (stem : String) : List (String × Nat) → List (String × Nat)
  | [] => [(stem, 1)]
  | (name, count) :: rest =>
    if name = stem then (name, count + 1) :: rest else (name, count) :: countUp stem rest

/-- The next identifier for a stem, and the supply afterwards. -/
def next (supply : IdSupply) (stem : String) : String × IdSupply :=
  let counts := countUp stem supply.counts
  let number := (counts.lookup stem).getD 1
  let id := FreshName.fresh (stem ++ "-" ++ toString number) supply.taken
  (id, ⟨id :: supply.taken, counts⟩)

end IdSupply

/-! ## 2. Play order -/

/-- The different links met so far, in the order of their first appearance. -/
structure PlayOrder where
  links : List String
  deriving Repr

namespace PlayOrder

/-- The order in which no link has been met. -/
def start : PlayOrder := ⟨[]⟩

/-- The number of a link, counted from one by first appearance, and the order afterwards. -/
def number (order : PlayOrder) (link : String) : Nat × PlayOrder :=
  match order.links.idxOf? link with
  | some index => (index + 1, order)
  | none => (order.links.length + 1, ⟨order.links ++ [link]⟩)

end PlayOrder

/-! ## 3. Both -/

/-- What is counted while the navigation document is written. -/
structure Numbering where
  ids : IdSupply
  order : PlayOrder
  deriving Repr

namespace Numbering

/-- Nothing counted yet, beside the identifiers of a document. -/
def beside (taken : List String) : Numbering := ⟨.beside taken, .start⟩

/-- The next identifier for a stem, and the numbering afterwards. -/
def nextId (stem : String) (numbering : Numbering) : String × Numbering :=
  let (id, ids) := numbering.ids.next stem
  (id, { numbering with ids })

/-- The number of a link in the play order, and the numbering afterwards. -/
def playNumber (link : String) (numbering : Numbering) : Nat × Numbering :=
  let (number, order) := numbering.order.number link
  (number, { numbering with order })

end Numbering
end Bindery
