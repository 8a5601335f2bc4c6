/-
# The play order has no gaps

A link that has been met keeps its place among the links, and a link that has not been met gets the next
place (`number_of_mem`, `number_of_notMem`).  So in a run of any length the number of a link is its place
in the order at the end, whenever it is asked for (`numbers_run`): equal links share a number and
different links do not (`place_run_inj`).  The numbers at the first appearances count on from the
links met before, one by one (`firstValues_run`).
-/
import Mathlib.Data.List.Infix
import Bindery.Numbering

namespace Bindery

/-- The values at the first appearance of each key outside `seen`, in the order of the appearances. -/
def firstValues {α β : Type} [DecidableEq α] (seen : List α) : List (α × β) → List β
  | [] => []
  | (key, value) :: rest =>
    if key ∈ seen then firstValues seen rest else value :: firstValues (seen ++ [key]) rest

/-- Where keys and values are renamed, the keys so that different ones stay different, the first values
are renamed and no others come in. -/
theorem firstValues_map {α α' β β' : Type} [DecidableEq α] [DecidableEq α'] {f : α → α'} (g : β → β')
    (hf : Function.Injective f) (seen : List α) (pairs : List (α × β)) :
    firstValues (seen.map f) (pairs.map (Prod.map f g)) =
      (firstValues seen pairs).map g := by
  induction pairs generalizing seen with
  | nil => rfl
  | cons pair rest ih =>
    obtain ⟨key, value⟩ := pair
    rw [List.map_cons, Prod.map_apply, firstValues, firstValues]
    by_cases hkey : key ∈ seen
    · rw [if_pos hkey, if_pos (List.mem_map_of_mem hkey), ih]
    · have hnew : f key ∉ seen.map f := by
        rw [List.mem_map_of_injective hf]
        exact hkey
      have hseen : seen.map f ++ [f key] = (seen ++ [key]).map f := by
        rw [List.map_append, List.map_singleton]
      rw [if_neg hkey, if_neg hnew, hseen, ih, List.map_cons]

namespace PlayOrder

variable {order : PlayOrder} {link : String}

/-! ## 1. One link -/

/-- The place of a link among those that have been met, counted from one. -/
def place (order : PlayOrder) (link : String) : Nat :=
  order.links.idxOf link + 1

/-- A link that has been met has its number already. -/
theorem number_of_mem (h : link ∈ order.links) : order.number link = (order.place link, order) := by
  obtain ⟨index, hindex⟩ := Option.isSome_iff_exists.mp (List.isSome_idxOf?.mpr h)
  have hplace : order.links.idxOf link = index := by
    rw [List.idxOf_eq_getD_idxOf?, hindex, Option.getD_some]
  rw [number, hindex, place, hplace]

/-- A link that has not been met gets the next number. -/
theorem number_of_notMem (h : link ∉ order.links) :
    order.number link = (order.links.length + 1, ⟨order.links ++ [link]⟩) := by
  rw [number, List.idxOf?_eq_none_iff.mpr h]

/-- **One step**: the link has been met afterwards, its number is its place from then on, and the links
met before keep theirs. -/
theorem number_spec (order : PlayOrder) (link : String) :
    link ∈ (order.number link).2.links ∧
      (order.number link).1 = (order.number link).2.place link ∧
      order.links <+: (order.number link).2.links := by
  by_cases h : link ∈ order.links
  · rw [number_of_mem h]
    exact ⟨h, rfl, List.prefix_refl _⟩
  · rw [number_of_notMem h]
    refine ⟨by simp, ?_, List.prefix_append _ _⟩
    simp [place, List.idxOf_append, h]

/-! ## 2. A run -/

/-- The numbers of some links, asked for one after the other, and the order afterwards. -/
def run (order : PlayOrder) : List String → List Nat × PlayOrder
  | [] => ([], order)
  | link :: rest =>
    let (number, between) := order.number link
    let (numbers, after) := between.run rest
    (number :: numbers, after)

theorem run_cons (order : PlayOrder) (link : String) (rest : List String) :
    order.run (link :: rest) =
      ((order.number link).1 :: ((order.number link).2.run rest).1,
        ((order.number link).2.run rest).2) := rfl

/-- A run in two parts: the second goes on with the order that the first has left. -/
theorem run_append (order : PlayOrder) (links more : List String) :
    order.run (links ++ more) =
      ((order.run links).1 ++ ((order.run links).2.run more).1,
        ((order.run links).2.run more).2) := by
  induction links generalizing order with
  | nil => rfl
  | cons link rest ih =>
    rw [List.cons_append, run_cons, run_cons, ih]
    rfl

/-- Links that have been met keep their places through a run. -/
theorem prefix_run (order : PlayOrder) (links : List String) :
    order.links <+: (order.run links).2.links := by
  induction links generalizing order with
  | nil => exact List.prefix_refl _
  | cons link rest ih => exact (number_spec order link).2.2.trans (ih _)

theorem mem_run (order : PlayOrder) {links : List String} :
    ∀ link ∈ links, link ∈ (order.run links).2.links := by
  induction links generalizing order with
  | nil => exact fun _ h => nomatch h
  | cons first rest ih =>
    intro link hlink
    rcases List.mem_cons.mp hlink with rfl | hlink
    · exact (prefix_run _ rest).mem (number_spec order link).1
    · exact ih _ link hlink

/-- **The number of a link is its place in the order at the end of the run.** -/
theorem numbers_run (order : PlayOrder) (links : List String) :
    (order.run links).1 = links.map (order.run links).2.place := by
  induction links generalizing order with
  | nil => rfl
  | cons link rest ih =>
    obtain ⟨hmem, hnumber, -⟩ := number_spec order link
    obtain ⟨later, hlater⟩ := prefix_run (order.number link).2 rest
    -- What is met in the rest of the run comes after the link, so it does not move the link.
    have hplace : ((order.number link).2.run rest).2.place link =
        (order.number link).2.place link := by
      rw [place, place, ← hlater, List.idxOf_append_of_mem hmem]
    rw [run_cons, List.map_cons, ← ih, hplace, ← hnumber]

/-- **Only equal links share a number.** -/
theorem place_run_inj (order : PlayOrder) {links : List String} {link other : String}
    (h : link ∈ links) :
    (order.run links).2.place link = (order.run links).2.place other ↔ link = other := by
  rw [place, place, Nat.add_right_cancel_iff, List.idxOf_inj (mem_run order link h)]

/-- **The numbers at the first appearances count on from the links met before**, and nothing is left
out. -/
theorem firstValues_run (order : PlayOrder) (links : List String) :
    ∃ count, firstValues order.links (links.zip (order.run links).1) =
      List.range' (order.links.length + 1) count := by
  induction links generalizing order with
  | nil => exact ⟨0, rfl⟩
  | cons link rest ih =>
    rw [run_cons, List.zip_cons_cons, firstValues]
    by_cases h : link ∈ order.links
    · rw [if_pos h, number_of_mem h]
      exact ih order
    · obtain ⟨count, hcount⟩ := ih ⟨order.links ++ [link]⟩
      rw [if_neg h, number_of_notMem h]
      refine ⟨count + 1, ?_⟩
      rw [hcount, List.range'_succ, List.length_append, List.length_singleton]

end PlayOrder
end Bindery
