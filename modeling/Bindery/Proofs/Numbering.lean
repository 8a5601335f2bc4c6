/-
# A supply never gives one identifier twice

Each identifier that a supply gives out clashes with none in use, and is in use from then on
(`next_new`, `taken_next`).  So in a run of any length, with any stems, the identifiers clash neither
with those that were taken at the start nor with one another (`run_new`, `run_distinct`).
-/
import Bindery.Numbering
import Bindery.Proofs.FreshName

namespace Bindery.IdSupply

open Text

/-- The identifiers that a supply gives out for some stems, one after the other, and the supply
afterwards. -/
def run (supply : IdSupply) : List String → List String × IdSupply
  | [] => ([], supply)
  | stem :: rest =>
    let (id, between) := supply.next stem
    let (ids, after) := between.run rest
    (id :: ids, after)

/-- An identifier that is given out clashes with none that is taken. -/
theorem next_new (supply : IdSupply) (stem : String) :
    foldCase (supply.next stem).1 ∉ supply.taken.map foldCase :=
  FreshName.fresh_not_taken _ _

/-- An identifier that is given out is taken afterwards. -/
theorem taken_next (supply : IdSupply) (stem : String) :
    (supply.next stem).2.taken = (supply.next stem).1 :: supply.taken := rfl

theorem run_cons (supply : IdSupply) (stem : String) (rest : List String) :
    supply.run (stem :: rest) =
      ((supply.next stem).1 :: ((supply.next stem).2.run rest).1,
        ((supply.next stem).2.run rest).2) := rfl

/-- A run in two parts: the second goes on with the supply that the first has left. -/
theorem run_append : ∀ (supply : IdSupply) (stems : List String) (more : List String),
    supply.run (stems ++ more) =
      ((supply.run stems).1 ++ ((supply.run stems).2.run more).1,
        ((supply.run stems).2.run more).2)
  | _, [], _ => rfl
  | supply, stem :: rest, more => by
    have ih := run_append (supply.next stem).2 rest more
    rw [List.cons_append, run_cons, run_cons, ih]
    rfl

/-- A supply gives out as many identifiers as it is asked for. -/
theorem length_run : ∀ {supply : IdSupply} {stems : List String},
    (supply.run stems).1.length = stems.length
  | _, [] => rfl
  | supply, stem :: rest => by
    rw [run_cons, List.length_cons, List.length_cons, length_run]

/-- No identifier of a run clashes with one that is taken at its start. -/
theorem run_new : ∀ {supply : IdSupply} {stems : List String},
    ∀ id ∈ (supply.run stems).1, foldCase id ∉ supply.taken.map foldCase
  | _, [] => fun _ h => nomatch h
  | supply, stem :: rest => by
    rw [run_cons, List.forall_mem_cons]
    refine ⟨next_new supply stem, fun id hid hmem => ?_⟩
    have hafter := run_new id hid
    rw [taken_next, List.map_cons] at hafter
    exact hafter (List.mem_cons_of_mem _ hmem)

/-- No two identifiers of a run clash. -/
theorem run_distinct : ∀ {supply : IdSupply} {stems : List String},
    ((supply.run stems).1.map foldCase).Nodup
  | _, [] => List.nodup_nil
  | supply, stem :: rest => by
    rw [run_cons, List.map_cons, List.nodup_cons]
    -- The first is taken by the time the others are given out.
    refine ⟨fun hmem => ?_, run_distinct⟩
    obtain ⟨id, hid, hfold⟩ := List.mem_map.mp hmem
    have hafter := run_new id hid
    rw [taken_next, List.map_cons, hfold] at hafter
    exact hafter List.mem_cons_self

end Bindery.IdSupply
