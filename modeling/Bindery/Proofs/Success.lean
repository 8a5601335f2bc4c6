/-
# Computations that may stop

Nearly every function of this library gives a value or the fault that stopped it.  What such a
computation has done when it succeeds, or where it stopped when it fails, is read off here once for
each way in which steps are put together: one after the other, for each item of a list, with another
wording of the fault.
-/
import Mathlib.Data.List.Forall2

namespace Bindery

variable {α β ε ε' : Type}

/-! ## 1. One step after another -/

theorem bind_eq_ok_iff {x : Except ε α} {f : α → Except ε β} {b : β} :
    (x >>= f) = .ok b ↔ ∃ a, x = .ok a ∧ f a = .ok b := by
  cases x <;> simp [bind, Except.bind]

/-- A check gives no value, so all that the next step knows is that it passed. -/
theorem check_bind_eq_ok_iff {x : Except ε Unit} {f : Unit → Except ε β} {b : β} :
    (x >>= f) = .ok b ↔ x = .ok () ∧ f () = .ok b := by
  cases x <;> simp [bind, Except.bind]

theorem bind_eq_error_iff {x : Except ε α} {f : α → Except ε β} {e : ε} :
    (x >>= f) = .error e ↔ x = .error e ∨ ∃ a, x = .ok a ∧ f a = .error e := by
  cases x <;> simp [bind, Except.bind]

theorem pure_eq_ok_iff {a b : α} : (pure a : Except ε α) = .ok b ↔ a = b := by
  simp [pure, Except.pure]

theorem map_eq_ok_iff {x : Except ε α} {f : α → β} {b : β} :
    x.map f = .ok b ↔ ∃ a, x = .ok a ∧ f a = b := by
  cases x <;> simp [Except.map]

theorem map_eq_error_iff {x : Except ε α} {f : α → β} {e : ε} :
    x.map f = .error e ↔ x = .error e := by
  cases x <;> simp [Except.map]

theorem mapError_eq_ok_iff {x : Except ε α} {f : ε → ε'} {a : α} :
    x.mapError f = .ok a ↔ x = .ok a := by
  cases x <;> simp [Except.mapError]

theorem mapError_eq_error_iff {x : Except ε α} {f : ε → ε'} {e : ε'} :
    x.mapError f = .error e ↔ ∃ e', x = .error e' ∧ f e' = e := by
  cases x <;> simp [Except.mapError]

/-- A step whose value is not used succeeds with any value. -/
theorem discard_eq_ok_iff {x : Except ε α} : discard x = .ok () ↔ ∃ a, x = .ok a := by
  cases x <;> simp [discard, Functor.discard, Functor.mapConst, Except.map]

/-! ## 2. A step for each item of a list -/

theorem forM_eq_ok_iff {f : α → Except ε Unit} : ∀ {xs : List α},
    xs.forM f = .ok () ↔ ∀ x ∈ xs, f x = .ok ()
  | [] => by simp [pure, Except.pure]
  | x :: xs => by
    have ih : xs.forM f = .ok () ↔ ∀ x ∈ xs, f x = .ok () := forM_eq_ok_iff
    simp only [List.forM_eq_forM, List.forM_cons, check_bind_eq_ok_iff,
      List.forall_mem_cons] at ih ⊢
    rw [ih]

/-- A walk over a list that stops has stopped at one of its items. -/
theorem exists_of_forM_eq_error {f : α → Except ε Unit} {e : ε} : ∀ {xs : List α},
    xs.forM f = .error e → ∃ x ∈ xs, f x = .error e
  | [], h => by simp [pure, Except.pure] at h
  | x :: xs, h => by
    simp only [List.forM_eq_forM, List.forM_cons, bind_eq_error_iff] at h
    rcases h with h | ⟨_, -, h⟩
    · exact ⟨x, List.mem_cons_self, h⟩
    · obtain ⟨y, hy, hfy⟩ := exists_of_forM_eq_error h
      exact ⟨y, List.mem_cons_of_mem _ hy, hfy⟩

theorem mapM_eq_ok_iff {f : α → Except ε β} : ∀ {xs : List α} {ys : List β},
    xs.mapM f = .ok ys ↔ List.Forall₂ (fun x y => f x = .ok y) xs ys
  | [], ys => by cases ys <;> simp [pure, Except.pure]
  | x :: xs, ys => by
    simp only [List.mapM_cons, bind_eq_ok_iff, pure_eq_ok_iff, List.forall₂_cons_left_iff]
    constructor
    · rintro ⟨y, hy, rest, hrest, rfl⟩
      exact ⟨y, rest, hy, mapM_eq_ok_iff.mp hrest, rfl⟩
    · rintro ⟨y, rest, hy, hrest, rfl⟩
      exact ⟨y, hy, rest, mapM_eq_ok_iff.mpr hrest, rfl⟩

/-- A walk over a list whose steps may give nothing gives a value for each item, or nothing. -/
theorem mapM_eq_some_iff {f : α → Option β} : ∀ {xs : List α} {ys : List β},
    xs.mapM f = some ys ↔ List.Forall₂ (fun x y => f x = some y) xs ys
  | [], ys => by cases ys <;> simp
  | x :: xs, ys => by
    simp only [List.mapM_cons, Option.bind_eq_bind, Option.bind_eq_some_iff, Option.pure_def,
      Option.some.injEq, List.forall₂_cons_left_iff]
    constructor
    · rintro ⟨y, hy, rest, hrest, rfl⟩
      exact ⟨y, rest, hy, mapM_eq_some_iff.mp hrest, rfl⟩
    · rintro ⟨y, rest, hy, hrest, rfl⟩
      exact ⟨y, hy, rest, mapM_eq_some_iff.mpr hrest, rfl⟩

theorem exists_of_mapM_eq_error {f : α → Except ε β} {e : ε} : ∀ {xs : List α},
    xs.mapM f = .error e → ∃ x ∈ xs, f x = .error e
  | [], h => by simp [pure, Except.pure] at h
  | x :: xs, h => by
    simp only [List.mapM_cons, bind_eq_error_iff] at h
    rcases h with h | ⟨_, -, h | ⟨_, -, h⟩⟩
    · exact ⟨x, List.mem_cons_self, h⟩
    · obtain ⟨y, hy, hfy⟩ := exists_of_mapM_eq_error h
      exact ⟨y, List.mem_cons_of_mem _ hy, hfy⟩
    · cases h

/-- Every value that a walk over a list gives comes from one of its items. -/
theorem exists_of_mem_mapM {f : α → Except ε β} {xs : List α} {ys : List β} {y : β}
    (h : xs.mapM f = .ok ys) (hy : y ∈ ys) : ∃ x ∈ xs, f x = .ok y := by
  have hall := mapM_eq_ok_iff.mp h
  induction hall with
  | nil => cases hy
  | @cons x z xs ys hx _ ih =>
    rcases List.mem_cons.mp hy with rfl | hy
    · exact ⟨x, List.mem_cons_self, hx⟩
    · obtain ⟨w, hw, hfw⟩ := ih (mapM_eq_ok_iff.mpr ‹_›) hy
      exact ⟨w, List.mem_cons_of_mem _ hw, hfw⟩

/-- Every item of a list gives one of the values of a walk over it. -/
theorem exists_of_mapM_mem {f : α → Except ε β} {xs : List α} {ys : List β} {x : α}
    (h : xs.mapM f = .ok ys) (hx : x ∈ xs) : ∃ y ∈ ys, f x = .ok y := by
  have hall := mapM_eq_ok_iff.mp h
  induction hall with
  | nil => cases hx
  | @cons z y xs ys hz _ ih =>
    rcases List.mem_cons.mp hx with rfl | hx
    · exact ⟨y, List.mem_cons_self, hz⟩
    · obtain ⟨w, hw, hfw⟩ := ih (mapM_eq_ok_iff.mpr ‹_›) hx
      exact ⟨w, List.mem_cons_of_mem _ hw, hfw⟩

/-- A walk over a list succeeds if each of its steps does. -/
theorem exists_mapM_eq_ok {f : α → Except ε β} : ∀ {xs : List α},
    (∀ x ∈ xs, ∃ y, f x = .ok y) → ∃ ys, xs.mapM f = .ok ys
  | [], _ => ⟨[], rfl⟩
  | x :: xs, h => by
    obtain ⟨y, hy⟩ := h x List.mem_cons_self
    obtain ⟨ys, hys⟩ := exists_mapM_eq_ok fun z hz => h z (List.mem_cons_of_mem _ hz)
    exact ⟨y :: ys, mapM_eq_ok_iff.mpr (.cons hy (mapM_eq_ok_iff.mp hys))⟩

theorem mapM_eq_ok_map {f : α → Except ε β} {g : α → β} {xs : List α}
    (h : ∀ x ∈ xs, f x = .ok (g x)) : xs.mapM f = .ok (xs.map g) :=
  mapM_eq_ok_iff.mpr (List.forall₂_map_right_iff.mpr (List.forall₂_same.mpr h))

/-- Walks whose steps agree on a list agree. -/
theorem mapM_congr_left {f g : α → Except ε β} : ∀ {xs : List α},
    (∀ x ∈ xs, f x = g x) → xs.mapM f = xs.mapM g
  | [], _ => rfl
  | x :: xs, h => by
    have hrest := mapM_congr_left fun y hy => h y (List.mem_cons_of_mem _ hy)
    rw [List.mapM_cons, List.mapM_cons, h x List.mem_cons_self, hrest]

/-- Walks give the same values if their steps do. -/
theorem mapM_eq_ok_congr {f : α → Except ε β} {g : α → Except ε' β} : ∀ {xs : List α} {ys : List β},
    (∀ x ∈ xs, ∀ y, f x = .ok y ↔ g x = .ok y) → (xs.mapM f = .ok ys ↔ xs.mapM g = .ok ys)
  | [], ys, _ => by simp [pure, Except.pure]
  | x :: xs, ys, h => by
    have hrest : ∀ {rest : List β}, xs.mapM f = .ok rest ↔ xs.mapM g = .ok rest :=
      mapM_eq_ok_congr fun y hy => h y (List.mem_cons_of_mem _ hy)
    simp only [List.mapM_cons, bind_eq_ok_iff, pure_eq_ok_iff, h x List.mem_cons_self, hrest]

end Bindery
