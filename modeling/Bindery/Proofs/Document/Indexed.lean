/-
# Writing by position is writing the tree

Where a table has a tree at a position, walking the table from there numbers and writes that tree
(`elementAt_eq`, by induction on the levels).  So the document that is written from the table of a forest is
the document of the forest (`elementOf_ofForest`), and neither misses a position.
-/
import Bindery.Document.Indexed
import Bindery.Proofs.Outline.Levels
import Bindery.Proofs.Success

namespace Bindery.Document.Navigation

open Xml

/-! ## 1. Steps -/

namespace Walking

variable {α β : Type}

@[simp] theorem ofCounting_pure (a : α) : ofCounting (pure a) = pure a := rfl

@[simp] theorem ofCounting_bind (step : Counting α) (next : α → Counting β) :
    ofCounting (step >>= next) = ofCounting step >>= fun a => ofCounting (next a) := by
  funext numbering
  show ExceptT.mk (some (step numbering >>= fun made => next made.1 made.2)) =
    ExceptT.mk (some (step numbering)) >>= fun made => ExceptT.mk (some (next made.1 made.2))
  cases step numbering <;> rfl

@[simp] theorem ofFound_some_bind (a : α) (next : α → Walking β) :
    (ofFound (some a) >>= next) = next a := rfl

end Walking

open Walking

/-! ## 2. The elements -/

variable {layout : Layout} {entries : List OutlineEntry}

/-- Walking neighbouring positions writes their trees, if walking each of them does. -/
theorem mapM_walk_eq {find : Nat → Option NavTree} {walk : Nat → Walking Element}
    (hwalk : ∀ position tree, find position = some tree →
      walk position = ofCounting (entryElement <$> numberTree layout tree)) :
    ∀ {positions : List Nat} {forest : List NavTree}, positions.mapM find = some forest →
      positions.mapM walk = ofCounting (entryElements <$> numberForest layout forest)
  | [], forest, h => by
    obtain rfl : [] = forest := by simpa using h
    rfl
  | position :: positions, forest, h => by
    cases mapM_eq_some_iff.mp h with
    | @cons _ tree _ rest htree hrest =>
      rw [List.mapM_cons, hwalk position tree htree, mapM_walk_eq hwalk (mapM_eq_some_iff.mpr hrest)]
      simp only [map_eq_pure_bind, numberForest, ofCounting_bind, ofCounting_pure, bind_assoc, pure_bind,
        entryElements]

/-- **The walk from a position writes the tree that is there.** -/
theorem elementAt_eq : ∀ {levels position : Nat} {tree : NavTree},
    Outline.tree? entries levels position = some tree →
      elementAt layout entries levels position = ofCounting (entryElement <$> numberTree layout tree)
  | 0, _, _, h => by cases h
  | levels + 1, position, tree, h => by
    simp only [Outline.tree?, Option.bind_eq_bind, Option.bind_eq_some_iff, Option.pure_def,
      Option.some.injEq] at h
    obtain ⟨entry, hentry, children, hchildren, rfl⟩ := h
    have hbelow : entry.children.mapM (elementAt layout entries levels) =
        ofCounting (entryElements <$> numberForest layout children) :=
      mapM_walk_eq (fun _ _ => elementAt_eq) hchildren
    rw [elementAt, hentry, ofFound_some_bind, hbelow]
    simp only [map_eq_pure_bind, numberTree, ofCounting_bind, ofCounting_pure, bind_assoc, pure_bind,
      entryElement]

theorem elementsOf_eq {outline : Outline} {forest : List NavTree} (h : outline.forest? = some forest) :
    elementsOf layout outline = ofCounting (entryElements <$> numberForest layout forest) :=
  mapM_walk_eq (fun _ _ => elementAt_eq) h

/-! ## 3. The document -/

/-- What stands behind the title of a document. -/
def bodyElements (targets : Targets) : List Element :=
  .branch "navMap" [] (entryElements targets.contents) ::
    (pageListElement targets.pages ++ targets.lists.map listElement)

theorem bodyOf_eq {outline : Outline} {forest : List NavTree} {book : Book}
    (h : outline.forest? = some forest) :
    bodyOf layout book outline = ofCounting (bodyElements <$> Targets.count layout book forest) := by
  rw [bodyOf, elementsOf_eq h]
  simp only [map_eq_pure_bind, Targets.count, ofCounting_bind, ofCounting_pure, bind_assoc, pure_bind,
    bodyElements]

theorem bodyOf_run_eq {outline : Outline} {forest : List NavTree} {book : Book}
    (h : outline.forest? = some forest) (numbering : Numbering) :
    (bodyOf layout book outline).run' numbering =
      ExceptT.mk (some (bodyElements <$> (Targets.count layout book forest).run' numbering)) := by
  rw [bodyOf_eq h]
  show (ExceptT.mk (some (Targets.count layout book forest numbering >>= fun counted =>
      pure (bodyElements counted.1, counted.2))) >>= fun written => pure written.1) =
    ExceptT.mk (some (bodyElements <$> Prod.fst <$> Targets.count layout book forest numbering))
  cases Targets.count layout book forest numbering <;> rfl

/-- **The document that is written by position is the document of the tree.** -/
theorem elementOf_ofForest (layout : Layout) (book : Book) (metadata : Metadata) (firstLinear : String) :
    elementOf layout book metadata (.ofForest (contentsOf book metadata.title firstLinear)) =
      ExceptT.mk (some (element layout book metadata firstLinear)) := by
  generalize hcontents : contentsOf book metadata.title firstLinear = forest
  have hbody : ∀ numbering, (bodyOf layout book (.ofForest forest)).run' numbering =
      ExceptT.mk (some (bodyElements <$> (Targets.count layout book forest).run' numbering)) :=
    bodyOf_run_eq (Outline.forest?_ofForest forest)
  have hlevels : (liftM (some (⟨[], NavTree.depthAll forest⟩ : Outline.LevelCount)) :
      ExceptT Fault Option Outline.LevelCount) = pure ⟨[], NavTree.depthAll forest⟩ := rfl
  rw [elementOf, element, hcontents, Outline.LevelCount.run_ofForest, hlevels, pure_bind]
  dsimp only
  rw [hbody, Targets.of]
  cases maxPageNumber (book.pages.getD []) with
  | error fault => rfl
  | ok maxPage =>
    have hmax : (liftM (Except.ok maxPage : Except Fault Nat) : ExceptT Fault Option Nat) =
      pure maxPage := rfl
    have hok : (Except.ok maxPage : Except Fault Nat) = pure maxPage := rfl
    rw [hmax, hok, pure_bind, pure_bind]
    cases (headElement metadata.identifier (NavTree.depthAll forest) (book.pages.getD []).length
      maxPage).isLegal with
    | false => rfl
    | true =>
      cases (Targets.count layout book forest).run' (.beside ((book.pages.getD []).map (·.id))) <;> rfl

end Bindery.Document.Navigation
