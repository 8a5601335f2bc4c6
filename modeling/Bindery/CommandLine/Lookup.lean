/-
# What a command looks up

A command is a function of the disk, but it looks at few places of it.  `packLookups` and `makeLookups`
name them, so that the rest of the disk need not be at hand.  What a book is made of stands in its
recipe file; its sources are named as soon as the disk holds that file.
-/
import Bindery.CommandLine

namespace Bindery.CommandLine

/-! ## 1. Places -/

/-- A place that a command looks at. -/
structure Lookup where
  location : Location
  /-- Whether all that is below it is looked at too. -/
  isWhole : Bool
  deriving DecidableEq, Repr

/-- The places on the way to a location and that location, each as the names that lead to it from the
top without `..`. -/
def Lookup.steps (lookup : Lookup) : List (List String) :=
  let names := lookup.location.names
  (List.range (names.length + 1)).map fun length => Location.resolveNames (names.take length)

/-- The places of sources that a reader is asked for; a source that it cannot locate has none. -/
def sourceLookups (reader : Reader) (sources : List String) : List Lookup :=
  sources.filterMap fun source =>
    match reader.resolve source with
    | .ok location => if Disk.hasNul location then none else some ⟨location, true⟩
    | .error _ => none

/-! ## 2. Commands -/

/-- The places that the packing command looks at. -/
def packLookups (disk : Disk) (arguments : List String) : List Lookup :=
  match packGrammar.read arguments with
  | .error _ => []
  | .ok taken =>
    match locateGiven disk taken "output" with
    | .error _ => []
    | .ok output =>
      ⟨output, false⟩ :: sourceLookups ⟨disk, ⟨"/", disk.workingDirectory⟩⟩ (taken.paths.getD [])

/-- The sources of the book that is ordered, if the disk holds its recipe. -/
def Order.sources (disk : Disk) (order : Order) : List String :=
  match do Recipe.book (← order.find disk) with
  | .error _ => []
  | .ok book => ((Layout.of book).copied book).map (·.1)

/-- The places that the making command looks at. -/
def makeLookups (disk : Disk) (arguments : List String) : List Lookup :=
  match makeGrammar.read arguments with
  | .error _ => []
  | .ok taken =>
    match Order.of disk taken with
    | .error _ => []
    | .ok order =>
      ⟨order.recipeFile, true⟩ :: ⟨order.output, false⟩ ::
        sourceLookups ⟨disk, order.base⟩ (order.sources disk)

end Bindery.CommandLine
