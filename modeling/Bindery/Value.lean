/-
# Values of a recipe

What a recipe file holds once it is read: the values of JSON and TOML.  A table lists its fields in
the order of their first appearance, each key once.
-/
namespace Bindery

/-! ## 1. Dates and times -/

/-- A day of the calendar. -/
structure Date where
  year : Nat
  month : Nat
  day : Nat
  deriving DecidableEq, Repr

/-- A time of day. -/
structure Time where
  hour : Nat
  minute : Nat
  second : Nat
  microsecond : Nat
  deriving DecidableEq, Repr

/-- A point in time, with its distance from universal time in minutes if one is given. -/
structure DateTime where
  date : Date
  time : Time
  offset : Option Int
  deriving DecidableEq, Repr

/-! ## 2. Numbers that are not whole -/

/-- A number written with a fraction or an exponent, kept as it was written. -/
inductive Decimal where
  /-- The number `mantissa · 10 ^ exponent`. -/
  | finite (negative : Bool) (mantissa : Nat) (exponent : Int)
  | infinite (negative : Bool)
  | notANumber
  deriving DecidableEq, Repr

/-! ## 3. Values -/

/-- A value of a recipe, with its texts of a type `τ`. -/
inductive Value (τ : Type := String) where
  | null
  | bool (b : Bool)
  | int (n : Int)
  | decimal (d : Decimal)
  | text (s : τ)
  | list (items : List (Value τ))
  | table (fields : List (τ × Value τ))
  | dateTime (d : DateTime)
  | date (d : Date)
  | time (t : Time)
  deriving Repr, Inhabited

namespace Value

variable {τ υ : Type}

/-- The kinds of values that messages tell apart. -/
inductive Kind where
  | null | bool | int | decimal | text | list | table | dateTime | date | time
  deriving DecidableEq, Repr

/-- The kind of a value. -/
def kind : Value τ → Kind
  | null => .null
  | bool _ => .bool
  | int _ => .int
  | decimal _ => .decimal
  | text _ => .text
  | list _ => .list
  | table _ => .table
  | dateTime _ => .dateTime
  | date _ => .date
  | time _ => .time

/-- How messages call a kind of value. -/
def Kind.name : Kind → String
  | null => "NoneType"
  | bool => "bool"
  | int => "int"
  | decimal => "float"
  | text => "str"
  | list => "list"
  | table => "dict"
  | dateTime => "datetime"
  | date => "date"
  | time => "time"

/-- A table as the list of its fields. -/
abbrev Fields (τ : Type := String) := List (τ × Value τ)

/-- The value of a field, if the table has it. -/
def Fields.get? [BEq τ] (fields : Fields τ) (key : τ) : Option (Value τ) :=
  fields.lookup key

/-- Sets a field: a key that is there keeps its place and takes the new value. -/
def Fields.set [DecidableEq τ] (key : τ) (value : Value τ) : Fields τ → Fields τ
  | [] => [(key, value)]
  | (name, old) :: rest =>
    if name = key then (name, value) :: rest else (name, old) :: Fields.set key value rest

/-! ## 4. Values with other texts -/

mutual

/-- A value with each of its texts changed. -/
def map (f : τ → υ) : Value τ → Value υ
  | null => null
  | bool b => bool b
  | int n => int n
  | decimal d => decimal d
  | text s => text (f s)
  | list items => list (mapItems f items)
  | table fields => table (mapFields f fields)
  | dateTime d => dateTime d
  | date d => date d
  | time t => time t

/-- The items of a list with each of their texts changed. -/
def mapItems (f : τ → υ) : List (Value τ) → List (Value υ)
  | [] => []
  | item :: items => map f item :: mapItems f items

/-- The fields of a table with each of their texts changed. -/
def mapFields (f : τ → υ) : Fields τ → Fields υ
  | [] => []
  | (key, value) :: fields => (f key, map f value) :: mapFields f fields

end

@[simp] theorem kind_map (f : τ → υ) (value : Value τ) : (value.map f).kind = value.kind := by
  cases value <;> rfl

mutual

/-- Changing the texts of a value back gives the value. -/
theorem map_map_cancel {f : τ → υ} {g : υ → τ} (hcancel : ∀ s, g (f s) = s) :
    ∀ value : Value τ, (value.map f).map g = value
  | null | bool _ | int _ | decimal _ | dateTime _ | date _ | time _ => rfl
  | text s => congrArg text (hcancel s)
  | list items => congrArg list (mapItems_mapItems_cancel hcancel items)
  | table fields => congrArg table (mapFields_mapFields_cancel hcancel fields)

theorem mapItems_mapItems_cancel {f : τ → υ} {g : υ → τ} (hcancel : ∀ s, g (f s) = s) :
    ∀ items : List (Value τ), mapItems g (mapItems f items) = items
  | [] => rfl
  | item :: items => by
    rw [mapItems, mapItems, map_map_cancel hcancel item, mapItems_mapItems_cancel hcancel items]

theorem mapFields_mapFields_cancel {f : τ → υ} {g : υ → τ} (hcancel : ∀ s, g (f s) = s) :
    ∀ fields : Fields τ, mapFields g (mapFields f fields) = fields
  | [] => rfl
  | (key, value) :: fields => by
    rw [mapFields, mapFields, hcancel, map_map_cancel hcancel value,
      mapFields_mapFields_cancel hcancel fields]

end

end Value
end Bindery
