/-
# Tokens of compressed data

Compressed data is a row of tokens: single bytes, and copies of bytes that came before.  A copy is
written as a code for a range of lengths or distances and, in extra bits, the place in that range.
-/
namespace Bindery.Deflate

/-! ## 1. Tokens -/

/-- A byte, or a copy of `length` bytes from `distance` bytes back. -/
inductive Token where
  | literal (byte : UInt8)
  | copy (length distance : Nat)
  deriving DecidableEq, Repr

/-- The shortest copy. -/
def minLength : Nat := 3

/-- The longest copy. -/
def maxLength : Nat := 258

/-! ## 2. Ranges -/

/-- A number written as the code of its range and its place in the range. -/
structure Ranged where
  code : Nat
  extraBits : Nat
  extra : Nat
  deriving DecidableEq, Repr

/-- The least length of each range of lengths; the greatest length has a range of its own. -/
def lengthBases : List Nat :=
  [3, 4, 5, 6, 7, 8, 9, 10, 11, 13, 15, 17, 19, 23, 27, 31, 35, 43, 51, 59, 67, 83, 99, 115, 131,
    163, 195, 227, 258]

/-- The least distance of each range of distances. -/
def distanceBases : List Nat :=
  [1, 2, 3, 4, 5, 7, 9, 13, 17, 25, 33, 49, 65, 97, 129, 193, 257, 385, 513, 769, 1025, 1537, 2049,
    3073, 4097, 6145, 8193, 12289, 16385, 24577]

/-- How many extra bits a range of lengths has. -/
def lengthExtraBits (range : Nat) : Nat :=
  if range < 8 ∨ 28 ≤ range then 0 else range / 4 - 1

/-- How many extra bits a range of distances has. -/
def distanceExtraBits (range : Nat) : Nat :=
  range / 2 - 1

/-- The last range of `bases` that starts at `n` or before, counted from `index`, and its base. -/
def rangeOf (n : Nat) : List Nat → (index : Nat) → Nat × Nat
  | base :: next :: rest, index =>
    if n < next then (index, base) else rangeOf n (next :: rest) (index + 1)
  | [base], index => (index, base)
  | [], index => (index, 0)

/-! ## 3. Symbols -/

/-- The symbol that ends a block. -/
def endOfBlock : Nat := 256

/-- The symbol of the first range of lengths. -/
def firstLengthSymbol : Nat := 257

/-- A length as a symbol with extra bits. -/
def lengthSymbol (length : Nat) : Ranged :=
  let (range, base) := rangeOf length lengthBases 0
  ⟨firstLengthSymbol + range, lengthExtraBits range, length - base⟩

/-- A distance as a symbol with extra bits. -/
def distanceSymbol (distance : Nat) : Ranged :=
  let (range, base) := rangeOf distance distanceBases 0
  ⟨range, distanceExtraBits range, distance - base⟩

end Bindery.Deflate
