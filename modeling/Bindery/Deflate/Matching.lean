/-
# Finding copies

Data is cut into tokens from left to right.  For every position the positions before it that start
with the same three bytes (more exactly: that share a hash of three bytes) are tried from the nearest
on, and the longest copy is kept.  A copy is not used at once: if the next position has a longer one,
a single byte goes out instead.  The limits below say how far and how long the search goes on, and
so fix the tokens and with them the size of the compressed data.
-/
import Bindery.Deflate.Token

namespace Bindery.Deflate

/-! ## 1. Limits -/

/-- A copy of this length is good enough to look for a longer one with a quarter of the effort. -/
def goodLength : Nat := 8

/-- A copy of this length is not given up for a longer one. -/
def lazyLength : Nat := 16

/-- A copy of this length ends the search. -/
def niceLength : Nat := 128

/-- How many positions are tried. -/
def maxTries : Nat := 128

/-- The farthest copy. -/
def maxDistance : Nat := 32506

/-- The farthest copy of the shortest length that is worth its bits. -/
def maxShortDistance : Nat := 4096

/-! ## 2. Earlier positions -/

/-- The number of hashes. -/
def hashCount : Nat := 32768

/-- The byte at a position, zero past the end. -/
def byteAt (data : ByteArray) (position : Nat) : UInt8 :=
  if h : position < data.size then data[position] else 0

/-- The hash of the three bytes at a position. -/
def hashAt (data : ByteArray) (position : Nat) : Nat :=
  let first := (byteAt data position).toUInt32
  let second := (byteAt data (position + 1)).toUInt32
  let third := (byteAt data (position + 2)).toUInt32
  ((first <<< 10) ^^^ (second <<< 5) ^^^ third).toNat % hashCount

/-- The positions entered so far, linked by hash: for each hash the last position, for each position
the one before it with its hash.  Zero stands for none, so the first position is never found. -/
structure Chains where
  last : Array Nat
  before : Array Nat

/-- No positions yet, of data of a size. -/
def Chains.empty (size : Nat) : Chains :=
  ⟨Array.replicate hashCount 0, Array.replicate size 0⟩

/-- Enters a position; gives the last position before it with its hash. -/
def Chains.enter (data : ByteArray) (position : Nat) : Chains → Nat × Chains
  | ⟨last, before⟩ =>
    let hash := hashAt data position
    let found := last.getD hash 0
    (found, ⟨last.setIfInBounds hash position, before.setIfInBounds position found⟩)

/-- Enters `count` positions from `position` on, but none where fewer than three bytes are left. -/
def Chains.enterAll (data : ByteArray) : (count position : Nat) → Chains → Chains
  | 0, _, chains => chains
  | count + 1, position, chains =>
    if position + minLength ≤ data.size then
      enterAll data count (position + 1) (chains.enter data position).2
    else chains

/-! ## 3. The longest copy -/

/-- How many bytes at two positions agree, `limit` at most, added to `agreed`. -/
def agreement (data : ByteArray) (left right : Nat) : (limit agreed : Nat) → Nat
  | 0, agreed => agreed
  | limit + 1, agreed =>
    if byteAt data left = byteAt data right then
      agreement data (left + 1) (right + 1) limit (agreed + 1)
    else agreed

/-- A copy that was found: its length and where it starts. -/
structure Found where
  length : Nat
  start : Nat
  deriving DecidableEq, Repr

/-- Nothing found. -/
def Found.none : Found := ⟨minLength - 1, 0⟩

/-- Tries `candidate` and the positions before it with its hash for a copy longer than `best`. -/
def search (data : ByteArray) (before : Array Nat) (position nice : Nat) :
    (tries candidate : Nat) → (best : Found) → Found
  | 0, _, best => best
  | tries + 1, candidate, best =>
    let limit := min maxLength (data.size - position)
    -- A longer copy agrees where the best one ends.
    let length :=
      if byteAt data (candidate + best.length) = byteAt data (position + best.length) then
        agreement data candidate position limit 0
      else 0
    let better := if best.length < length then ⟨length, candidate⟩ else best
    if best.length < length ∧ nice ≤ length then better
    else
      let next := before.getD candidate 0
      if next ≤ position - maxDistance then better
      else search data before position nice tries next better

/-- The copy for a position, when the position before has one of `previous` bytes.  `candidate` is
the nearest position with the same hash. -/
def longest (data : ByteArray) (before : Array Nat) (position candidate : Nat) (previous : Found) :
    Found :=
  let left := data.size - position
  if candidate = 0 ∨ lazyLength ≤ previous.length ∨ position - candidate > maxDistance then .none
  else
    let tries := if goodLength ≤ previous.length then maxTries / 4 else maxTries
    let best := search data before position (min niceLength left) tries candidate previous
    let length := min best.length left
    if length = minLength ∧ position - best.start > maxShortDistance then .none
    else ⟨length, best.start⟩

/-! ## 4. Tokens -/

/-- How far the cutting has come. -/
structure Cutting where
  position : Nat
  chains : Chains
  /-- The copy found at the position before. -/
  previous : Found
  /-- Whether the byte before is still to go out. -/
  pending : Bool
  tokens : Array Token

/-- The byte before `position` as a token. -/
def literalBefore (data : ByteArray) (position : Nat) : Token :=
  .literal (byteAt data (position - 1))

/-- Cuts at the current position: the copy at the position before goes out unless the one here is
longer. -/
def Cutting.step (data : ByteArray) : Cutting → Cutting
  | ⟨position, chains, previous, pending, tokens⟩ =>
    let (candidate, chains) :=
      if position + minLength ≤ data.size then chains.enter data position else (0, chains)
    let here := longest data chains.before position candidate previous
    if minLength ≤ previous.length ∧ here.length ≤ previous.length then
      let copy := .copy previous.length (position - 1 - previous.start)
      { position := position + previous.length - 1
        chains := chains.enterAll data (previous.length - 2) (position + 1)
        previous := .none
        pending := false
        tokens := tokens.push copy }
    else
      { position := position + 1
        chains
        previous := here
        pending := true
        tokens := if pending then tokens.push (literalBefore data position) else tokens }

/-- Cuts up to the end of the data; every step takes a byte or more. -/
def Cutting.run (data : ByteArray) : (steps : Nat) → Cutting → Cutting
  | 0, cutting => cutting
  | steps + 1, cutting =>
    if cutting.position < data.size then run data steps (cutting.step data) else cutting

/-- The tokens of data. -/
def tokens (data : ByteArray) : Array Token :=
  let cutting := Cutting.run data data.size ⟨0, .empty data.size, .none, false, #[]⟩
  if cutting.pending then cutting.tokens.push (literalBefore data cutting.position)
  else cutting.tokens

end Bindery.Deflate
