/-
# Lengths of codes

Symbols that are frequent get short codes.  The two rarest nodes are joined over and over until one
tree is left, and the depth of a symbol in it is the length of its code; of two nodes that are
equally frequent the shallower counts as the rarer.  Lengths beyond the greatest length allowed are
brought back to it, at the cost of lengthening a shorter code for each two of them.
-/
namespace Bindery.Deflate

/-! ## 1. A heap of nodes -/

/-- A node that is still to be joined. -/
structure HeapNode where
  index : Nat
  frequency : Nat
  depth : Nat
  deriving Inhabited

/-- Whether one node comes out of the heap before another, or with it. -/
def HeapNode.le (left right : HeapNode) : Bool :=
  left.frequency < right.frequency ||
    (left.frequency == right.frequency && left.depth ≤ right.depth)

/-- Nodes as a heap: the children of the node at `i` are at `2 i + 1` and `2 i + 2`. -/
abbrev Heap := Array HeapNode

namespace Heap

/-- Lets `node` sink from the free place `place` until its children do not come before it; at most
`steps` levels. -/
def sink (node : HeapNode) : (steps place : Nat) → Heap → Heap
  | 0, place, heap => heap.setIfInBounds place node
  | steps + 1, place, heap =>
    let left := 2 * place + 1
    if left < heap.size then
      let child :=
        if left + 1 < heap.size && (heap.getD (left + 1) node).le (heap.getD left node) then
          left + 1
        else left
      let lower := heap.getD child node
      if node.le lower then heap.setIfInBounds place node
      else sink node steps child (heap.setIfInBounds place lower)
    else heap.setIfInBounds place node

/-- Lets the node at a place sink. -/
def settle (heap : Heap) (place : Nat) : Heap :=
  match heap[place]? with
  | some node => sink node heap.size place heap
  | none => heap

/-- A heap of nodes in any order. -/
def ofArray (nodes : Array HeapNode) : Heap :=
  (List.range (nodes.size / 2)).reverse.foldl settle nodes

/-- Takes the first node out. -/
def takeFirst (heap : Heap) : Heap :=
  match heap.back? with
  | some last => settle (heap.pop.setIfInBounds 0 last) 0
  | none => heap

end Heap

/-! ## 2. The tree -/

/-- What is known while nodes are joined: the parent of each node, and the nodes in the order in
which they were taken out. -/
structure Joining where
  heap : Heap
  parents : Array Nat
  order : List Nat

/-- Joins the two rarest nodes under the node `index`. -/
def Joining.step (joining : Joining) (index : Nat) : Joining :=
  match joining.heap[0]? with
  | none => joining
  | some first =>
    let rest := joining.heap.takeFirst
    match rest[0]? with
    | none => joining
    | some second =>
      let parent : HeapNode :=
        ⟨index, first.frequency + second.frequency, max first.depth second.depth + 1⟩
      { heap := Heap.settle (rest.setIfInBounds 0 parent) 0
        parents := (joining.parents.setIfInBounds first.index index).setIfInBounds
          second.index index
        order := second.index :: first.index :: joining.order }

/-- The symbols that take part in a code: those that occur, and as many others, of frequency one, as
make two.  The others are the first after the last that occurs while that is less than two, and
else symbol zero. -/
def participants (frequencies : Array Nat) : Array HeapNode :=
  let occurring := ((List.range frequencies.size).filter (frequencies.getD · 0 ≠ 0)).toArray.map
    fun symbol => (⟨symbol, frequencies.getD symbol 0, 0⟩ : HeapNode)
  match occurring[0]?, occurring[1]? with
  | none, _ => #[⟨0, 1, 0⟩, ⟨1, 1, 0⟩]
  | some only, none => occurring.push ⟨if only.index < 2 then only.index + 1 else 0, 1, 0⟩
  | some _, some _ => occurring

/-- The depths of the nodes, the root first, where a node deeper than `limit` counts as at `limit`;
and how many nodes are deeper. -/
def depths (limit : Nat) (parents : Array Nat) (order : List Nat) (nodes : Nat) :
    Array Nat × Nat :=
  order.foldl (fun (lengths, tooDeep) node =>
    let depth := lengths.getD (parents.getD node 0) 0 + 1
    if limit < depth then (lengths.setIfInBounds node limit, tooDeep + 1)
    else (lengths.setIfInBounds node depth, tooDeep)) (Array.replicate nodes 0, 0)

/-! ## 3. Too long codes -/

/-- How many codes there are of each length, brought back to the greatest length: for each two codes
that were too long a code of the longest length in use below it is lengthened. -/
def shorten (limit : Nat) : (tooDeep : Nat) → (counts : Array Nat) → Array Nat
  | 0, counts => counts
  | tooDeep + 1, counts =>
    let donor := ((List.range limit).reverse.find? (counts.getD · 0 ≠ 0)).getD 0
    let counts := counts.setIfInBounds donor (counts.getD donor 0 - 1)
    let counts := counts.setIfInBounds (donor + 1) (counts.getD (donor + 1) 0 + 2)
    let counts := counts.setIfInBounds limit (counts.getD limit 0 - 1)
    shorten limit (tooDeep - 1) counts

/-- Gives lengths out by the counts, the longest to the symbols that were taken out first. -/
def redistribute (limit : Nat) (counts : Array Nat) (symbols : List Nat) (lengths : Array Nat) :
    Array Nat :=
  let longestFirst := (List.range (limit + 1)).reverse.flatMap fun length =>
    if length = 0 then [] else List.replicate (counts.getD length 0) length
  (symbols.zip longestFirst).foldl (fun lengths (symbol, length) =>
    lengths.setIfInBounds symbol length) lengths

/-! ## 4. The lengths -/

/-- The length of the code of each symbol, none beyond `limit`; zero for a symbol without a code. -/
def codeLengths (limit : Nat) (frequencies : Array Nat) : Array Nat :=
  let size := frequencies.size
  let nodes := participants frequencies
  let start : Joining := ⟨Heap.ofArray nodes, Array.replicate (2 * size) 0, []⟩
  let joined := (List.range (nodes.size - 1)).foldl (fun joining step =>
    joining.step (size + step)) start
  let (lengths, tooDeep) := depths limit joined.parents joined.order (2 * size)
  if tooDeep = 0 then lengths.extract 0 size
  else
    -- The symbols in the order in which they were taken out, the rarest first.
    let symbols := joined.order.reverse.filter (· < size)
    let counts := symbols.foldl (fun counts symbol =>
      let length := lengths.getD symbol 0
      counts.setIfInBounds length (counts.getD length 0 + 1)) (Array.replicate (limit + 2) 0)
    (redistribute limit (shorten limit tooDeep counts) symbols lengths).extract 0 size

end Bindery.Deflate
