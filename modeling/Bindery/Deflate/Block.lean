/-
# Blocks of compressed data

Tokens are written in blocks.  A block has three forms: its bytes as they are, its tokens in a code
that is always the same, or its tokens in a code of its own, whose lengths come first.  The smallest
form is taken; the fixed code before an own code of the same size, and plain bytes only if they take
less than either.
-/
import Bindery.Deflate.Bits
import Bindery.Deflate.CodeLength
import Bindery.Deflate.Token

namespace Bindery.Deflate

/-! ## 1. Codes -/

/-- The lowest `width` bits of a number in the other order. -/
def reverseBits (value : Nat) : (width : Nat) → (reversed : Nat) → Nat
  | 0, reversed => reversed
  | width + 1, reversed => reverseBits (value / 2) width (2 * reversed + value % 2)

/-- A code: the length of each symbol's code and its bits, first bit lowest. -/
structure Code where
  lengths : Array Nat
  bits : Array Nat

/-- The code that lengths determine: shorter codes come first, and among codes of one length those of
lower symbols. -/
def Code.ofLengths (lengths : Array Nat) : Code :=
  let count (length : Nat) : Nat := lengths.foldl (fun n l => if l = length then n + 1 else n) 0
  let firsts := (List.range 15).foldl (fun (firsts : Array Nat) length =>
    let shorter := if length = 0 then 0 else count length
    firsts.push (2 * (firsts.getD length 0 + shorter))) #[0]
  let (bits, _) := (List.range lengths.size).foldl (fun (bits, next) symbol =>
    let length := lengths.getD symbol 0
    let value := (next : Array Nat).getD length 0
    ((bits : Array Nat).push (reverseBits value length 0),
      if length = 0 then next else next.setIfInBounds length (value + 1))) (#[], firsts)
  ⟨lengths, bits⟩

/-- Writes a symbol. -/
def Code.write (code : Code) (symbol : Nat) (writer : BitWriter) : BitWriter :=
  writer.write (code.bits.getD symbol 0) (code.lengths.getD symbol 0)

/-- The lengths of the fixed code of bytes and copy lengths. -/
def fixedLengths : Array Nat :=
  Array.replicate 144 8 ++ Array.replicate 112 9 ++ Array.replicate 24 7 ++ Array.replicate 8 8

/-- The lengths of the fixed code of distances. -/
def fixedDistanceLengths : Array Nat :=
  Array.replicate 30 5

/-! ## 2. Frequencies -/

/-- How often each symbol occurs in a block, the end of the block included. -/
structure Frequencies where
  symbols : Array Nat
  distances : Array Nat

/-- Adds one to a count. -/
def countUp (counts : Array Nat) (symbol : Nat) : Array Nat :=
  counts.setIfInBounds symbol (counts.getD symbol 0 + 1)

/-- Counts the symbols of a block. -/
def Frequencies.of (tokens : Array Token) : Frequencies :=
  tokens.foldl (fun ⟨symbols, distances⟩ token =>
    match token with
    | .literal byte => ⟨countUp symbols byte.toNat, distances⟩
    | .copy length distance =>
      ⟨countUp symbols (lengthSymbol length).code,
        countUp distances (distanceSymbol distance).code⟩)
    ⟨countUp (Array.replicate 286 0) endOfBlock, Array.replicate 30 0⟩

/-- How many bits symbols take: their codes and their extra bits. -/
def bitCount (frequencies lengths : Array Nat) (extraBits : Nat → Nat) : Nat :=
  (List.range frequencies.size).foldl (fun count symbol =>
    count + frequencies.getD symbol 0 * (lengths.getD symbol 0 + extraBits symbol)) 0

/-- The extra bits of a symbol for a byte, the end of the block or a length. -/
def symbolExtraBits (symbol : Nat) : Nat :=
  if symbol < firstLengthSymbol then 0 else lengthExtraBits (symbol - firstLengthSymbol)

/-- How many bits the tokens of a block take in codes of the given lengths. -/
def Frequencies.bitCount (frequencies : Frequencies) (lengths distanceLengths : Array Nat) : Nat :=
  Deflate.bitCount frequencies.symbols lengths symbolExtraBits +
    Deflate.bitCount frequencies.distances distanceLengths distanceExtraBits

/-! ## 3. Lengths of codes, themselves in a code -/

/-- Cuts a row into runs of equal numbers: each number with how often it comes in a row. -/
def runs : List Nat → List (Nat × Nat)
  | [] => []
  | n :: rest =>
    match runs rest with
    | (m, count) :: more => if n = m then (m, count + 1) :: more else (n, 1) :: (m, count) :: more
    | [] => [(n, 1)]

/-- A run of zeros: up to 138 at once. -/
def zeroRun : (fuel count : Nat) → List Ranged
  | 0, _ => []
  | fuel + 1, count =>
    if count = 0 then []
    else if count < 3 then List.replicate count ⟨0, 0, 0⟩
    else if count ≤ 10 then [⟨17, 3, count - 3⟩]
    else if count ≤ 138 then [⟨18, 7, count - 11⟩]
    else ⟨18, 7, 127⟩ :: zeroRun fuel (count - 138)

/-- A length that is repeated: up to six times at once. -/
def repeatedLength (length : Nat) : (fuel count : Nat) → List Ranged
  | 0, _ => []
  | fuel + 1, count =>
    if count = 0 then []
    else if count < 3 then List.replicate count ⟨length, 0, 0⟩
    else if count ≤ 6 then [⟨16, 2, count - 3⟩]
    else ⟨16, 2, 3⟩ :: repeatedLength length fuel (count - 6)

/-- A run of one length: a length that is not zero goes out once before it can be repeated. -/
def runSymbols : Nat × Nat → List Ranged
  | (0, count) => zeroRun count count
  | (length, count) => ⟨length, 0, 0⟩ :: repeatedLength length count (count - 1)

/-- The lengths of a code as symbols. -/
def lengthSymbols (lengths : List Nat) : List Ranged :=
  (runs lengths).flatMap runSymbols

/-- The order in which the lengths of the code for lengths are written. -/
def lengthCodeOrder : List Nat :=
  [16, 17, 18, 0, 8, 7, 9, 6, 10, 5, 11, 4, 12, 3, 13, 2, 14, 1, 15]

/-- A row without the zeros at its end, but not shorter than `least`. -/
def trimZeros (least : Nat) (lengths : List Nat) : List Nat :=
  let used := (lengths.reverse.dropWhile (· = 0)).length
  lengths.take (max least used)

/-- What comes before the tokens of a block with codes of its own. -/
structure Header where
  symbolLengths : List Nat
  distanceLengths : List Nat
  /-- The lengths of both codes as symbols. -/
  symbols : List Ranged
  /-- The lengths of the code that these symbols are written in. -/
  codeLengths : Array Nat

/-- The header for two codes. -/
def Header.of (lengths distanceLengths : Array Nat) : Header :=
  let symbolLengths := trimZeros 1 lengths.toList
  let distanceLengths := trimZeros 1 distanceLengths.toList
  let symbols := lengthSymbols symbolLengths ++ lengthSymbols distanceLengths
  let frequencies := symbols.foldl (fun counts symbol => countUp counts symbol.code)
    (Array.replicate 19 0)
  ⟨symbolLengths, distanceLengths, symbols, Deflate.codeLengths 7 frequencies⟩

/-- The lengths of the code for lengths as they are written. -/
def Header.ordered (header : Header) : List Nat :=
  trimZeros 4 (lengthCodeOrder.map (header.codeLengths.getD · 0))

/-- How many bits a header takes. -/
def Header.bitCount (header : Header) : Nat :=
  14 + 3 * header.ordered.length +
    header.symbols.foldl (fun count symbol =>
      count + header.codeLengths.getD symbol.code 0 + symbol.extraBits) 0

/-- Writes a header. -/
def Header.write (header : Header) (writer : BitWriter) : BitWriter :=
  let writer := writer.write (header.symbolLengths.length - 257) 5
  let writer := writer.write (header.distanceLengths.length - 1) 5
  let writer := writer.write (header.ordered.length - 4) 4
  let writer := header.ordered.foldl (fun writer length => writer.write length 3) writer
  let code := Code.ofLengths header.codeLengths
  header.symbols.foldl (fun writer symbol =>
    (code.write symbol.code writer).write symbol.extra symbol.extraBits) writer

/-! ## 4. Writing a block -/

/-- Writes a token. -/
def Token.write (code distanceCode : Code) (writer : BitWriter) : Token → BitWriter
  | .literal byte => code.write byte.toNat writer
  | .copy length distance =>
    let l := lengthSymbol length
    let d := distanceSymbol distance
    let writer := (code.write l.code writer).write l.extra l.extraBits
    (distanceCode.write d.code writer).write d.extra d.extraBits

/-- Writes the tokens of a block and its end. -/
def writeTokens (code distanceCode : Code) (tokens : Array Token) (writer : BitWriter) : BitWriter :=
  code.write endOfBlock (tokens.foldl (Token.write code distanceCode) writer)

/-- A number in two bytes, the lower first. -/
def twoBytes (n : Nat) : ByteArray :=
  ⟨#[(n % 256).toUInt8, (n / 256 % 256).toUInt8]⟩

/-- The number of bytes that some bits and the three that start a block take. -/
def byteCount (bits : Nat) : Nat :=
  (bits + 3 + 7) / 8

/-- Writes a block: the tokens, which stand for the bytes `bytes`, in the smallest form. -/
def writeBlock (isLast : Bool) (bytes : ByteArray) (tokens : Array Token) (writer : BitWriter) :
    BitWriter :=
  let lastBit := if isLast then 1 else 0
  let frequencies := Frequencies.of tokens
  let lengths := codeLengths 15 frequencies.symbols
  let distanceLengths := codeLengths 15 frequencies.distances
  let header := Header.of lengths distanceLengths
  let fixedSize := byteCount (frequencies.bitCount fixedLengths fixedDistanceLengths)
  let ownSize := byteCount (frequencies.bitCount lengths distanceLengths + header.bitCount)
  if bytes.size + 4 ≤ min fixedSize ownSize then
    let writer := (writer.write lastBit 3).writeBytes (twoBytes bytes.size)
    writer.writeBytes (twoBytes (65535 - bytes.size) ++ bytes)
  else if fixedSize ≤ ownSize then
    writeTokens (.ofLengths fixedLengths) (.ofLengths fixedDistanceLengths) tokens
      (writer.write (2 + lastBit) 3)
  else
    writeTokens (.ofLengths lengths) (.ofLengths distanceLengths) tokens
      (header.write (writer.write (4 + lastBit) 3))

end Bindery.Deflate
