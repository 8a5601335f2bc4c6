/-
# Compression

`Deflate.compress` turns bytes into raw compressed data of the form that archives use.  The tokens of
the data go out in blocks of a fixed number of tokens; a block that is full while tokens may still
follow is not the last one, even if none follows.
-/
import Bindery.Deflate.Block
import Bindery.Deflate.Matching

namespace Bindery.Deflate

/-- How many tokens fill a block. -/
def blockTokens : Nat := 16383

/-- How many bytes a token stands for. -/
def Token.size : Token → Nat
  | .literal _ => 1
  | .copy length _ => length

/-- Whether the last block may be full: only if its last token is the last byte of the data. -/
def endsFull (tokens : Array Token) : Bool :=
  match tokens.back? with
  | some (.literal _) => true
  | _ => false

/-- Writes the tokens from `first` on, which stand for the bytes from `start` on, in at most
`blocks` blocks. -/
def writeBlocks (data : ByteArray) (tokens : Array Token) :
    (blocks first start : Nat) → BitWriter → BitWriter
  | 0, _, _, writer => writer
  | blocks + 1, first, start, writer =>
    let block := tokens.extract first (first + blockTokens)
    let stop := block.foldl (fun position token => position + token.size) start
    let rest := tokens.size - first
    let isLast := rest < blockTokens || (rest == blockTokens && endsFull tokens)
    let writer := writeBlock isLast (data.extract start stop) block writer
    if isLast then writer
    else writeBlocks data tokens blocks (first + blockTokens) stop writer

/-- The compressed form of some bytes. -/
def compress (data : ByteArray) : ByteArray :=
  let tokens := tokens data
  (writeBlocks data tokens (tokens.size / blockTokens + 1) 0 0 .empty).align.bytes

end Bindery.Deflate
