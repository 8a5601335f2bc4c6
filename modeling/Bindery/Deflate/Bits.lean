/-
# Bits

Bits are packed into bytes from the lowest bit up.
-/
namespace Bindery.Deflate

/-- Bytes with the bits that do not fill one yet. -/
structure BitWriter where
  bytes : ByteArray
  /-- The bits to come, the first the lowest. -/
  pending : UInt64
  /-- How many bits are to come, fewer than eight. -/
  count : UInt64

namespace BitWriter

/-- Nothing written yet. -/
def empty : BitWriter := ⟨ByteArray.empty, 0, 0⟩

/-- Moves full bytes out; three are enough after a write of at most sixteen bits. -/
def drain : (steps : Nat) → BitWriter → BitWriter
  | 0, writer => writer
  | steps + 1, ⟨bytes, pending, count⟩ =>
    if 8 ≤ count then drain steps ⟨bytes.push pending.toUInt8, pending >>> 8, count - 8⟩
    else ⟨bytes, pending, count⟩

/-- Writes the lowest `width` bits of `value`; `width` is at most sixteen and `value` has no more
bits. -/
def write (writer : BitWriter) (value width : Nat) : BitWriter :=
  let ⟨bytes, pending, count⟩ := writer
  drain 3 ⟨bytes, pending ||| (value.toUInt64 <<< count), count + width.toUInt64⟩

/-- Fills the last byte with zeros. -/
def align : BitWriter → BitWriter
  | ⟨bytes, pending, count⟩ =>
    if count = 0 then ⟨bytes, pending, count⟩ else ⟨bytes.push pending.toUInt8, 0, 0⟩

/-- Writes whole bytes after the last byte is filled. -/
def writeBytes (writer : BitWriter) (data : ByteArray) : BitWriter :=
  let ⟨bytes, pending, count⟩ := writer.align
  ⟨bytes ++ data, pending, count⟩

end BitWriter
end Bindery.Deflate
