/-
# Checksums

The 32-bit cyclic redundancy check that an archive records for each entry.
-/
namespace Bindery.Archive

/-- One bit of the division by the generator polynomial, lowest bit first. -/
def checksumBit (remainder : UInt32) : UInt32 :=
  if remainder &&& 1 = 1 then (remainder >>> 1) ^^^ 0xedb88320 else remainder >>> 1

/-- The remainder of one byte, for each byte. -/
def checksumTable : Array UInt32 :=
  (Array.range 256).map fun byte =>
    (List.range 8).foldl (fun remainder _ => checksumBit remainder) byte.toUInt32

/-- Takes one byte more into a checksum. -/
def checksumByte (remainder : UInt32) (byte : UInt8) : UInt32 :=
  checksumTable.getD ((remainder ^^^ byte.toUInt32) &&& 0xff).toNat 0 ^^^ (remainder >>> 8)

/-- The checksum of some bytes. -/
def checksum (data : ByteArray) : UInt32 :=
  data.foldl checksumByte 0xffffffff ^^^ 0xffffffff

end Bindery.Archive
