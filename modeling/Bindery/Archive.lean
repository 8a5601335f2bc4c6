/-
# Archives

An archive is a row of entries followed by a directory of them.  Entries are stored or compressed; all
carry the same date and the same permissions, so that equal entries give equal archives.
-/
import Bindery.Archive.Checksum
import Bindery.Archive.MediaType
import Bindery.Deflate

namespace Bindery

namespace Archive

/-! ## 1. Entries -/

/-- How the bytes of an entry are kept. -/
inductive Method where
  | stored | deflated
  deriving DecidableEq, Repr

/-- The number of a method. -/
def Method.number : Method → Nat
  | stored => 0
  | deflated => 8

/-- The method of a number. -/
def Method.ofNumber? (number : Nat) : Option Method :=
  [stored, deflated].find? (·.number == number)

/-- The method for some bytes: compressed if that makes them fewer. -/
def Method.for (data : ByteArray) : Method :=
  if (Deflate.compress data).size < data.size then deflated else stored

/-- An entry of an archive. -/
structure Entry where
  name : String
  method : Method
  data : ByteArray

namespace Entry

/-- A name as archives record it: all before the first U+0000. -/
def recordedName (name : String) : String :=
  String.ofList (name.toList.takeWhile (· ≠ '\x00'))

/-- The flags of an entry: one says that the name is not plain ASCII. -/
def flags (entry : Entry) : Nat :=
  if entry.name.toList.all (·.toNat < 128) then 0 else 0x800

/-- The bytes that are kept for an entry. -/
def kept (entry : Entry) : ByteArray :=
  match entry.method with
  | .stored => entry.data
  | .deflated => Deflate.compress entry.data

end Entry

/-- The permissions of every entry: its owner may read and write it, all others may read it. -/
def attributes : Nat := 0o644 * 65536

/-- The day of every entry: the first that archives can record. -/
def epoch : Nat × Nat × Nat := (1980, 1, 1)

/-! ## 2. Records -/

/-- A number in `width` bytes, the lowest first. -/
def bytesOf (width n : Nat) : List UInt8 :=
  match width with
  | 0 => []
  | width + 1 => (n % 256).toUInt8 :: bytesOf width (n / 256)

/-- The version of the format that entries need. -/
def version : Nat := 20

/-- The number of the system whose permissions are recorded. -/
def system : Nat := 3

/-- The date of every entry as it is recorded. -/
def recordedDate : Nat :=
  (epoch.1 - 1980) * 512 + epoch.2.1 * 32 + epoch.2.2

/-- What the header of an entry and its line in the directory have in common. -/
def common (entry : Entry) (kept : ByteArray) : List UInt8 :=
  bytesOf 2 version ++ bytesOf 2 entry.flags ++ bytesOf 2 entry.method.number ++ bytesOf 2 0 ++
    bytesOf 2 recordedDate ++ bytesOf 4 (checksum entry.data).toNat ++ bytesOf 4 kept.size ++
    bytesOf 4 entry.data.size ++ bytesOf 2 entry.name.utf8ByteSize ++ bytesOf 2 0

/-- A list of bytes as an array. -/
def ofBytes (bytes : List UInt8) : ByteArray := ⟨bytes.toArray⟩

/-- An entry: its header, its name and its bytes. -/
def localRecord (entry : Entry) (kept : ByteArray) : ByteArray :=
  ofBytes (bytesOf 4 0x04034b50 ++ common entry kept) ++ entry.name.toUTF8 ++ kept

/-- The line of the directory for an entry that starts at `offset`. -/
def directoryRecord (entry : Entry) (kept : ByteArray) (offset : Nat) : ByteArray :=
  ofBytes (bytesOf 4 0x02014b50 ++ bytesOf 1 version ++ bytesOf 1 system ++ common entry kept ++
    bytesOf 2 0 ++ bytesOf 2 0 ++ bytesOf 2 0 ++ bytesOf 4 attributes ++ bytesOf 4 offset) ++
    entry.name.toUTF8

/-- The end of an archive of `count` entries whose directory has `size` bytes from `offset` on. -/
def endRecord (count size offset : Nat) : ByteArray :=
  ofBytes (bytesOf 4 0x06054b50 ++ bytesOf 2 0 ++ bytesOf 2 0 ++ bytesOf 2 count ++
    bytesOf 2 count ++ bytesOf 4 size ++ bytesOf 4 offset ++ bytesOf 2 0)

/-! ## 3. The archive -/

/-- The entries one after the other, and the directory. -/
structure Parts where
  entries : ByteArray
  directory : ByteArray

/-- Adds an entry to both parts. -/
def Parts.add : Parts → Entry → Parts
  | ⟨entries, directory⟩, entry =>
    let kept := entry.kept
    ⟨entries ++ localRecord entry kept, directory ++ directoryRecord entry kept entries.size⟩

/-- The bytes of the archive with some entries. -/
def bytes (entries : List Entry) : ByteArray :=
  let ⟨body, directory⟩ := entries.foldl Parts.add ⟨.empty, .empty⟩
  body ++ directory ++ endRecord entries.length directory.size body.size

/-! ## 4. Packing -/

/-- The entry that says what kind of archive it is; it is never compressed. -/
def mediaTypeEntry : Entry :=
  ⟨mediaTypeName, .stored, mediaType.toUTF8⟩

/-- A file as an entry, kept by the method that suits it. -/
def Entry.ofFile (file : String × ByteArray) : Entry :=
  ⟨recordedName file.1, .for file.2, file.2⟩

/-- The entries of an archive of some files. -/
def pack (files : List (String × ByteArray)) : List Entry :=
  mediaTypeEntry :: files.map Entry.ofFile

end Archive
end Bindery
