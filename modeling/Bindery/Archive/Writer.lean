/-
# Writing an archive

An archive is written entry by entry: an entry is started, bytes are written to it, and the next start
ends it.  `finish` gives the archive; `close` throws an unfinished one away.  After either no entry
can be started or written.
-/
import Bindery.Archive
import Bindery.Fault

namespace Bindery.Archive

/-! ## 1. The writer -/

/-- How far the writing has come. -/
inductive Stage where
  | writing | finished | discarded
  deriving DecidableEq, Repr

/-- An archive that is being written. -/
structure Writer where
  stage : Stage
  /-- The entries that have been ended, the last first. -/
  ended : List Entry
  /-- The entry that bytes are written to. -/
  current : Option Entry

namespace Writer

/-- An archive without entries. -/
def new : Writer := ⟨.writing, [], none⟩

/-- Ends the entry that bytes are written to. -/
def endEntry (writer : Writer) : Writer :=
  match writer.current with
  | some entry => { writer with ended := entry :: writer.ended, current := none }
  | none => writer

/-- The longest name that an archive can record, in bytes. -/
def maxNameBytes : Nat := 65535

/-! ## 2. Steps -/

/-- Starts an entry; `method` is the number of the method.  The entry before is ended even if this
one cannot be started. -/
def start (writer : Writer) (path : String) (method : Nat) : Except Fault Unit × Writer :=
  let writer := writer.endEntry
  let name := Entry.recordedName path
  if writer.stage ≠ .writing then (.error (.file (.archiveClosed path)), writer)
  else match Method.ofNumber? method with
    | none => (.error .unknownMethod, writer)
    | some method =>
      if maxNameBytes < name.utf8ByteSize then (.error .entryNameTooLong, writer)
      else (.ok (), { writer with current := some ⟨name, method, .empty⟩ })

/-- Writes bytes to the entry that was started last. -/
def write (writer : Writer) (data : ByteArray) : Except Fault Unit × Writer :=
  match writer with
  | ⟨stage, ended, some ⟨name, method, before⟩⟩ =>
    (.ok (), ⟨stage, ended, some ⟨name, method, before ++ data⟩⟩)
  | ⟨stage, ended, none⟩ => (.error (.file .noEntry), ⟨stage, ended, none⟩)

/-- Starts an entry with the method that suits its bytes, and writes them. -/
def writeEntry (writer : Writer) (path : String) (data : ByteArray) :
    Except Fault Method × Writer :=
  let method := Method.for data
  match writer.start path method.number with
  | (.error fault, writer) => (.error fault, writer)
  | (.ok (), writer) =>
    let (result, writer) := writer.write data
    (result.map fun _ => method, writer)

/-- Writes the entry that says what kind of archive it is, as it stands. -/
def writeMediaType (writer : Writer) : Except Fault Unit × Writer :=
  match writer.start mediaTypeName Method.stored.number with
  | (.error fault, writer) => (.error fault, writer)
  | (.ok (), writer) => writer.write mediaType.toUTF8

/-- Ends the archive and gives its entries; nothing for an archive that was thrown away. -/
def finish (writer : Writer) : Option (List Entry) × Writer :=
  let writer := writer.endEntry
  match writer.stage with
  | .discarded => (none, writer)
  | _ => (some writer.ended.reverse, { writer with stage := .finished })

/-- Throws an unfinished archive away. -/
def close (writer : Writer) : Writer :=
  match writer.stage with
  | .writing => { writer.endEntry with stage := .discarded }
  | _ => writer

end Writer

end Bindery.Archive
