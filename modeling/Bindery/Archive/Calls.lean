/-
# Calls on a writer

The calls that a writer takes and what each answers.  What a row of calls makes of an archive can be
read off the calls alone: each call that begins an entry gives one, with all that is written until the
next one begins, up to the first call that ends the archive.
-/
import Bindery.Archive.Writer

namespace Bindery.Archive

/-! ## 1. Calls and answers -/

/-- A call on a writer. -/
inductive Call where
  | start (path : String) (method : Method)
  | write (data : ByteArray)
  | writeEntry (path : String) (data : ByteArray)
  | writeMediaType
  | finish
  | close

/-- What a call answers. -/
inductive Answer where
  | done
  | refused (fault : Fault)
  /-- An entry has been written by a method. -/
  | kept (method : Method)
  /-- The entries of the archive; nothing if it was thrown away. -/
  | archive (entries : Option (List Entry))

/-- The answer to a call that gives no value. -/
def Answer.ofResult : Except Fault Unit → Answer
  | .ok () => done
  | .error fault => refused fault

namespace Writer

/-- Takes a call. -/
def call (writer : Writer) : Call → Answer × Writer
  | .start path method =>
    let (result, writer) := writer.start path method.number
    (.ofResult result, writer)
  | .write data =>
    let (result, writer) := writer.write data
    (.ofResult result, writer)
  | .writeEntry path data =>
    match writer.writeEntry path data with
    | (.ok method, writer) => (.kept method, writer)
    | (.error fault, writer) => (.refused fault, writer)
  | .writeMediaType =>
    let (result, writer) := writer.writeMediaType
    (.ofResult result, writer)
  | .finish =>
    let (entries, writer) := writer.finish
    (.archive entries, writer)
  | .close => (.done, writer.close)

/-- The writer after some calls, whatever they answered. -/
def after (writer : Writer) (calls : List Call) : Writer :=
  calls.foldl (fun writer call => (writer.call call).2) writer

/-- What a new writer answers to a call after some others. -/
def answer (calls : List Call) (call : Call) : Answer :=
  ((new.after calls).call call).1

end Writer

/-! ## 2. What calls say -/

/-- An entry with more bytes at its end. -/
def Entry.extend (entry : Entry) (data : ByteArray) : Entry :=
  { entry with data := entry.data ++ data }

namespace Call

/-- Whether a call ends the archive. -/
def ends : Call → Bool
  | finish | close => true
  | _ => false

/-- The entry that a call begins, with the bytes that the call itself writes. -/
def begins? : Call → Option Entry
  | start path method => some ⟨path, method, .empty⟩
  | writeEntry path data => some ⟨path, .for data, data⟩
  | writeMediaType => some mediaTypeEntry
  | _ => none

/-- Whether archives can record the name of the entry that a call begins. -/
def IsRecordable : Call → Prop
  | start path _ | writeEntry path _ =>
    path.utf8ByteSize ≤ Writer.maxNameBytes ∧ '\x00' ∉ path.toList
  | _ => True

instance : DecidablePred IsRecordable
  | start .. | writeEntry .. => inferInstanceAs (Decidable (_ ∧ _))
  | write _ | writeMediaType | finish | close => .isTrue trivial

/-- The bytes that the first of some calls write, up to one that does something else. -/
def written : List Call → ByteArray
  | write data :: rest => data ++ written rest
  | _ => .empty

/-- The entries that calls make, each with all that is written until the next one begins. -/
def entries : List Call → List Entry
  | [] => []
  | call :: rest =>
    match call.begins? with
    | some entry => entry.extend (written rest) :: entries rest
    | none => entries rest

/-- After some calls an entry is open: one has begun, and the archive has not ended. -/
def EntryOpen (calls : List Call) : Prop :=
  (∃ call ∈ calls, call.begins?.isSome = true) ∧ ∀ call ∈ calls, call.ends = false

end Call

end Bindery.Archive
