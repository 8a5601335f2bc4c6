/-
# What a writer makes of its calls

Until the archive ends, a writer holds exactly the entries that its calls make (`Call.entries`), and bytes
can be written exactly if one of them has begun (`after_writing`, by induction on the calls).  The call
that ends the archive settles what `finish` answers from then on: the entries, or nothing if the archive
was thrown away.  No later call changes anything (`after_of_closed`).
-/
import Bindery.Archive.Calls
import Bindery.Proofs.Archive.SafelyNamed

namespace Bindery.Archive

/-! ## 1. Calls and entries -/

@[simp] theorem Entry.extend_empty (entry : Entry) : entry.extend .empty = entry := by
  simp [extend]

@[simp] theorem Entry.extend_extend (entry : Entry) (data more : ByteArray) :
    (entry.extend data).extend more = entry.extend (data ++ more) := by
  simp [extend, ByteArray.append_assoc]

theorem Method.ofNumber?_number (method : Method) : Method.ofNumber? method.number = some method := by
  cases method <;> rfl

namespace Call

variable {call : Call} {calls : List Call}

/-- A call that does not end the archive begins an entry or writes to one. -/
theorem begins_or_writes (h : call.ends = false) :
    (∃ entry, call.begins? = some entry) ∨ ∃ data, call = .write data := by
  cases call with
  | write data => exact .inr ⟨data, rfl⟩
  | start | writeEntry | writeMediaType => exact .inl ⟨_, rfl⟩
  | finish | close => cases h

theorem written_of_begins {entry : Entry} (h : call.begins? = some entry) :
    written (call :: calls) = .empty := by
  cases call with
  | start | writeEntry | writeMediaType => rfl
  | write | finish | close => cases h

theorem entries_of_begins {entry : Entry} (h : call.begins? = some entry) :
    entries (call :: calls) = entry.extend (written calls) :: entries calls := by
  rw [entries, h]

/-- The first call that ends the archive, if one does. -/
theorem exists_first_end (h : ∃ call ∈ calls, call.ends = true) :
    ∃ before call rest, calls = before ++ call :: rest ∧ call.ends = true ∧
      ∀ earlier ∈ before, earlier.ends = false := by
  obtain ⟨call, hcall⟩ := Option.isSome_iff_exists.mp (List.find?_isSome.mpr h)
  obtain ⟨hends, before, rest, heq, hbefore⟩ := List.find?_eq_some_iff_append.mp hcall
  exact ⟨before, call, rest, heq, hends, fun earlier hearlier => by simpa using hbefore earlier hearlier⟩

end Call

namespace Writer

variable {writer : Writer}

/-! ## 2. Single calls -/

@[simp] theorem endEntry_stage (writer : Writer) : writer.endEntry.stage = writer.stage := by
  unfold endEntry
  split <;> rfl

@[simp] theorem endEntry_current (writer : Writer) : writer.endEntry.current = none := by
  unfold endEntry
  split
  · rfl
  · assumption

theorem endEntry_eq_self (h : writer.current = none) : writer.endEntry = writer := by
  rw [endEntry, h]

/-- The entries of a writer, the one that bytes are written to included. -/
def entries (writer : Writer) : List Entry := writer.endEntry.ended.reverse

theorem entries_eq (writer : Writer) :
    writer.entries = writer.ended.reverse ++ writer.current.toList := by
  unfold entries endEntry
  split
  · rename_i entry hentry
    simp [hentry]
  · rename_i hnone
    simp [hnone]

theorem start_of_writing {path : String} (hstage : writer.stage = .writing)
    (hname : path.utf8ByteSize ≤ maxNameBytes ∧ '\x00' ∉ path.toList) (method : Method) :
    writer.start path method.number =
      (.ok (), { writer.endEntry with current := some ⟨path, method, .empty⟩ }) := by
  rw [start, recordedName_eq hname.2, if_neg (by simp [hstage]), Method.ofNumber?_number]
  exact if_neg (Nat.not_lt.mpr hname.1)

theorem start_of_not_writing (path : String) (method : Nat) (hstage : writer.stage ≠ .writing) :
    writer.start path method = (.error (.file (.archiveClosed path)), writer.endEntry) := by
  rw [start, if_pos (by simpa using hstage)]

theorem write_of_none (data : ByteArray) (h : writer.current = none) :
    writer.write data = (.error (.file .noEntry), writer) := by
  obtain ⟨stage, ended, current⟩ := writer
  cases h
  rfl

theorem write_of_some {entry : Entry} (data : ByteArray) (h : writer.current = some entry) :
    writer.write data = (.ok (), { writer with current := some (entry.extend data) }) := by
  obtain ⟨stage, ended, current⟩ := writer
  cases h
  rfl

/-- Before the archive ends, a call that begins an entry ends the one before. -/
theorem call_of_begins {call : Call} {entry : Entry} (hstage : writer.stage = .writing)
    (hrecordable : call.IsRecordable) (hbegins : call.begins? = some entry) :
    (∀ fault, (writer.call call).1 ≠ .refused fault) ∧
      (writer.call call).2 = { writer.endEntry with current := some entry } := by
  cases call with
  | start path method =>
    cases hbegins
    rw [Writer.call, start_of_writing hstage hrecordable]
    exact ⟨by simp [Answer.ofResult], rfl⟩
  | writeEntry path data =>
    cases hbegins
    rw [Writer.call, writeEntry, start_of_writing hstage hrecordable]
    exact ⟨by simp [write, Except.map], by simp [write, Except.map]⟩
  | writeMediaType =>
    cases hbegins
    rw [Writer.call, writeMediaType, start_of_writing hstage (by decide)]
    exact ⟨by simp [write, Answer.ofResult], by simp [write, mediaTypeEntry]⟩
  | write | finish | close => cases hbegins

theorem call_write_of_none (data : ByteArray) (h : writer.current = none) :
    writer.call (.write data) = (.refused (.file .noEntry), writer) := by
  rw [call, write_of_none data h]
  rfl

theorem call_write_of_some {entry : Entry} (data : ByteArray) (h : writer.current = some entry) :
    writer.call (.write data) = (.done, { writer with current := some (entry.extend data) }) := by
  rw [call, write_of_some data h]
  rfl

theorem call_finish_of_writing (h : writer.stage = .writing) :
    writer.call .finish =
      (.archive (some writer.entries), { writer.endEntry with stage := .finished }) := by
  simp [call, finish, h, entries]

theorem call_close_of_writing (h : writer.stage = .writing) :
    writer.call .close = (.done, { writer.endEntry with stage := .discarded }) := by
  simp [call, close, h]

/-! ## 3. Calls before the archive ends -/

@[simp] theorem after_nil (writer : Writer) : writer.after [] = writer := rfl

@[simp] theorem after_cons (writer : Writer) (call : Call) (calls : List Call) :
    writer.after (call :: calls) = (writer.call call).2.after calls := rfl

@[simp] theorem after_append (writer : Writer) (calls more : List Call) :
    writer.after (calls ++ more) = (writer.after calls).after more :=
  List.foldl_append

/-- **Until the archive ends, a writer holds the entries that its calls make.** -/
theorem after_writing : ∀ {calls : List Call} {writer : Writer}, writer.stage = .writing →
    (∀ call ∈ calls, call.IsRecordable) → (∀ call ∈ calls, call.ends = false) →
    (writer.after calls).stage = .writing ∧
      (writer.after calls).entries = writer.ended.reverse ++
        ((writer.current.map (·.extend (Call.written calls))).toList ++ Call.entries calls) ∧
      ((writer.after calls).current.isSome = true ↔
        writer.current.isSome = true ∨ ∃ call ∈ calls, call.begins?.isSome = true)
  | [], writer, hstage, _, _ => by
    simp [entries_eq, Call.written, Call.entries, hstage]
  | call :: rest, writer, hstage, hrecordable, hends => by
    obtain ⟨hcall, hrest⟩ := List.forall_mem_cons.mp hrecordable
    obtain ⟨hcallEnds, hrestEnds⟩ := List.forall_mem_cons.mp hends
    rcases Call.begins_or_writes hcallEnds with ⟨entry, hentry⟩ | ⟨data, rfl⟩
    · obtain ⟨-, hwriter⟩ := call_of_begins hstage hcall hentry
      have hbegun : ({ writer.endEntry with current := some entry } : Writer).stage = .writing := by
        simpa using hstage
      obtain ⟨hstage', hentries, hcurrent⟩ := after_writing hbegun hrest hrestEnds
      have hbefore : writer.endEntry.ended.reverse = writer.ended.reverse ++ writer.current.toList :=
        entries_eq writer
      rw [after_cons, hwriter]
      refine ⟨hstage', ?_, ?_⟩
      · rw [hentries, hbefore, Call.written_of_begins hentry, Call.entries_of_begins hentry]
        simp
      · rw [hcurrent]
        simp [hentry]
    · cases hnow : writer.current with
      | none =>
        obtain ⟨hstage', hentries, hcurrent⟩ := after_writing hstage hrest hrestEnds
        rw [hnow] at hentries hcurrent
        rw [after_cons, call_write_of_none data hnow]
        refine ⟨hstage', hentries, ?_⟩
        rw [hcurrent]
        simp [Call.begins?]
      | some entry =>
        have hlonger :
            ({ writer with current := some (entry.extend data) } : Writer).stage = .writing := hstage
        obtain ⟨hstage', hentries, hcurrent⟩ := after_writing hlonger hrest hrestEnds
        rw [after_cons, call_write_of_some data hnow]
        refine ⟨hstage', ?_, ?_⟩
        · rw [hentries]
          simp [Call.written, Call.entries, Call.begins?]
        · rw [hcurrent]
          simp

/-! ## 4. Calls after the archive has ended -/

/-- The archive has ended, and no entry is open. -/
def IsClosed (writer : Writer) : Prop := writer.stage ≠ .writing ∧ writer.current = none

theorem IsClosed.endEntry (h : writer.IsClosed) : writer.endEntry = writer := endEntry_eq_self h.2

theorem isClosed_of_ends {call : Call} (hstage : writer.stage = .writing) (h : call.ends = true) :
    (writer.call call).2.IsClosed := by
  cases call with
  | finish =>
    rw [call_finish_of_writing hstage]
    exact ⟨by simp, by simp⟩
  | close =>
    rw [call_close_of_writing hstage]
    exact ⟨by simp, by simp⟩
  | start | write | writeEntry | writeMediaType => cases h

/-- **Once the archive has ended, no call changes the writer**, and those that would are refused. -/
theorem call_of_closed (h : writer.IsClosed) (call : Call) :
    (writer.call call).2 = writer ∧
      (call.ends = false → ∃ fault, (writer.call call).1 = .refused (.file fault)) := by
  have hstart := fun path method => start_of_not_writing path method h.1
  rw [h.endEntry] at hstart
  cases call with
  | start path method =>
    rw [Writer.call, hstart]
    exact ⟨rfl, fun _ => ⟨_, rfl⟩⟩
  | write data =>
    rw [call_write_of_none data h.2]
    exact ⟨rfl, fun _ => ⟨_, rfl⟩⟩
  | writeEntry path data =>
    rw [Writer.call, writeEntry, hstart]
    exact ⟨rfl, fun _ => ⟨_, rfl⟩⟩
  | writeMediaType =>
    rw [Writer.call, writeMediaType, hstart]
    exact ⟨rfl, fun _ => ⟨_, rfl⟩⟩
  | finish =>
    refine ⟨?_, by simp [Call.ends]⟩
    obtain ⟨stage, ended, current⟩ := writer
    obtain ⟨hstage, rfl⟩ := h
    cases stage with
    | writing => exact absurd rfl hstage
    | finished | discarded => rfl
  | close =>
    refine ⟨?_, by simp [Call.ends]⟩
    obtain ⟨stage, ended, current⟩ := writer
    cases stage with
    | writing => exact absurd rfl h.1
    | finished | discarded => rfl

theorem after_of_closed (h : writer.IsClosed) (calls : List Call) : writer.after calls = writer := by
  induction calls with
  | nil => rfl
  | cons call rest ih => rw [after_cons, (call_of_closed h call).1, ih]

/-! ## 5. What a new writer answers -/

/-- What a new writer answers after some calls is what the calls say. -/
structure Answers (calls : List Call) : Prop where
  /-- Until the archive ends, every entry can be begun. -/
  begins : (∀ call ∈ calls, call.ends = false) → ∀ call, call.IsRecordable →
    call.begins?.isSome = true → ∀ fault, answer calls call ≠ .refused fault
  write_of_open : Call.EntryOpen calls → ∀ data, answer calls (.write data) = .done
  write_of_not_open : ¬ Call.EntryOpen calls →
    ∀ data, ∃ fault, answer calls (.write data) = .refused (.file fault)
  finish : (∀ call ∈ calls, call.ends = false) →
    answer calls .finish = .archive (some (Call.entries calls))
  /-- A second `finish` gives what the first one gave. -/
  finish_of_finish : ∀ before rest, calls = before ++ .finish :: rest →
    (∀ call ∈ before, call.ends = false) →
    answer calls .finish = .archive (some (Call.entries before))
  finish_of_close : ∀ before rest, calls = before ++ .close :: rest →
    (∀ call ∈ before, call.ends = false) → answer calls .finish = .archive none
  /-- Once the archive has ended, nothing can be begun or written, and nothing changes. -/
  refused : (∃ call ∈ calls, call.ends = true) → ∀ call, call.ends = false →
    (∃ fault, answer calls call = .refused (.file fault)) ∧
      new.after (calls ++ [call]) = new.after calls

section

variable {calls before rest : List Call}

theorem new_after_writing (hrecordable : ∀ call ∈ calls, call.IsRecordable)
    (hends : ∀ call ∈ calls, call.ends = false) :
    (new.after calls).stage = .writing ∧ (new.after calls).entries = Call.entries calls ∧
      ((new.after calls).current.isSome = true ↔ Call.EntryOpen calls) := by
  have hnew : new.stage = .writing := rfl
  obtain ⟨hstage, hentries, hcurrent⟩ := after_writing hnew hrecordable hends
  refine ⟨hstage, by simpa [new] using hentries, ?_⟩
  rw [hcurrent, Call.EntryOpen]
  simpa [new] using fun _ _ _ => hends

/-- Nothing changes after the first call that ends the archive. -/
theorem new_after_eq {call : Call} (hcalls : calls = before ++ call :: rest)
    (hrecordable : ∀ call ∈ calls, call.IsRecordable)
    (hbefore : ∀ earlier ∈ before, earlier.ends = false) (hends : call.ends = true) :
    (new.after calls).IsClosed ∧ new.after calls = ((new.after before).call call).2 := by
  subst hcalls
  have hstage := (new_after_writing (fun earlier h => hrecordable earlier (by simp [h])) hbefore).1
  have hclosed := isClosed_of_ends hstage hends
  rw [after_append, after_cons, after_of_closed hclosed]
  exact ⟨hclosed, rfl⟩

theorem new_isClosed (hrecordable : ∀ call ∈ calls, call.IsRecordable)
    (hends : ∃ call ∈ calls, call.ends = true) : (new.after calls).IsClosed := by
  obtain ⟨before, call, rest, hcalls, hcall, hbefore⟩ := Call.exists_first_end hends
  exact (new_after_eq hcalls hrecordable hbefore hcall).1

/-- **A row of calls makes exactly the archive that the calls say.** -/
theorem answers_of_isRecordable (hrecordable : ∀ call ∈ calls, call.IsRecordable) :
    Answers calls where
  begins hends call hcall hbegins := by
    obtain ⟨entry, hentry⟩ := Option.isSome_iff_exists.mp hbegins
    exact (call_of_begins (new_after_writing hrecordable hends).1 hcall hentry).1
  write_of_open hopen data := by
    obtain ⟨entry, hentry⟩ := Option.isSome_iff_exists.mp
      ((new_after_writing hrecordable hopen.2).2.2.mpr hopen)
    rw [answer, call_write_of_some data hentry]
  write_of_not_open hopen data := by
    have hcurrent : (new.after calls).current = none := by
      by_cases hends : ∃ call ∈ calls, call.ends = true
      · exact (new_isClosed hrecordable hends).2
      · have hopen_iff := (new_after_writing hrecordable (by simpa using hends)).2.2
        simpa using mt hopen_iff.mp hopen
    rw [answer, call_write_of_none data hcurrent]
    exact ⟨_, rfl⟩
  finish hends := by
    obtain ⟨hstage, hentries, -⟩ := new_after_writing hrecordable hends
    rw [answer, call_finish_of_writing hstage, hentries]
  finish_of_finish before rest hcalls hbefore := by
    obtain ⟨hstage, hentries, -⟩ :=
      new_after_writing (fun call h => hrecordable call (by simp [hcalls, h])) hbefore
    rw [answer, (new_after_eq hcalls hrecordable hbefore rfl).2, call_finish_of_writing hstage,
      ← hentries]
    simp [call, Writer.finish, endEntry_eq_self, Writer.entries]
  finish_of_close before rest hcalls hbefore := by
    obtain ⟨hstage, -, -⟩ :=
      new_after_writing (fun call h => hrecordable call (by simp [hcalls, h])) hbefore
    rw [answer, (new_after_eq hcalls hrecordable hbefore rfl).2, call_close_of_writing hstage]
    simp [call, Writer.finish, endEntry_eq_self]
  refused hends call hcall := by
    obtain ⟨hsame, hrefused⟩ := call_of_closed (new_isClosed hrecordable hends) call
    exact ⟨hrefused hcall, by rw [after_append, after_cons, after_nil, hsame]⟩

/-- Calls in an unusual order: bytes come before any entry, and more calls after the end. -/
def unruly : List Call :=
  [.write ⟨#[0]⟩, .start "one" .deflated, .write ⟨#[1]⟩, .write ⟨#[2, 3]⟩, .start "two" .stored,
    .finish, .write ⟨#[4]⟩, .start "three" .stored, .close]

theorem answers_unruly : (∀ call ∈ unruly, call.IsRecordable) ∧ Answers unruly ∧
    answer unruly .finish =
      .archive (some [⟨"one", .deflated, ⟨#[1, 2, 3]⟩⟩, ⟨"two", .stored, .empty⟩]) := by
  have hrecordable : ∀ call ∈ unruly, call.IsRecordable := by decide
  have hanswers : Answers unruly := answers_of_isRecordable hrecordable
  exact ⟨hrecordable, hanswers, hanswers.finish_of_finish (unruly.take 5) (unruly.drop 6) rfl (by decide)⟩

end

end Writer

end Bindery.Archive
