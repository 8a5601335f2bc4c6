/-
# Archives are written call by call

The archive of a book and that of packed files are given by their entries.  A writer makes the same archive
from its calls: one for the media type, one for each file, and the end.  It refuses none of them, since every
name is recorded whole (`Writer.packs_of_safelyNamed`), so both kinds of archives can be written
(`Edition.packs_of_make`, `Packing.packs_of_pack`).
-/
import Bindery.Proofs.Archive.Calls

namespace Bindery

open Archive

namespace Archive

/-! ## 1. Packing -/

/-- The calls that write some files to an archive, before it ends. -/
def Call.packing (files : List (String × ByteArray)) : List Call :=
  .writeMediaType :: files.map fun file => .writeEntry file.1 file.2

namespace Call

variable {files : List (String × ByteArray)}

theorem not_ends_packing : ∀ call ∈ packing files, call.ends = false := by
  intro call hcall
  rcases List.mem_cons.mp hcall with rfl | hcall
  · rfl
  · obtain ⟨file, -, rfl⟩ := List.mem_map.mp hcall
    rfl

theorem begins_packing : ∀ call ∈ packing files, call.begins?.isSome = true := by
  intro call hcall
  rcases List.mem_cons.mp hcall with rfl | hcall
  · rfl
  · obtain ⟨file, -, rfl⟩ := List.mem_map.mp hcall
    rfl

/-- Nothing is written beside the calls that begin an entry. -/
theorem entries_of_all_begin : ∀ {calls : List Call}, (∀ call ∈ calls, call.begins?.isSome = true) →
    entries calls = calls.filterMap begins?
  | [], _ => rfl
  | call :: calls, h => by
    obtain ⟨hcall, hcalls⟩ := List.forall_mem_cons.mp h
    obtain ⟨entry, hentry⟩ := Option.isSome_iff_exists.mp hcall
    have hwritten : written calls = .empty := by
      cases calls with
      | nil => rfl
      | cons next rest =>
        obtain ⟨other, hother⟩ := Option.isSome_iff_exists.mp (hcalls next List.mem_cons_self)
        exact written_of_begins hother
    rw [entries_of_begins hentry, hwritten, Entry.extend_empty, entries_of_all_begin hcalls,
      List.filterMap_cons_some hentry]

theorem entries_packing (hwhole : ∀ file ∈ files, Entry.recordedName file.1 = file.1) :
    entries (packing files) = pack files := by
  have hfiles : (files.filterMap fun file => begins? (.writeEntry file.1 file.2)) =
      files.map Entry.ofFile := by
    rw [← List.filterMap_eq_map]
    refine List.filterMap_congr fun file hfile => ?_
    rw [begins?, Function.comp_apply, Entry.ofFile, hwhole file hfile]
  rw [entries_of_all_begin begins_packing, packing, pack, ← hfiles, List.filterMap_cons_some (by rfl),
    List.filterMap_map]
  rfl

end Call

namespace Writer

/-- A new writer takes some calls one after the other, refuses none of them, and then gives an archive. -/
structure Packs (calls : List Call) (entries : List Entry) : Prop where
  accepted : ∀ before call rest, calls = before ++ call :: rest →
    ∀ fault, answer before call ≠ .refused fault
  finish : answer calls .finish = .archive (some entries)

variable {files : List (String × ByteArray)}

/-- **Files with names that archives can record are packed by the calls of a writer.** -/
theorem packs_packing (hnames : ∀ file ∈ files, file.1.utf8ByteSize ≤ maxNameBytes ∧
    '\x00' ∉ file.1.toList) : Packs (Call.packing files) (pack files) := by
  have hrecordable : ∀ call ∈ Call.packing files, call.IsRecordable := by
    intro call hcall
    rcases List.mem_cons.mp hcall with rfl | hcall
    · trivial
    · obtain ⟨file, hfile, rfl⟩ := List.mem_map.mp hcall
      exact hnames file hfile
  constructor
  · intro before call rest hcalls
    have hmem : ∀ earlier ∈ before, earlier ∈ Call.packing files := fun earlier hearlier => by
      rw [hcalls]
      exact List.mem_append_left _ hearlier
    have hcall : call ∈ Call.packing files := by
      rw [hcalls]
      exact List.mem_append_right _ List.mem_cons_self
    have hanswers : Answers before := answers_of_isRecordable fun earlier hearlier =>
      hrecordable earlier (hmem earlier hearlier)
    exact hanswers.begins (fun earlier hearlier => Call.not_ends_packing earlier (hmem earlier hearlier))
      call (hrecordable call hcall) (Call.begins_packing call hcall)
  · have hwhole : ∀ file ∈ files, Entry.recordedName file.1 = file.1 := fun file hfile =>
      recordedName_eq (hnames file hfile).2
    rw [(answers_of_isRecordable hrecordable).finish Call.not_ends_packing, Call.entries_packing hwhole]

/-- Safe names can be recorded. -/
theorem packs_of_safelyNamed (h : SafelyNamed (files.map (·.1)) (pack files)) :
    Packs (Call.packing files) (pack files) := by
  refine packs_packing fun file hfile => ⟨?_, recordedName_eq_iff.mp (h.recordedName_eq file hfile)⟩
  have hentry : Entry.ofFile file ∈ pack files := List.mem_cons_of_mem _ (List.mem_map_of_mem hfile)
  have hvalid := EntryPath.check_eq_ok_iff.mp (h.checked _ hentry)
  have hsize : (Entry.recordedName file.1).utf8ByteSize ≤ EntryPath.maxPathBytes := hvalid.size
  rwa [h.recordedName_eq file hfile] at hsize

end Writer
end Archive

/-! ## 2. The archives that are made -/

/-- **A writer makes the archive of a book** from what is copied and the three documents. -/
theorem Edition.packs_of_make {environment : Environment} {reader : Reader} {book : Book}
    {edition : Edition} (hbook : book.LegalParts) (h : make environment reader book = .ok edition) :
    ∃ files, copiedFiles reader (Layout.of book) book = .ok files ∧
      Writer.Packs (Call.packing (files ++ [(containerPath, edition.container.toUTF8),
        ((Layout.of book).packagePath, edition.package.toUTF8),
        ((Layout.of book).navigationPath, edition.navigation.toUTF8)])) edition.entries := by
  obtain ⟨files, hfiles, hsafe⟩ := safelyNamed_make hbook h
  obtain ⟨-, firstLinear, files, package, navigation, -, hmade, -, -, rfl⟩ := make_eq_ok_iff.mp h
  rw [hfiles, Except.ok.injEq] at hmade
  subst hmade
  rw [planned_eq (Layout.of book) book files package navigation] at hsafe
  exact ⟨files, hfiles, Writer.packs_of_safelyNamed hsafe⟩

/-- **A writer makes the archive of packed files** from what is found at their paths. -/
theorem Packing.packs_of_pack {reader : Reader} {paths : List String} {entries : List Entry}
    (h : pack reader paths = .ok entries) :
    ∃ found, paths.mapM (files reader) = .ok found ∧
      Writer.Packs (Call.packing found.flatten) entries := by
  obtain ⟨found, hfound, -, -, rfl⟩ := pack_eq_ok_iff.mp h
  obtain ⟨other, hother, hsafe⟩ := safelyNamed_pack h
  rw [hfound, Except.ok.injEq] at hother
  subst hother
  exact ⟨found, hfound, Writer.packs_of_safelyNamed hsafe⟩

end Bindery
