/-
# The chain of fallbacks decides

From an item of the manifest its fallback leads on, from there the next fallback, and so forth: the chain of
the item (`chain`).  The search for a document goes along it one round after the other and remembers the
identifiers that it has passed.  In every round that goes on it comes to an identifier that it has not
passed, so it has its answer after fewer rounds than there are items (`exists_last_round`), also where items
share an identifier.  Where they do not, an identifier that comes again is an item that comes again, and then
nothing new ever follows (`exists_before_of_repeated`).  So the answer is the one that the whole chain gives
(`chainOutcome_eligible`, `eligible_by_chain`), although the search sees only its beginning.
-/
import Mathlib.Data.List.Perm.Subperm
import Bindery.Proofs.Spine.Fallback

namespace Bindery.Spine

variable {book : Book} {item start last next other holder : ManifestItem} {idref : String}
  {i j k m rounds : Nat}

/-! ## 1. Chains by position -/

/-- The fallback of an item, if it has one and the manifest has an item of that identifier. -/
def next? (book : Book) (item : ManifestItem) : Option ManifestItem :=
  item.fallback.bind book.item?

/-- The item that so many fallbacks lead to; nothing beyond the end of the chain. -/
def chain (book : Book) (item : ManifestItem) : Nat → Option ManifestItem
  | 0 => some item
  | k + 1 => (chain book item k).bind (next? book)

theorem next?_eq_some_iff : next? book item = some next ↔ FallsBack book item next :=
  Option.bind_eq_some_iff

theorem chain_succ_of_eq (h : chain book item k = some last) :
    chain book item (k + 1) = next? book last := by
  rw [chain, h, Option.bind_some]

/-- A chain goes on from each of its items as the chain of that item does. -/
theorem chain_add (k m : Nat) :
    chain book item (k + m) = (chain book item k).bind fun next => chain book next m := by
  induction m with
  | zero => exact (Option.bind_fun_some _).symm
  | succ m ih => rw [← Nat.add_assoc, chain, ih, Option.bind_assoc]; rfl

/-- Nothing follows the end of a chain. -/
theorem chain_eq_none_of_le (h : chain book item k = none) (hle : k ≤ m) :
    chain book item m = none := by
  rw [← Nat.add_sub_cancel' hle, chain_add, h, Option.bind_none]

theorem mem_of_chain_eq (hitem : item ∈ book.manifest) (h : chain book item k = some last) :
    last ∈ book.manifest := by
  cases k with
  | zero => exact Option.some.inj h ▸ hitem
  | succ k =>
    obtain ⟨before, -, hnext⟩ := Option.bind_eq_some_iff.mp h
    obtain ⟨idref, -, hfound⟩ := next?_eq_some_iff.mp hnext
    exact (Book.mem_and_id_eq_of_item? hfound).1

/-- What follows the second time an item comes is what followed the first time, so a chain that repeats
itself has all its items before it does. -/
theorem exists_before_of_repeated (hlt : i < j) (h : chain book item i = chain book item j)
    (m : Nat) : ∃ k < j, chain book item m = chain book item k := by
  induction m using Nat.strongRecOn with
  | _ m ih =>
    rcases Nat.lt_or_ge m j with hm | hm
    · exact ⟨m, hm, rfl⟩
    · obtain ⟨k, hk, heq⟩ := ih (i + (m - j)) (by omega)
      refine ⟨k, hk, ?_⟩
      rw [← heq, chain_add i, h, ← chain_add, Nat.add_sub_cancel' hm]

/-! ## 2. What a chain comes to -/

/-- So many fallbacks lead to an item, and neither this nor an item before it is a document. -/
structure Passed (book : Book) (item : ManifestItem) (k : Nat) (last : ManifestItem) : Prop where
  reached : chain book item k = some last
  no_document : ∀ m ≤ k, ∀ other, chain book item m = some other → ¬ IsDocument other

/-- Some item of the chain is a document. -/
def MeetsDocument (book : Book) (item : ManifestItem) : Prop :=
  ∃ k document, chain book item k = some document ∧ IsDocument document

/-- The chain ends at an item without fallback before there is a document. -/
def EndsBefore (book : Book) (item : ManifestItem) : Prop :=
  ∃ k last, Passed book item k last ∧ last.fallback = none

/-- Before there is a document the chain comes to an item whose fallback is in no manifest. -/
def BreaksOff (book : Book) (item holder : ManifestItem) (idref : String) : Prop :=
  ∃ k, Passed book item k holder ∧ holder.fallback = some idref ∧ book.item? idref = none

/-- The chain repeats itself and has no document. -/
def GoesRound (book : Book) (item : ManifestItem) : Prop :=
  (∀ k other, chain book item k = some other → ¬ IsDocument other) ∧
    ∃ i j again, i < j ∧ chain book item i = some again ∧ chain book item j = some again

/-- An item is the first to come again in a chain. -/
def ComesAgain (book : Book) (item again : ManifestItem) : Prop :=
  ∃ i j, i < j ∧ chain book item i = some again ∧ chain book item j = some again ∧
    ∀ k < j, ∀ m < k, chain book item m ≠ chain book item k

/-- The chain ends at an item, and there is no document up to it. -/
def Stops (book : Book) (item last : ManifestItem) : Prop :=
  ∃ k, Passed book item k last ∧ next? book last = none

theorem EndsBefore.exists_stops (h : EndsBefore book item) :
    ∃ last, Stops book item last ∧ last.fallback = none := by
  obtain ⟨k, last, hlast, hnone⟩ := h
  exact ⟨last, ⟨k, hlast, by rw [next?, hnone, Option.bind_none]⟩, hnone⟩

theorem BreaksOff.stops (h : BreaksOff book item holder idref) : Stops book item holder := by
  obtain ⟨k, hholder, hidref, hmissing⟩ := h
  exact ⟨k, hholder, by rw [next?, hidref, Option.bind_some, hmissing]⟩

theorem chain_eq_none_of_end (hlast : chain book item k = some last) (hend : next? book last = none)
    (hlt : k < m) : chain book item m = none :=
  chain_eq_none_of_le ((chain_succ_of_eq hlast).trans hend) hlt

/-- A chain has one end. -/
theorem Stops.unique (h : Stops book item last) (h' : Stops book item other) : last = other := by
  obtain ⟨k, ⟨hlast, -⟩, hend⟩ := h
  obtain ⟨m, ⟨hother, -⟩, hotherEnd⟩ := h'
  rcases Nat.lt_trichotomy k m with hlt | rfl | hlt
  · rw [chain_eq_none_of_end hlast hend hlt] at hother
    cases hother
  · exact Option.some.inj (hlast.symm.trans hother)
  · rw [chain_eq_none_of_end hother hotherEnd hlt] at hlast
    cases hlast

theorem Stops.not_meetsDocument (h : Stops book item last) : ¬ MeetsDocument book item := by
  obtain ⟨k, hlast, hend⟩ := h
  rintro ⟨m, document, hdocument, hisDocument⟩
  rcases Nat.lt_or_ge k m with hlt | hle
  · rw [chain_eq_none_of_end hlast.reached hend hlt] at hdocument
    cases hdocument
  · exact hlast.no_document m hle document hdocument hisDocument

/-- A chain that ends does not repeat itself. -/
theorem Stops.not_goesRound (h : Stops book item last) : ¬ GoesRound book item := by
  obtain ⟨k, hlast, hend⟩ := h
  rintro ⟨-, i, j, again, hlt, hi, hj⟩
  obtain ⟨m, hm, heq⟩ := exists_before_of_repeated hlt (hi.trans hj.symm) (k + 1)
  rw [chain_eq_none_of_end hlast.reached hend (Nat.lt_succ_self k)] at heq
  rw [chain_eq_none_of_le heq.symm (Nat.le_of_lt hm)] at hj
  cases hj

theorem EndsBefore.not_meetsDocument (h : EndsBefore book item) : ¬ MeetsDocument book item :=
  let ⟨_, hstops, _⟩ := h.exists_stops
  hstops.not_meetsDocument

theorem EndsBefore.not_goesRound (h : EndsBefore book item) : ¬ GoesRound book item :=
  let ⟨_, hstops, _⟩ := h.exists_stops
  hstops.not_goesRound

theorem EndsBefore.not_breaksOff (h : EndsBefore book item) : ¬ BreaksOff book item holder idref := by
  intro hbreaks
  obtain ⟨last, hstops, hnone⟩ := h.exists_stops
  obtain rfl := hstops.unique hbreaks.stops
  obtain ⟨-, -, hidref, -⟩ := hbreaks
  rw [hnone] at hidref
  cases hidref

theorem BreaksOff.unique {idref' : String}
    (h : BreaksOff book item holder idref) (h' : BreaksOff book item other idref') :
    holder = other ∧ idref = idref' := by
  obtain rfl := h.stops.unique h'.stops
  obtain ⟨-, -, hidref, -⟩ := h
  obtain ⟨-, -, hidref', -⟩ := h'
  exact ⟨rfl, Option.some.inj (hidref.symm.trans hidref')⟩

theorem GoesRound.not_meetsDocument (h : GoesRound book item) : ¬ MeetsDocument book item :=
  fun ⟨k, document, hdocument, hisDocument⟩ => h.1 k document hdocument hisDocument

theorem ComesAgain.unique (h : ComesAgain book item last) (h' : ComesAgain book item other) :
    last = other := by
  obtain ⟨i, j, hij, hi, hj, hdistinct⟩ := h
  obtain ⟨i', j', hij', hi', hj', hdistinct'⟩ := h'
  rcases Nat.lt_trichotomy j j' with hlt | rfl | hlt
  · exact absurd (hi.trans hj.symm) (hdistinct' j hlt i hij)
  · exact Option.some.inj (hj.symm.trans hj')
  · exact absurd (hi'.trans hj'.symm) (hdistinct j' hlt i' hij')

/-! ## 3. The rounds of the search -/

/-- One round of the search: its answer, or the item to go on with. -/
def round (book : Book) (start : ManifestItem) (visited : List String) (current : ManifestItem) :
    Except Fault Bool ⊕ ManifestItem :=
  if mediaTypes.contains current.mediaType then .inl (.ok true)
  else match current.fallback with
    | none => .inl (.ok false)
    | some idref =>
      if (current.id :: visited).contains idref then
        .inl (.error (.order (.fallbackCycle start.id idref)))
      else match book.item? idref with
        | none => .inl (.error (.missingItem (.fallback idref current.id)))
        | some next => .inr next

/-- The search from an item is at another after so many rounds, and has passed some identifiers. -/
inductive Searches (book : Book) (start : ManifestItem) :
    (rounds : Nat) → (visited : List String) → (current : ManifestItem) → Prop
  | start : Searches book start 0 [] start
  | next {rounds : Nat} {visited : List String} {current next : ManifestItem}
      (h : Searches book start rounds visited current)
      (hround : round book start visited current = .inr next) :
      Searches book start (rounds + 1) (current.id :: visited) next

/-- How a round ends the search. -/
inductive Answers (book : Book) (start : ManifestItem) (visited : List String)
    (current : ManifestItem) : Except Fault Bool → Prop
  | document (h : IsDocument current) : Answers book start visited current (.ok true)
  | last (h : ¬ IsDocument current) (hlast : current.fallback = none) :
      Answers book start visited current (.ok false)
  | passed {idref : String} (h : ¬ IsDocument current) (hidref : current.fallback = some idref)
      (hpassed : idref ∈ current.id :: visited) :
      Answers book start visited current (.error (.order (.fallbackCycle start.id idref)))
  | missing {idref : String} (h : ¬ IsDocument current) (hidref : current.fallback = some idref)
      (hmissing : book.item? idref = none) :
      Answers book start visited current (.error (.missingItem (.fallback idref current.id)))

variable {visited : List String}

/-- A round gives one of these answers, or goes on to a fallback that has not been passed. -/
theorem round_cases (book : Book) (start : ManifestItem) (visited : List String)
    (current : ManifestItem) :
    (∃ answer, round book start visited current = .inl answer ∧
      Answers book start visited current answer) ∨
    ∃ next, round book start visited current = .inr next ∧ Passes book current next ∧
      next.id ∉ current.id :: visited := by
  have hdocument : mediaTypes.contains current.mediaType = true ↔ IsDocument current := by
    simp [IsDocument]
  rw [round]
  split
  · rename_i h
    exact .inl ⟨_, rfl, .document (hdocument.mp h)⟩
  · rename_i h
    rw [hdocument] at h
    split
    · rename_i hlast
      exact .inl ⟨_, rfl, .last h hlast⟩
    · rename_i idref hidref
      split
      · rename_i hpassed
        exact .inl ⟨_, rfl, .passed h hidref (by simpa using hpassed)⟩
      · rename_i hnew
        split
        · rename_i hmissing
          exact .inl ⟨_, rfl, .missing h hidref hmissing⟩
        · rename_i next hnext
          refine .inr ⟨next, rfl, ⟨h, idref, hidref, hnext⟩, ?_⟩
          rw [(Book.mem_and_id_eq_of_item? hnext).2]
          simpa using hnew

theorem answers_of_round {answer : Except Fault Bool}
    (h : round book start visited last = .inl answer) : Answers book start visited last answer := by
  rcases round_cases book start visited last with ⟨_, hround, hanswers⟩ | ⟨_, hround, -⟩
  · rw [h, Sum.inl.injEq] at hround
    exact hround ▸ hanswers
  · rw [h] at hround
    cases hround

theorem of_round_eq_inr (h : round book start visited last = .inr next) :
    Passes book last next ∧ next.id ∉ last.id :: visited := by
  rcases round_cases book start visited last with ⟨_, hround, -⟩ | ⟨_, hround, hpasses⟩
  · rw [h] at hround
    cases hround
  · rw [h, Sum.inr.injEq] at hround
    exact hround ▸ hpasses

/-- The search is its rounds. -/
theorem reaches_eq_round : reaches book start visited last =
    (round book start visited last).elim id fun next =>
      reaches book start (last.id :: visited) next := by
  rw [reaches_eq, round]
  by_cases hdocument : mediaTypes.contains last.mediaType = true
  · rw [if_pos hdocument, if_pos hdocument]
    rfl
  rw [if_neg hdocument, if_neg hdocument]
  cases last.fallback with
  | none => rfl
  | some idref =>
    by_cases hpassed : (last.id :: visited).contains idref = true
    · simp only [if_pos hpassed]
      rfl
    · simp only [if_neg hpassed]
      cases book.item? idref <;> rfl

/-- From wherever the search has come to, some round gives its answer. -/
theorem exists_answer (h : Searches book start rounds visited last) :
    ∃ more visited' last', Searches book start more visited' last' ∧
      round book start visited' last' = .inl (reaches book start visited last) := by
  generalize hids : countOutside book.manifest (last.id :: visited) = outside
  induction outside using Nat.strongRecOn generalizing rounds visited last with
  | _ outside ih =>
    rw [reaches_eq_round]
    cases hround : round book start visited last with
    | inl answer => exact ⟨rounds, visited, last, h, hround⟩
    | inr next =>
      obtain ⟨⟨-, idref, -, hfound⟩, hnew⟩ := of_round_eq_inr hround
      have hmem := (Book.mem_and_id_eq_of_item? hfound).1
      exact ih _ (hids ▸ countOutside_cons_lt hmem (by simpa using hnew)) (h.next hround) rfl

namespace Searches

/-- After so many rounds the search is at that place of the chain. -/
theorem reached (h : Searches book start rounds visited last) :
    chain book start rounds = some last := by
  induction h with
  | start => rfl
  | next _ hround ih =>
    rw [chain_succ_of_eq ih]
    exact next?_eq_some_iff.mpr (of_round_eq_inr hround).1.2

theorem no_document (h : Searches book start rounds visited last) :
    ∀ k < rounds, ∀ other, chain book start k = some other → ¬ IsDocument other := by
  induction h with
  | start => exact fun k hk => absurd hk (Nat.not_lt_zero k)
  | next hbefore hround ih =>
    intro k hk other hother
    rcases Nat.lt_succ_iff_lt_or_eq.mp hk with hlt | rfl
    · exact ih k hlt other hother
    · rw [hbefore.reached, Option.some.injEq] at hother
      exact hother ▸ (of_round_eq_inr hround).1.1

/-- What has been passed are the identifiers of the items before. -/
theorem mem_visited_iff (h : Searches book start rounds visited last) {id : String} :
    id ∈ visited ↔ ∃ k < rounds, ∃ other, chain book start k = some other ∧ other.id = id := by
  induction h with
  | start => simp
  | @next rounds visited current _ hbefore _ ih =>
    have hcurrent : (∃ other, chain book start rounds = some other ∧ other.id = id) ↔
        id = current.id := by
      simp [hbefore.reached, eq_comm]
    rw [List.mem_cons, ih, ← hcurrent]
    simp only [Nat.lt_succ_iff_lt_or_eq, or_and_right, exists_or, exists_eq_left]
    exact or_comm

theorem mem_passed_iff (h : Searches book start rounds visited last) {id : String} :
    id ∈ last.id :: visited ↔
      ∃ k ≤ rounds, ∃ other, chain book start k = some other ∧ other.id = id := by
  have hlast : (∃ other, chain book start rounds = some other ∧ other.id = id) ↔ id = last.id := by
    simp [h.reached, eq_comm]
  rw [List.mem_cons, h.mem_visited_iff, ← hlast]
  simp only [Nat.le_iff_lt_or_eq, or_and_right, exists_or, exists_eq_left]
  exact or_comm

/-- No identifier is passed twice. -/
theorem nodup (h : Searches book start rounds visited last) : (last.id :: visited).Nodup := by
  induction h with
  | start => exact List.nodup_singleton _
  | next _ hround ih => exact List.nodup_cons.mpr ⟨(of_round_eq_inr hround).2, ih⟩

theorem length_visited (h : Searches book start rounds visited last) : visited.length = rounds := by
  induction h with
  | start => rfl
  | next _ _ ih => rw [List.length_cons, ih]

/-- As the identifiers passed are different ones of the manifest, there are no more rounds than items. -/
theorem rounds_lt (h : Searches book start rounds visited last) (hstart : start ∈ book.manifest) :
    rounds < book.manifest.length := by
  have hsubset : last.id :: visited ⊆ book.manifest.map (·.id) := by
    intro id hid
    obtain ⟨k, -, other, hother, rfl⟩ := h.mem_passed_iff.mp hid
    exact List.mem_map_of_mem (mem_of_chain_eq hstart hother)
  have hlength := (h.nodup.subperm hsubset).length_le
  rw [List.length_cons, h.length_visited, List.length_map] at hlength
  exact hlength

/-- The items that the search comes to are different. -/
theorem chain_ne (h : Searches book start rounds visited last) :
    ∀ k ≤ rounds, ∀ m < k, chain book start m ≠ chain book start k := by
  induction h with
  | start => exact fun k hk m hm => absurd (Nat.lt_of_lt_of_le hm hk) (Nat.not_lt_zero m)
  | @next rounds visited current next hbefore hround ih =>
    intro k hk m hm heq
    rcases Nat.le_succ_iff.mp hk with hle | rfl
    · exact ih k hle m hm heq
    · rw [(hbefore.next hround).reached] at heq
      exact (of_round_eq_inr hround).2
        (hbefore.mem_passed_iff.mpr ⟨m, Nat.lt_succ_iff.mp hm, next, heq, rfl⟩)

end Searches

/-- **The search ends**: after fewer rounds than the manifest has items, one gives the answer. -/
theorem exists_last_round (hitem : item ∈ book.manifest) :
    ∃ rounds visited last, rounds < book.manifest.length ∧ Searches book item rounds visited last ∧
      round book item visited last = .inl (eligible book item) := by
  have hstart : Searches book item 0 [] item := .start
  obtain ⟨rounds, visited, last, hsearches, hround⟩ := exists_answer hstart
  exact ⟨rounds, visited, last, hsearches.rounds_lt hitem, hsearches, hround⟩

/-! ## 4. The answer -/

/-- What the search answers, by the chain. -/
inductive ChainOutcome (book : Book) (item : ManifestItem) : Except Fault Bool → Prop
  | document (h : MeetsDocument book item) : ChainOutcome book item (.ok true)
  | last (h : EndsBefore book item) : ChainOutcome book item (.ok false)
  | missing {holder : ManifestItem} {idref : String} (h : BreaksOff book item holder idref) :
      ChainOutcome book item (.error (.missingItem (.fallback idref holder.id)))
  | circle {again : ManifestItem} (h : GoesRound book item) (hagain : ComesAgain book item again) :
      ChainOutcome book item (.error (.order (.fallbackCycle item.id again.id)))

/-- Where no two items share an identifier, an identifier that comes again is an item that comes again. -/
theorem chainOutcome_of_passed (hids : (book.manifest.map (·.id)).Nodup)
    (hitem : item ∈ book.manifest) (hsearches : Searches book item rounds visited last)
    (hlast : Passed book item rounds last) (hidref : last.fallback = some idref)
    (hpassed : idref ∈ last.id :: visited) :
    ChainOutcome book item (.error (.order (.fallbackCycle item.id idref))) := by
  obtain ⟨k, hk, again, hagain, rfl⟩ := hsearches.mem_passed_iff.mp hpassed
  have hfound : book.item? again.id = some again :=
    (Book.item?_eq_some_iff hids).mpr ⟨mem_of_chain_eq hitem hagain, rfl⟩
  have hlt : k < rounds + 1 := Nat.lt_succ_of_le hk
  have hrepeated : chain book item (rounds + 1) = some again := by
    rw [chain_succ_of_eq hlast.reached, next?, hidref]
    exact hfound
  refine .circle ⟨fun m other hother => ?_, k, rounds + 1, again, hlt, hagain, hrepeated⟩
    ⟨k, rounds + 1, hlt, hagain, hrepeated, fun k hk => hsearches.chain_ne k (Nat.le_of_lt_succ hk)⟩
  obtain ⟨before, hbefore, heq⟩ :=
    exists_before_of_repeated hlt (hagain.trans hrepeated.symm) m
  exact hlast.no_document before (Nat.le_of_lt_succ hbefore) other (heq ▸ hother)

/-- **The search answers what the chain says.** -/
theorem chainOutcome_eligible (hids : (book.manifest.map (·.id)).Nodup)
    (hitem : item ∈ book.manifest) : ChainOutcome book item (eligible book item) := by
  obtain ⟨rounds, visited, last, -, hsearches, hround⟩ := exists_last_round hitem
  have hpassed (hlast : ¬ IsDocument last) : Passed book item rounds last := by
    refine ⟨hsearches.reached, fun k hk other hother => ?_⟩
    rcases Nat.lt_or_eq_of_le hk with hlt | rfl
    · exact hsearches.no_document k hlt other hother
    · rw [hsearches.reached, Option.some.injEq] at hother
      exact hother ▸ hlast
  have hanswers := answers_of_round hround
  generalize eligible book item = answer at hanswers
  cases hanswers with
  | document h => exact .document ⟨rounds, last, hsearches.reached, h⟩
  | last h hlast => exact .last ⟨rounds, last, hpassed h, hlast⟩
  | missing h hidref hmissing => exact .missing ⟨rounds, hpassed h, hidref, hmissing⟩
  | passed h hidref hseen =>
    exact chainOutcome_of_passed hids hitem hsearches (hpassed h) hidref hseen

/-- A chain has one outcome. -/
theorem ChainOutcome.unique {answer answer' : Except Fault Bool} (h : ChainOutcome book item answer)
    (h' : ChainOutcome book item answer') : answer = answer' := by
  cases h with
  | document h =>
    cases h' with
    | document => rfl
    | last h' => exact absurd h h'.not_meetsDocument
    | missing h' => exact absurd h h'.stops.not_meetsDocument
    | circle h' => exact absurd h h'.not_meetsDocument
  | last h =>
    cases h' with
    | document h' => exact absurd h' h.not_meetsDocument
    | last => rfl
    | missing h' => exact absurd h' h.not_breaksOff
    | circle h' => exact absurd h' h.not_goesRound
  | missing h =>
    cases h' with
    | document h' => exact absurd h' h.stops.not_meetsDocument
    | last h' => exact absurd h h'.not_breaksOff
    | missing h' =>
      obtain ⟨rfl, rfl⟩ := h.unique h'
      rfl
    | circle h' => exact absurd h' h.stops.not_goesRound
  | circle h hagain =>
    cases h' with
    | document h' => exact absurd h' h.not_meetsDocument
    | last h' => exact absurd h h'.not_goesRound
    | missing h' => exact absurd h h'.stops.not_goesRound
    | circle _ hagain' => rw [hagain.unique hagain']

theorem eligible_eq_iff {answer : Except Fault Bool} (hids : (book.manifest.map (·.id)).Nodup)
    (hitem : item ∈ book.manifest) : eligible book item = answer ↔ ChainOutcome book item answer :=
  ⟨fun h => h ▸ chainOutcome_eligible hids hitem, (chainOutcome_eligible hids hitem).unique⟩

/-- The chain of an item decides whether it is eligible. -/
structure DecidedByChain (book : Book) (item : ManifestItem) : Prop where
  true_iff : eligible book item = .ok true ↔ MeetsDocument book item
  false_iff : eligible book item = .ok false ↔ EndsBefore book item
  /-- The fault names the identifier that is missing, and the item that has it as its fallback. -/
  missing_iff : ∀ idref id, eligible book item = .error (.missingItem (.fallback idref id)) ↔
    ∃ holder, BreaksOff book item holder idref ∧ holder.id = id
  circle_iff : (∃ idref, eligible book item = .error (.order (.fallbackCycle item.id idref))) ↔
    GoesRound book item
  /-- The fault names the first item that comes again. -/
  circle_through : ∀ idref, eligible book item = .error (.order (.fallbackCycle item.id idref)) ↔
    GoesRound book item ∧ ∃ again, ComesAgain book item again ∧ again.id = idref
  /-- There are no other faults. -/
  faults : ∀ fault, eligible book item = .error fault →
    (∃ idref id, fault = .missingItem (.fallback idref id)) ∨
      ∃ idref, fault = .order (.fallbackCycle item.id idref)

theorem decidedByChain (hids : (book.manifest.map (·.id)).Nodup) (hitem : item ∈ book.manifest) :
    DecidedByChain book item where
  true_iff := by
    rw [eligible_eq_iff hids hitem]
    exact ⟨fun (.document h) => h, .document⟩
  false_iff := by
    rw [eligible_eq_iff hids hitem]
    exact ⟨fun (.last h) => h, .last⟩
  missing_iff idref id := by
    rw [eligible_eq_iff hids hitem]
    constructor
    · rintro (_ | _ | h)
      exact ⟨_, h, rfl⟩
    · rintro ⟨holder, h, rfl⟩
      exact .missing h
  circle_iff := by
    constructor
    · rintro ⟨idref, heligible⟩
      cases (eligible_eq_iff hids hitem).mp heligible with
      | circle h => exact h
    · intro h
      generalize heligible : eligible book item = answer
      cases (eligible_eq_iff hids hitem).mp heligible with
      | document h' => exact absurd h' h.not_meetsDocument
      | last h' => exact absurd h h'.not_goesRound
      | missing h' => exact absurd h h'.stops.not_goesRound
      | circle _ hagain => exact ⟨_, rfl⟩
  circle_through idref := by
    rw [eligible_eq_iff hids hitem]
    constructor
    · rintro (_ | _ | _ | ⟨h, hagain⟩)
      exact ⟨h, _, hagain, rfl⟩
    · rintro ⟨h, again, hagain, rfl⟩
      exact .circle h hagain
  faults fault h := by
    cases (eligible_eq_iff hids hitem).mp h with
    | missing => exact .inl ⟨_, _, rfl⟩
    | circle => exact .inr ⟨_, rfl⟩

/-- **Every search for a document ends, and where no two items share an identifier the chain of fallbacks
decides the answer**, so that the first eligible item is found if nothing goes astray before it. -/
theorem eligible_by_chain (book : Book) :
    (∀ item ∈ book.manifest, ∃ rounds visited last, rounds < book.manifest.length ∧
      Searches book item rounds visited last ∧
      round book item visited last = .inl (eligible book item)) ∧
    ((book.manifest.map (·.id)).Nodup → ∀ item ∈ book.manifest, DecidedByChain book item) ∧
    ∀ item, firstEligible book = .ok item ↔ IsFirstEligible book book.manifest item :=
  ⟨fun _ => exists_last_round, fun hids _ => decidedByChain hids, fun _ => firstEligibleOf_eq_ok_iff⟩

/-- A title that leads into a circle of three drawings, and a drawing on a circle with a page. -/
def circlesBook : Book where
  manifest := [
    { source := "title.svg", path := "title.svg", mediaType := "image/svg+xml", id := "title",
      fallback := some "one" },
    { source := "one.svg", path := "one.svg", mediaType := "image/svg+xml", id := "one",
      fallback := some "two" },
    { source := "two.svg", path := "two.svg", mediaType := "image/svg+xml", id := "two",
      fallback := some "three" },
    { source := "three.svg", path := "three.svg", mediaType := "image/svg+xml", id := "three",
      fallback := some "one" },
    { source := "map.svg", path := "map.svg", mediaType := "image/svg+xml", id := "map",
      fallback := some "page" },
    { source := "page.xhtml", path := "page.xhtml", mediaType := "application/xhtml+xml",
      id := "page", fallback := some "map" }]

/-- A circle is found also where it does not come back to the item that the search is for, and it does
no harm with a document on it. -/
theorem circlesBook_eligible : (circlesBook.manifest.map (·.id)).Nodup ∧
    ∃ title ∈ circlesBook.manifest, ∃ map ∈ circlesBook.manifest,
      title.id = "title" ∧ map.id = "map" ∧
      eligible circlesBook title = .error (.order (.fallbackCycle "title" "one")) ∧
      eligible circlesBook map = .ok true := by
  have hids : (circlesBook.manifest.map (·.id)).Nodup := by decide
  have hdecided := (eligible_by_chain circlesBook).2.1 hids
  have hrepeated : chain circlesBook circlesBook.manifest[0] 1 =
      chain circlesBook circlesBook.manifest[0] 4 := rfl
  have hdrawings : ∀ k < 4, ∀ other ∈ chain circlesBook circlesBook.manifest[0] k,
      ¬ IsDocument other := by decide
  have hround : GoesRound circlesBook circlesBook.manifest[0] := by
    refine ⟨fun m other hother => ?_, 1, 4, _, by decide, rfl, rfl⟩
    obtain ⟨k, hk, heq⟩ := exists_before_of_repeated (by decide) hrepeated m
    exact hdrawings k hk other (heq ▸ hother)
  have hagain : ComesAgain circlesBook circlesBook.manifest[0] circlesBook.manifest[1] :=
    ⟨1, 4, by decide, rfl, rfl, by decide⟩
  exact ⟨hids, circlesBook.manifest[0], by decide, circlesBook.manifest[4], by decide, rfl, rfl,
    ((hdecided _ (by decide)).circle_through "one").mpr ⟨hround, _, hagain, rfl⟩,
    (hdecided _ (by decide)).true_iff.mpr ⟨1, _, rfl, by decide⟩⟩

end Bindery.Spine
