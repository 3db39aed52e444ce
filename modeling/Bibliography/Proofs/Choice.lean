import Bibliography.Proofs.Merge

/-!
Which records a merge takes for duplicates. The choice is greedy: each record is compared
with the survivors before it and is a duplicate of the first that it resembles. It is the
choice that is made without moving any fields, on the fingerprints of the records as they
are given, although survivors have taken over fields by the time they are compared. Nothing
is said here about the fields themselves.
-/

namespace Bibliography

namespace Fingerprint

theorem agrees_comm (left right : Option Text) : agrees left right = agrees right left := by
  cases left with
  | none => cases right <;> simp [agrees]
  | some words =>
      cases right with
      | none => simp [agrees]
      | some other => exact BEq.comm

theorem resembles_comm (left right : Fingerprint) :
    left.resembles right = right.resembles left := by
  unfold resembles
  rw [agrees_comm left.doi, agrees_comm left.abstract]
  congr 1
  exact BEq.comm

end Fingerprint

def Record.resembles (record other : Record) : Bool :=
  record.entry.fingerprint.resembles other.entry.fingerprint

/-- Survivors and duplicates among the records that have been compared so far. -/
structure Chosen where
  survivors : List Record := []
  duplicates : List Duplicate := []

namespace Chosen

/-- One more record, compared with the survivors; no fields are moved. -/
def choose (chosen : Chosen) (record : Record) : Chosen :=
  match chosen.survivors.find? fun survivor => record.resembles survivor with
  | none => { chosen with survivors := chosen.survivors ++ [record] }
  | some survivor =>
      { chosen with
        duplicates := chosen.duplicates ++ [⟨record, survivor.position, survivor.entry.key⟩] }

def ofRecords (records : List Record) : Chosen := records.foldl choose {}

theorem of_records_snoc (front : List Record) (last : Record) :
    ofRecords (front ++ [last]) = (ofRecords front).choose last := by
  rw [ofRecords, List.foldl_append]
  rfl

end Chosen

/-- The record is held by the candidate: with the fingerprint of the record as it was given,
whatever fields it has taken over since. -/
structure Record.HeldBy (record : Record) (candidate : Candidate) : Prop where
  fingerprint : candidate.fingerprint = record.entry.fingerprint
  bare : candidate.record.bare = record.bare

theorem Record.HeldBy.fill {record : Record} {candidate : Candidate}
    (held : record.HeldBy candidate) (fields : Fields) :
    record.HeldBy (candidate.fill fields) where
  fingerprint := held.fingerprint
  bare := (candidate.fill_grows fields).bare.trans held.bare

/-- The pool holds the survivors that have been chosen, and the duplicates. -/
structure Pool.Holds (pool : Pool) (chosen : Chosen) : Prop where
  survivors : List.Forall₂ Record.HeldBy chosen.survivors pool.candidates
  duplicates : pool.duplicates = chosen.duplicates

namespace Pool

variable {pool : Pool} {chosen : Chosen} {record : Record}

theorem holds_kept (holds : pool.Holds chosen)
    (different : ∀ candidate ∈ pool.candidates,
      record.entry.fingerprint.resembles candidate.fingerprint = false) :
    Holds ⟨pool.candidates ++ [⟨record.entry.fingerprint, record⟩], pool.duplicates⟩
      (chosen.choose record) := by
  have none : chosen.survivors.find? (fun survivor => record.resembles survivor) = none := by
    apply List.find?_eq_none.2
    intro survivor member
    obtain ⟨candidate, known, held⟩ := related_of_mem holds.survivors member
    have apart := different candidate known
    rw [held.fingerprint] at apart
    exact Bool.eq_false_iff.1 apart
  rw [Chosen.choose, none]
  exact ⟨List.rel_append holds.survivors (.cons ⟨rfl, rfl⟩ .nil), holds.duplicates⟩

theorem holds_merged (holds : pool.Holds chosen) {front back : List Candidate}
    {candidate : Candidate} (parts : pool.candidates = front ++ candidate :: back)
    (different : ∀ other ∈ front,
      record.entry.fingerprint.resembles other.fingerprint = false)
    (alike : record.entry.fingerprint.resembles candidate.fingerprint = true) :
    Holds ⟨front ++ candidate.fill record.entry.fields :: back,
        pool.duplicates ++ [⟨record, candidate.record.position, candidate.record.entry.key⟩]⟩
      (chosen.choose record) := by
  have survivors := holds.survivors
  rw [parts] at survivors
  have ahead := List.forall₂_take_append _ front (candidate :: back) survivors
  have behind := List.forall₂_drop_append _ front (candidate :: back) survivors
  obtain ⟨survivor, rest, held, others, dropped⟩ := List.forall₂_cons_right_iff.1 behind
  have whole : chosen.survivors = chosen.survivors.take front.length ++ survivor :: rest := by
    rw [← dropped, List.take_append_drop]
  have found : chosen.survivors.find? (fun survivor => record.resembles survivor) =
      some survivor := by
    apply List.find?_eq_some_iff_append.2
    refine ⟨?_, _, _, whole, ?_⟩
    · rw [held.fingerprint] at alike
      exact alike
    · intro other member
      obtain ⟨earlier, known, same⟩ := related_of_mem ahead member
      have apart := different earlier known
      rw [same.fingerprint] at apart
      exact congrArg not apart
  rw [Chosen.choose, found]
  constructor
  · dsimp only
    rw [whole]
    exact List.rel_append ahead (.cons (held.fill _) others)
  · dsimp only
    rw [holds.duplicates, Record.position_of_bare held.bare, Record.key_of_bare held.bare]

theorem add_holds (holds : pool.Holds chosen) (record : Record) :
    (pool.add record).Holds (chosen.choose record) := by
  have added := pool.added record
  generalize pool.add record = next at added
  cases added with
  | kept different => exact holds_kept holds different
  | merged parts different alike => exact holds_merged holds parts different alike

/-- The run over all records. -/
theorem of_records_holds (records : List Record) :
    (ofRecords records).Holds (Chosen.ofRecords records) := by
  induction records using List.reverseRecOn with
  | nil => exact ⟨.nil, rfl⟩
  | append_singleton front last induction =>
      rw [of_records_snoc, Chosen.of_records_snoc]
      exact add_holds induction last

end Pool

/-- The duplicate stands behind a survivor that it resembles, and it resembles no survivor
that stands before that one. -/
structure Foremost (records survivors : List Record) (duplicate : Duplicate)
    (survivor : Record) : Prop where
  member : survivor ∈ survivors
  position : duplicate.survivor = survivor.position
  key : duplicate.survivorKey = survivor.entry.key
  alike : duplicate.record.resembles survivor = true
  stands : ∃ front middle back,
    records = front ++ survivor :: (middle ++ duplicate.record :: back) ∧
      ∀ other ∈ front, other ∈ survivors → duplicate.record.resembles other = false

/-- A greedy choice: the survivors are the records that are no duplicates, no two of them
match, and each duplicate is taken once, in the order of the records, for a duplicate of the
first survivor that it matches. -/
structure GreedyChoice (records survivors : List Record) (duplicates : List Duplicate) : Prop where
  left : survivors = dropDuplicates duplicates records
  apart : survivors.Pairwise fun first second =>
    first.resembles second = false ∧ second.resembles first = false
  foremost : ∀ duplicate ∈ duplicates, ∃ survivor, Foremost records survivors duplicate survivor
  ordered : (duplicates.map Duplicate.record).Sublist records
  once : (duplicates.map fun duplicate => duplicate.record.position).Nodup

theorem Record.apart_of_distinct {records : List Record} {last : Record}
    (distinct : ((records ++ [last]).map Record.position).Nodup) :
    ∀ record ∈ records, record.position ≠ last.position := by
  intro record member same
  rw [List.map_append] at distinct
  have different := (List.nodup_append.1 distinct).2.2 record.position
    (List.mem_map_of_mem member) last.position (by simp)
  exact different same

theorem drop_duplicates_kept {duplicates : List Duplicate} {records : List Record} {last : Record}
    (fresh : ∀ duplicate ∈ duplicates, duplicate.record.position ≠ last.position) :
    dropDuplicates duplicates (records ++ [last]) =
      dropDuplicates duplicates records ++ [last] := by
  have alone : dropDuplicates duplicates [last] = [last] := by
    apply List.filter_eq_self.2
    intro record member
    rw [List.mem_singleton.1 member]
    simpa using fresh
  rw [dropDuplicates, List.filter_append]
  exact congrArg _ alone

theorem drop_duplicates_merged {duplicates : List Duplicate} {records : List Record}
    {duplicate : Duplicate}
    (fresh : ∀ record ∈ records, record.position ≠ duplicate.record.position) :
    dropDuplicates (duplicates ++ [duplicate]) (records ++ [duplicate.record]) =
      dropDuplicates duplicates records := by
  have gone : dropDuplicates (duplicates ++ [duplicate]) [duplicate.record] = [] := by
    apply List.filter_eq_nil_iff.2
    intro record member
    rw [List.mem_singleton.1 member]
    simp
  have same : dropDuplicates (duplicates ++ [duplicate]) records =
      dropDuplicates duplicates records := by
    apply List.filter_congr
    intro record member
    simp [Ne.symm (fresh record member)]
  rw [dropDuplicates, List.filter_append, ← dropDuplicates, ← dropDuplicates, same, gone,
    List.append_nil]

namespace Foremost

variable {records survivors : List Record} {duplicate : Duplicate} {survivor : Record}

theorem onward (foremost : Foremost records survivors duplicate survivor) {last : Record}
    (fresh : last ∉ records) {more : List Record} (grown : more ⊆ survivors ++ [last])
    (kept : survivors ⊆ more) : Foremost (records ++ [last]) more duplicate survivor where
  member := kept foremost.member
  position := foremost.position
  key := foremost.key
  alike := foremost.alike
  stands := by
    obtain ⟨front, middle, back, parts, others⟩ := foremost.stands
    refine ⟨front, middle, back ++ [last], by rw [parts]; simp, ?_⟩
    intro other ahead known
    rcases List.mem_append.1 (grown known) with before | new
    · exact others other ahead before
    · have inside : last ∈ records := by
        rw [parts, ← List.mem_singleton.1 new]
        exact List.mem_append_left _ ahead
      exact absurd inside fresh

end Foremost

namespace GreedyChoice

variable {records survivors : List Record} {duplicates : List Duplicate} {last : Record}

theorem fresh (choice : GreedyChoice records survivors duplicates)
    (apart : ∀ record ∈ records, record.position ≠ last.position) :
    ∀ duplicate ∈ duplicates, duplicate.record.position ≠ last.position :=
  fun _ member => apart _ (choice.ordered.subset (List.mem_map_of_mem member))

theorem keep (choice : GreedyChoice records survivors duplicates)
    (apart : ∀ record ∈ records, record.position ≠ last.position)
    (different : ∀ survivor ∈ survivors, last.resembles survivor = false) :
    GreedyChoice (records ++ [last]) (survivors ++ [last]) duplicates where
  left := by
    rw [drop_duplicates_kept (choice.fresh apart), ← choice.left]
  apart := by
    apply List.pairwise_append.2
    refine ⟨choice.apart, List.pairwise_singleton _ _, ?_⟩
    intro survivor member other new
    rw [List.mem_singleton.1 new]
    have one := different survivor member
    exact ⟨by rw [Record.resembles, Fingerprint.resembles_comm]; exact one, one⟩
  foremost := by
    intro duplicate member
    obtain ⟨survivor, foremost⟩ := choice.foremost duplicate member
    exact ⟨survivor, foremost.onward (fun inside => apart last inside rfl)
      (List.Subset.refl _) (List.subset_append_left _ _)⟩
  ordered := choice.ordered.trans (List.sublist_append_left _ _)
  once := choice.once

theorem merge (choice : GreedyChoice records survivors duplicates)
    (apart : ∀ record ∈ records, record.position ≠ last.position) {survivor : Record}
    (found : survivors.find? (fun survivor => last.resembles survivor) = some survivor) :
    GreedyChoice (records ++ [last]) survivors
      (duplicates ++ [⟨last, survivor.position, survivor.entry.key⟩]) where
  left := by
    rw [drop_duplicates_merged apart, ← choice.left]
  apart := choice.apart
  foremost := by
    intro duplicate member
    rcases List.mem_append.1 member with known | new
    · obtain ⟨earlier, foremost⟩ := choice.foremost duplicate known
      exact ⟨earlier, foremost.onward (fun inside => apart last inside rfl)
        (List.subset_append_left _ _) (List.Subset.refl _)⟩
    · rw [List.mem_singleton.1 new]
      refine ⟨survivor, List.mem_of_find?_eq_some found, rfl, rfl, List.find?_some found, ?_⟩
      -- Among the records the search passes over those that are no survivors.
      have searched := found
      rw [choice.left, dropDuplicates, List.find?_filter, List.find?_eq_some_iff_append] at searched
      obtain ⟨_, front, middle, parts, others⟩ := searched
      refine ⟨front, middle, [], by rw [parts]; simp, ?_⟩
      intro other ahead known
      have passed := others other ahead
      rw [choice.left, dropDuplicates, List.mem_filter] at known
      simpa [known.2] using passed
  ordered := by
    rw [List.map_append]
    exact choice.ordered.append (List.Sublist.refl _)
  once := by
    rw [List.map_append]
    apply List.nodup_append.2
    refine ⟨choice.once, List.nodup_singleton _, ?_⟩
    intro place member other new
    rw [List.mem_singleton.1 new]
    obtain ⟨duplicate, known, rfl⟩ := List.mem_map.1 member
    exact choice.fresh apart duplicate known

end GreedyChoice

namespace Chosen

/-- The step: one more record with a position of its own. -/
theorem choose_greedy {records : List Record} {chosen : Chosen} {last : Record}
    (choice : GreedyChoice records chosen.survivors chosen.duplicates)
    (apart : ∀ record ∈ records, record.position ≠ last.position) :
    GreedyChoice (records ++ [last]) (chosen.choose last).survivors
      (chosen.choose last).duplicates := by
  unfold choose
  split
  · next none =>
      apply choice.keep apart
      intro survivor member
      exact Bool.eq_false_iff.2 (List.find?_eq_none.1 none survivor member)
  · next survivor found => exact choice.merge apart found

theorem of_records_greedy {records : List Record} (distinct : (records.map Record.position).Nodup) :
    GreedyChoice records (ofRecords records).survivors (ofRecords records).duplicates := by
  induction records using List.reverseRecOn with
  | nil => exact ⟨rfl, .nil, by simp [ofRecords], .refl _, .nil⟩
  | append_singleton front last induction =>
      have before : (front.map Record.position).Nodup := by
        rw [List.map_append] at distinct
        exact (List.nodup_append.1 distinct).1
      rw [of_records_snoc]
      exact choose_greedy (induction before) (Record.apart_of_distinct distinct)

end Chosen

theorem duplicates_chosen (records : List Record) :
    (mergeDuplicates records).2 = (Chosen.ofRecords records).duplicates :=
  (Pool.of_records_holds records).duplicates

theorem duplicates_greedy {records : List Record}
    (distinct : (records.map Record.position).Nodup) :
    GreedyChoice records (dropDuplicates (mergeDuplicates records).2 records)
      (mergeDuplicates records).2 := by
  have choice := Chosen.of_records_greedy distinct
  rw [duplicates_chosen, ← choice.left]
  exact choice

/-- The duplicates that a merge finds are those of the choice without any filling, and with
the records that are left they are a greedy choice. -/
theorem merge_duplicates_greedy {records : List Record}
    (distinct : (records.map Record.position).Nodup) :
    Chosen.ofRecords records =
        ⟨dropDuplicates (mergeDuplicates records).2 records, (mergeDuplicates records).2⟩ ∧
      GreedyChoice records (dropDuplicates (mergeDuplicates records).2 records)
        (mergeDuplicates records).2 := by
  have choice := Chosen.of_records_greedy distinct
  have duplicates : (mergeDuplicates records).2 = (Chosen.ofRecords records).duplicates :=
    (Pool.of_records_holds records).duplicates
  rw [duplicates, ← choice.left]
  exact ⟨rfl, choice⟩

def linkedEntries : List Entry :=
  let title : Text → Field := fun words => ("title".toList, ⟨words, .braces⟩)
  let doi : Field := ("doi".toList, ⟨"10.1/x".toList, .braces⟩)
  let summary : Field := ("abstract".toList, ⟨"The same words".toList, .braces⟩)
  [⟨"misc".toList, "first".toList, .ofList [title "One".toList, doi], []⟩,
    ⟨"misc".toList, "second".toList, .ofList [title "Two".toList, doi, summary], []⟩,
    ⟨"misc".toList, "third".toList, .ofList [title "Three".toList, summary], []⟩]

/-- The first entry takes over the abstract and is still not compared by it. -/
theorem linked_entries_chosen :
    let records := Record.ofEntries linkedEntries
    let duplicates := (mergeDuplicates records).2
    (records.map Record.position).Nodup ∧
      (duplicates.map fun duplicate => (duplicate.record.position, duplicate.survivor)) = [(1, 0)] ∧
      Chosen.ofRecords records = ⟨dropDuplicates duplicates records, duplicates⟩ ∧
      GreedyChoice records (dropDuplicates duplicates records) duplicates := by
  intro records duplicates
  have distinct : (records.map Record.position).Nodup := by decide
  have pairs : (duplicates.map fun duplicate =>
      (duplicate.record.position, duplicate.survivor)) = [(1, 0)] := by
    decide +kernel
  exact ⟨distinct, pairs, merge_duplicates_greedy distinct⟩

end Bibliography
