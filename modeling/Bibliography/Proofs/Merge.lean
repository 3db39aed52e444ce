import Bibliography.Proofs.Fields
import Bibliography.Proofs.Order
import Bibliography.Proofs.Lists
import Bibliography.Merge
import Mathlib.Data.List.Induction

/-!
Merging record by record. A record resembles no survivor and becomes one, or the first
survivor that it resembles takes over its fields. From that one step it follows what the
whole merge keeps: every record is either a survivor or merged away, survivors change in
their fields only, and duplicates not at all.
-/

namespace Bibliography

/-- A record without its fields: what it keeps when it takes over others. -/
def Record.bare (record : Record) : Record := record.withFields Fields.empty

theorem Record.part_of_bare {Part : Type} (part : Record → Part)
    (blind : ∀ record : Record, part record.bare = part record) {left right : Record}
    (same : left.bare = right.bare) : part left = part right := by
  rw [← blind left, same, blind right]

theorem Record.position_of_bare {left right : Record} (same : left.bare = right.bare) :
    left.position = right.position :=
  part_of_bare position (fun _ => rfl) same

theorem Record.key_of_bare {left right : Record} (same : left.bare = right.bare) :
    left.entry.key = right.entry.key :=
  part_of_bare (fun record => record.entry.key) (fun _ => rfl) same

theorem Record.numbered_bare {records : List Record} :
    Record.Numbered (records.map Record.bare) ↔ Record.Numbered records := by
  rw [Record.Numbered, List.pairwise_map]
  rfl

/-- The copy differs from its origin at most by more fields. -/
structure Record.Grows (copy origin : Record) : Prop where
  bare : copy.bare = origin.bare
  fields : ∀ name value, origin.entry.get? name = some value → copy.entry.get? name = some value

namespace Record.Grows

theorem refl (record : Record) : record.Grows record := ⟨rfl, fun _ _ known => known⟩

theorem trans {first second third : Record} (late : first.Grows second)
    (early : second.Grows third) : first.Grows third where
  bare := late.bare.trans early.bare
  fields := fun name value known => late.fields name value (early.fields name value known)

theorem map_bare {copies origins : List Record} (grown : List.Forall₂ Record.Grows copies origins) :
    copies.map Record.bare = origins.map Record.bare :=
  (map_of_related (fun _ _ grows => grows.bare.symm) grown).symm

end Record.Grows

theorem Candidate.fill_grows (candidate : Candidate) (fields : Fields) :
    (candidate.fill fields).record.Grows candidate.record where
  bare := rfl
  fields := fun _ _ known => Fields.get_fill_from_of_some known fields

theorem mem_drop_duplicates {duplicates : List Duplicate} {records : List Record}
    {record : Record} :
    record ∈ dropDuplicates duplicates records ↔
      record ∈ records ∧ ∀ duplicate ∈ duplicates,
        duplicate.record.position ≠ record.position := by
  simp [dropDuplicates]

theorem drop_no_duplicates (records : List Record) : dropDuplicates [] records = records := by
  simp [dropDuplicates]

/-- What becomes of a fingerprint and its fields among the candidates. -/
inductive Absorbed (fingerprint : Fingerprint) (fields : Fields) (candidates : List Candidate) :
    Option (Record × List Candidate) → Prop
  | apart (different : ∀ candidate ∈ candidates,
      fingerprint.resembles candidate.fingerprint = false) :
      Absorbed fingerprint fields candidates none
  | first {front back : List Candidate} {candidate : Candidate}
      (parts : candidates = front ++ candidate :: back)
      (different : ∀ other ∈ front, fingerprint.resembles other.fingerprint = false)
      (alike : fingerprint.resembles candidate.fingerprint = true) :
      Absorbed fingerprint fields candidates
        (some (candidate.record, front ++ candidate.fill fields :: back))

theorem absorbed (fingerprint : Fingerprint) (fields : Fields) (candidates : List Candidate) :
    Absorbed fingerprint fields candidates (absorb fingerprint fields candidates) := by
  induction candidates with
  | nil => exact .apart (by simp)
  | cons candidate rest induction =>
      unfold absorb
      by_cases alike : fingerprint.resembles candidate.fingerprint = true
      · rw [if_pos alike]
        exact .first (List.nil_append _).symm (by simp) alike
      · have different := Bool.eq_false_iff.2 alike
        rw [if_neg alike]
        cases later : absorb fingerprint fields rest with
        | none =>
            rw [later] at induction
            cases induction with
            | apart others => exact .apart (List.forall_mem_cons.2 ⟨different, others⟩)
        | some outcome =>
            rw [later] at induction
            cases induction with
            | @first front back found parts others alike =>
                rw [parts]
                exact .first (List.cons_append ..).symm
                  (List.forall_mem_cons.2 ⟨different, others⟩) alike

namespace Pool

/-- The pool after one more record. -/
inductive Added (pool : Pool) (record : Record) : Pool → Prop
  | kept (different : ∀ candidate ∈ pool.candidates,
      record.entry.fingerprint.resembles candidate.fingerprint = false) :
      Added pool record
        ⟨pool.candidates ++ [⟨record.entry.fingerprint, record⟩], pool.duplicates⟩
  | merged {front back : List Candidate} {candidate : Candidate}
      (parts : pool.candidates = front ++ candidate :: back)
      (different : ∀ other ∈ front,
        record.entry.fingerprint.resembles other.fingerprint = false)
      (alike : record.entry.fingerprint.resembles candidate.fingerprint = true) :
      Added pool record
        ⟨front ++ candidate.fill record.entry.fields :: back,
          pool.duplicates ++
            [⟨record, candidate.record.position, candidate.record.entry.key⟩]⟩

theorem added (pool : Pool) (record : Record) : Added pool record (pool.add record) := by
  have outcome := absorbed record.entry.fingerprint record.entry.fields pool.candidates
  unfold add
  dsimp only
  cases found : absorb record.entry.fingerprint record.entry.fields pool.candidates with
  | none =>
      rw [found] at outcome
      cases outcome with
      | apart different => exact .kept different
  | some taken =>
      rw [found] at outcome
      cases outcome with
      | first parts different alike => exact .merged parts different alike

theorem of_records_snoc (front : List Record) (last : Record) :
    ofRecords (front ++ [last]) = (ofRecords front).add last := by
  rw [ofRecords, List.foldl_append]
  rfl

def survivors (pool : Pool) : List Record := pool.candidates.map Candidate.record

end Pool

/-- The records are divided into survivors, which may have grown, and duplicates, each of
an earlier survivor. -/
structure Divided (records survivors : List Record) (duplicates : List Duplicate) : Prop where
  all : (survivors.map Record.bare ++ (duplicates.map Duplicate.record).map Record.bare).Perm
    (records.map Record.bare)
  kept : (survivors.map Record.bare).Sublist (records.map Record.bare)
  grown : ∀ survivor ∈ survivors, ∃ record ∈ records, survivor.Grows record
  away : (duplicates.map Duplicate.record).Sublist records
  earlier : ∀ duplicate ∈ duplicates, ∃ survivor ∈ survivors,
    survivor.position = duplicate.survivor ∧ survivor.entry.key = duplicate.survivorKey ∧
      survivor.position < duplicate.record.position

theorem divided_alone (records : List Record) : Divided records records [] where
  all := by simp
  kept := List.Sublist.refl _
  grown := fun record member => ⟨record, member, .refl record⟩
  away := List.nil_sublist _
  earlier := by simp

namespace Divided

variable {records survivors : List Record} {duplicates : List Duplicate}

theorem positions (divided : Divided records survivors duplicates) :
    (survivors.map Record.position ++ duplicates.map fun duplicate =>
      duplicate.record.position).Perm (records.map Record.position) := by
  have whole := divided.all.map Record.position
  simp only [List.map_append, List.map_map] at whole
  exact whole

theorem numbered (divided : Divided records survivors duplicates)
    (ascending : Record.Numbered records) : Record.Numbered survivors := by
  rw [← Record.numbered_bare] at ascending ⊢
  exact ascending.sublist divided.kept

theorem fill (divided : Divided records survivors duplicates) {filled : List Record}
    (grown : List.Forall₂ Record.Grows filled survivors) : Divided records filled duplicates where
  all := Record.Grows.map_bare grown ▸ divided.all
  kept := Record.Grows.map_bare grown ▸ divided.kept
  grown := by
    intro copy member
    rcases related_of_mem grown member with ⟨survivor, known, late⟩
    rcases divided.grown survivor known with ⟨record, first, early⟩
    exact ⟨record, first, late.trans early⟩
  away := divided.away
  earlier := by
    intro duplicate member
    rcases divided.earlier duplicate member with ⟨survivor, known, place, key, before⟩
    have copied : survivor.bare ∈ filled.map Record.bare :=
      Record.Grows.map_bare grown ▸ List.mem_map_of_mem known
    rcases List.mem_map.1 copied with ⟨copy, found, bare⟩
    rw [← Record.position_of_bare bare] at place before
    rw [← Record.key_of_bare bare] at key
    exact ⟨copy, found, place, key, before⟩

theorem keep (divided : Divided records survivors duplicates) (last : Record) :
    Divided (records ++ [last]) (survivors ++ [last]) duplicates where
  all := by
    rw [List.map_append, List.map_append, List.append_assoc]
    apply (List.perm_append_comm.append_left _).trans
    rw [← List.append_assoc]
    exact divided.all.append_right _
  kept := by
    rw [List.map_append, List.map_append]
    exact divided.kept.append (List.Sublist.refl _)
  grown := by
    intro survivor member
    rcases List.mem_append.1 member with known | new
    · rcases divided.grown survivor known with ⟨record, first, grows⟩
      exact ⟨record, List.mem_append_left _ first, grows⟩
    · rw [List.mem_singleton.1 new]
      exact ⟨last, List.mem_append_right _ (List.mem_singleton.2 rfl), .refl last⟩
  away := divided.away.trans (List.sublist_append_left _ _)
  earlier := by
    intro duplicate member
    rcases divided.earlier duplicate member with ⟨survivor, known, same⟩
    exact ⟨survivor, List.mem_append_left _ known, same⟩

theorem merge (divided : Divided records survivors duplicates) {survivor last : Record}
    (member : survivor ∈ survivors)
    (later : ∀ record ∈ records, record.position < last.position) :
    Divided (records ++ [last]) survivors
      (duplicates ++ [⟨last, survivor.position, survivor.entry.key⟩]) where
  all := by
    rw [List.map_append, List.map_append, List.map_append, ← List.append_assoc]
    exact divided.all.append_right _
  kept := by
    rw [List.map_append]
    exact divided.kept.trans (List.sublist_append_left _ _)
  grown := by
    intro other known
    rcases divided.grown other known with ⟨record, first, grows⟩
    exact ⟨record, List.mem_append_left _ first, grows⟩
  away := by
    rw [List.map_append]
    exact divided.away.append (List.Sublist.refl _)
  earlier := by
    intro duplicate inside
    rcases List.mem_append.1 inside with known | new
    · exact divided.earlier duplicate known
    · rw [List.mem_singleton.1 new]
      rcases divided.grown survivor member with ⟨record, known, grows⟩
      have before := later record known
      rw [← Record.position_of_bare grows.bare] at before
      exact ⟨survivor, member, rfl, rfl, before⟩

theorem apart (divided : Divided records survivors duplicates)
    (ascending : Record.Numbered records) {survivor : Record} (member : survivor ∈ survivors)
    {duplicate : Duplicate} (inside : duplicate ∈ duplicates) :
    duplicate.record.position ≠ survivor.position := by
  have distinct := divided.positions.nodup_iff.2 (Record.nodup_positions ascending)
  have different := (List.nodup_append.1 distinct).2.2 survivor.position
    (List.mem_map_of_mem member) duplicate.record.position (List.mem_map_of_mem inside)
  exact different.symm

end Divided

namespace Pool

/-- The step: one more record, later than all before it. -/
theorem divided_added {records : List Record} {pool next : Pool} {last : Record}
    (divided : Divided records pool.survivors pool.duplicates)
    (later : ∀ record ∈ records, record.position < last.position)
    (added : Added pool last next) :
    Divided (records ++ [last]) next.survivors next.duplicates := by
  cases added with
  | kept different =>
      have grown : (⟨pool.candidates ++ [⟨last.entry.fingerprint, last⟩], pool.duplicates⟩ :
          Pool).survivors = pool.survivors ++ [last] := List.map_append ..
      rw [grown]
      exact divided.keep last
  | @merged front back candidate parts different alike =>
      have inside : candidate ∈ pool.candidates := by
        rw [parts]
        exact List.mem_append_right _ List.mem_cons_self
      have grown := divided.merge (List.mem_map_of_mem inside) later
      apply grown.fill
      have same : ∀ candidates : List Candidate, List.Forall₂ Record.Grows
          (candidates.map Candidate.record) (candidates.map Candidate.record) :=
        fun _ => List.forall₂_same.2 fun record _ => .refl record
      rw [survivors, survivors, parts, List.map_append, List.map_append]
      exact List.rel_append (same front) (.cons (candidate.fill_grows _) (same back))

theorem divided_of_records {records : List Record} (numbered : Record.Numbered records) :
    Divided records (ofRecords records).survivors (ofRecords records).duplicates := by
  induction records using List.reverseRecOn with
  | nil => exact divided_alone []
  | append_singleton front last induction =>
      rcases List.pairwise_append.1 numbered with ⟨frontNumbered, _, later⟩
      rw [of_records_snoc]
      exact divided_added (induction frontNumbered)
        (fun record member => later record member last (List.mem_singleton.2 rfl)) (added _ last)

theorem position_current (pool : Pool) (record : Record) :
    (pool.current record).position = record.position := by
  unfold current
  split
  · next found =>
      have same := List.find?_some found
      exact beq_iff_eq.1 same
  · rfl

/-- What the pool holds in place of a record is the survivor with its position. -/
theorem current_of_survivor {pool : Pool} (numbered : Record.Numbered pool.survivors)
    {survivor record : Record} (member : survivor ∈ pool.survivors)
    (place : survivor.position = record.position) : pool.current record = survivor := by
  unfold current
  rcases List.mem_map.1 member with ⟨candidate, known, rfl⟩
  split
  · next other found =>
      have same := List.find?_some found
      exact Record.eq_of_position numbered
        (List.mem_map_of_mem (List.mem_of_find?_eq_some found)) member
        ((beq_iff_eq.1 same).trans place.symm)
  · next missing =>
      have different := List.find?_eq_none.1 missing candidate known
      exact absurd (beq_iff_eq.2 place) different

theorem drop_duplicates_current {records : List Record} {pool : Pool}
    (divided : Divided records pool.survivors pool.duplicates)
    (numbered : Record.Numbered records) :
    dropDuplicates pool.duplicates (records.map pool.current) = pool.survivors := by
  have survivorsNumbered := divided.numbered numbered
  have currentNumbered : Record.Numbered (records.map pool.current) := by
    rw [Record.Numbered, List.pairwise_map]
    simp only [position_current]
    exact numbered
  have leftNumbered : Record.Numbered
      (dropDuplicates pool.duplicates (records.map pool.current)) := currentNumbered.filter _
  apply Record.eq_of_numbered leftNumbered survivorsNumbered
  intro record
  rw [mem_drop_duplicates]
  constructor
  · intro left
    rcases left with ⟨member, different⟩
    rcases List.mem_map.1 member with ⟨before, known, rfl⟩
    have bare := divided.all.mem_iff.2 (List.mem_map_of_mem known)
    rcases List.mem_append.1 bare with survived | merged
    · rcases List.mem_map.1 survived with ⟨survivor, inside, same⟩
      rw [current_of_survivor survivorsNumbered inside (Record.position_of_bare same)]
      exact inside
    · rcases List.mem_map.1 merged with ⟨other, listed, same⟩
      rcases List.mem_map.1 listed with ⟨duplicate, inside, rfl⟩
      have place := Record.position_of_bare same
      rw [← position_current pool before] at place
      exact absurd place (different duplicate inside)
  · intro member
    rcases divided.grown record member with ⟨before, known, grows⟩
    have place := Record.position_of_bare grows.bare
    rw [← current_of_survivor survivorsNumbered member place]
    refine ⟨List.mem_map_of_mem known, ?_⟩
    intro duplicate inside
    rw [position_current, ← place]
    exact divided.apart numbered member inside

end Pool

theorem merge_duplicates_divided {records : List Record} (numbered : Record.Numbered records) :
    Divided records
      (dropDuplicates (mergeDuplicates records).2 (mergeDuplicates records).1)
      (mergeDuplicates records).2 := by
  have divided := Pool.divided_of_records numbered
  unfold mergeDuplicates
  dsimp only
  rw [Pool.drop_duplicates_current divided numbered]
  exact divided

end Bibliography
