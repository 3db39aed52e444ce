import Bibliography.Proofs.Filling
import Mathlib.Data.List.Pairwise
import Mathlib.Data.Set.Basic

/-!
The groups that a merge brings together: each survivor with all that is merged into it.
Matching is reflexive and symmetric but in general not transitive, so the groups depend on
the order of the records. Where it is transitive they are the classes of matching records,
in any order; the order only decides which member of a class survives.
-/

namespace Bibliography

theorem Fingerprint.resembles_self (fingerprint : Fingerprint) :
    fingerprint.resembles fingerprint = true := by
  simp [resembles]

namespace Record

theorem resembles_self (record : Record) : record.resembles record = true :=
  Fingerprint.resembles_self _

theorem resembles_symm {record other : Record} (alike : record.resembles other = true) :
    other.resembles record = true := by
  rw [resembles, Fingerprint.resembles_comm]
  exact alike

/-- Matching is transitive on the fingerprints of these records. -/
def MatchTransitively (records : List Record) : Prop :=
  ∀ first ∈ records, ∀ second ∈ records, ∀ third ∈ records,
    first.resembles second = true → second.resembles third = true →
      first.resembles third = true

def likes (records : List Record) (record : Record) : Set Record :=
  {other | other ∈ records ∧ record.resembles other = true}

end Record

def survivorsOf (records : List Record) : List Record :=
  dropDuplicates (mergeDuplicates records).2 records

/-- A survivor with all that is merged into it. -/
def groupOf (records : List Record) (survivor : Record) : Set Record :=
  {record | record ∈ survivor :: mergedInto (mergeDuplicates records).2 survivor}

def groupsOf (records : List Record) : Set (Set Record) :=
  {group | ∃ survivor ∈ survivorsOf records, group = groupOf records survivor}

def classesOf (records : List Record) : Set (Set Record) :=
  {likes | ∃ record ∈ records, likes = Record.likes records record}

section Groups

variable {records : List Record}

theorem survivor_mem {survivor : Record} (member : survivor ∈ survivorsOf records) :
    survivor ∈ records :=
  (mem_drop_duplicates.1 member).1

theorem grouped_of_mem (distinct : (records.map Record.position).Nodup) {record : Record}
    (member : record ∈ records) :
    ∃ survivor ∈ survivorsOf records, record ∈ groupOf records survivor := by
  have choice := duplicates_greedy distinct
  by_cases left : record ∈ survivorsOf records
  · exact ⟨record, left, List.mem_cons_self⟩
  · have away : ∃ duplicate ∈ (mergeDuplicates records).2,
        duplicate.record.position = record.position := by
      by_contra none
      apply left
      apply mem_drop_duplicates.2
      exact ⟨member, fun duplicate inside same => none ⟨duplicate, inside, same⟩⟩
    obtain ⟨duplicate, inside, place⟩ := away
    have known := choice.ordered.subset (List.mem_map_of_mem inside)
    have same := List.inj_on_of_nodup_map distinct known member place
    obtain ⟨survivor, foremost⟩ := choice.foremost duplicate inside
    refine ⟨survivor, foremost.member, List.mem_cons_of_mem _ ?_⟩
    exact mem_merged_into.2 ⟨duplicate, inside, foremost.position, same⟩

theorem likes_of_grouped (distinct : (records.map Record.position).Nodup)
    {survivor record : Record} (left : survivor ∈ survivorsOf records)
    (grouped : record ∈ groupOf records survivor) : record ∈ Record.likes records survivor := by
  rcases List.mem_cons.1 grouped with rfl | merged
  · exact ⟨survivor_mem left, record.resembles_self⟩
  · have choice := duplicates_greedy distinct
    obtain ⟨duplicate, inside, place, rfl⟩ := mem_merged_into.1 merged
    obtain ⟨other, foremost⟩ := choice.foremost duplicate inside
    have same : other = survivor :=
      List.inj_on_of_nodup_map distinct (survivor_mem foremost.member) (survivor_mem left)
        (foremost.position.symm.trans place)
    refine ⟨choice.ordered.subset (List.mem_map_of_mem inside), ?_⟩
    exact Record.resembles_symm (same ▸ foremost.alike)

theorem survivors_apart (distinct : (records.map Record.position).Nodup)
    {first second : Record} (one : first ∈ survivorsOf records)
    (other : second ∈ survivorsOf records) (alike : first.resembles second = true) :
    first = second := by
  have symmetric : Std.Symm fun first second : Record =>
      first.resembles second = false ∧ second.resembles first = false :=
    ⟨fun _ _ unlike => ⟨unlike.2, unlike.1⟩⟩
  by_contra different
  have unlike := (duplicates_greedy distinct).apart.forall one other different
  rw [unlike.1] at alike
  exact absurd alike (by decide)

theorem likes_eq_of_resembles (transitive : Record.MatchTransitively records)
    {first second : Record} (one : first ∈ records) (other : second ∈ records)
    (alike : first.resembles second = true) :
    Record.likes records first = Record.likes records second := by
  ext record
  constructor
  · intro found
    exact ⟨found.1, transitive second other first one record found.1
      (Record.resembles_symm alike) found.2⟩
  · intro found
    exact ⟨found.1, transitive first one second other record found.1 alike found.2⟩

/-- The group of a survivor is its class: what matches it is merged into it, and not into
another survivor. -/
theorem group_eq_likes (distinct : (records.map Record.position).Nodup)
    (transitive : Record.MatchTransitively records) {survivor : Record}
    (left : survivor ∈ survivorsOf records) :
    groupOf records survivor = Record.likes records survivor := by
  ext record
  constructor
  · exact likes_of_grouped distinct left
  · intro alike
    obtain ⟨other, otherLeft, grouped⟩ := grouped_of_mem distinct alike.1
    have joined := likes_of_grouped distinct otherLeft grouped
    have same := survivors_apart distinct left otherLeft
      (transitive survivor (survivor_mem left) record alike.1 other (survivor_mem otherLeft)
        alike.2 (Record.resembles_symm joined.2))
    rw [same]
    exact grouped

theorem class_of_survivor (distinct : (records.map Record.position).Nodup)
    (transitive : Record.MatchTransitively records) {record : Record}
    (member : record ∈ records) :
    ∃ survivor ∈ survivorsOf records,
      Record.likes records record = Record.likes records survivor := by
  obtain ⟨survivor, left, grouped⟩ := grouped_of_mem distinct member
  have alike := (likes_of_grouped distinct left grouped).2
  exact ⟨survivor, left, likes_eq_of_resembles transitive member (survivor_mem left)
    (Record.resembles_symm alike)⟩

theorem classes_of_survivors (distinct : (records.map Record.position).Nodup)
    (transitive : Record.MatchTransitively records) :
    ((survivorsOf records).map (Record.likes records)).Nodup ∧
      ∀ likes, likes ∈ (survivorsOf records).map (Record.likes records) ↔
        likes ∈ classesOf records := by
  constructor
  · have single : (survivorsOf records).Nodup := (List.Nodup.of_map _ distinct).filter _
    apply single.map_on
    intro first one second other same
    have self : second ∈ Record.likes records second :=
      ⟨survivor_mem other, second.resembles_self⟩
    rw [← same] at self
    exact survivors_apart distinct one other self.2
  · intro likes
    rw [List.mem_map]
    constructor
    · rintro ⟨survivor, left, rfl⟩
      exact ⟨survivor, survivor_mem left, rfl⟩
    · rintro ⟨record, member, rfl⟩
      obtain ⟨survivor, left, same⟩ := class_of_survivor distinct transitive member
      exact ⟨survivor, left, same.symm⟩

end Groups

/-- The groups of a merge are the classes of matching records, with one survivor in each. -/
structure Grouped (records : List Record) : Prop where
  equivalence : Equivalence fun first second : {record // record ∈ records} =>
    first.val.resembles second.val = true
  classes : groupsOf records = classesOf records
  survivor : ∀ group ∈ classesOf records, ∃! record, record ∈ survivorsOf records ∧ record ∈ group

theorem grouped_of_transitive {records : List Record}
    (distinct : (records.map Record.position).Nodup)
    (transitive : Record.MatchTransitively records) : Grouped records where
  equivalence :=
    { refl := fun record => record.val.resembles_self
      symm := fun alike => Record.resembles_symm alike
      trans := fun {first second third} one other =>
        transitive _ first.property _ second.property _ third.property one other }
  classes := by
    ext group
    constructor
    · rintro ⟨survivor, left, rfl⟩
      exact ⟨survivor, survivor_mem left, group_eq_likes distinct transitive left⟩
    · rintro ⟨record, member, rfl⟩
      obtain ⟨survivor, left, same⟩ := class_of_survivor distinct transitive member
      exact ⟨survivor, left, same.trans (group_eq_likes distinct transitive left).symm⟩
  survivor := by
    rintro group ⟨record, member, rfl⟩
    obtain ⟨survivor, left, same⟩ := class_of_survivor distinct transitive member
    rw [same]
    refine ⟨survivor, ⟨left, survivor_mem left, survivor.resembles_self⟩, ?_⟩
    rintro other ⟨otherLeft, _, alike⟩
    exact (survivors_apart distinct left otherLeft alike).symm

theorem classes_perm {records others : List Record} (perm : others.Perm records) :
    classesOf others = classesOf records := by
  have likes : Record.likes others = Record.likes records := by
    funext record
    ext other
    exact and_congr_left' perm.mem_iff
  ext group
  simp only [classesOf, likes, perm.mem_iff]

/-- Where matching is transitive, records in any order fall into the same groups, the classes
of matching records, and as many survive. Which member of a group survives is up to the
order. -/
theorem merge_groups_any_order {records others : List Record}
    (distinct : (records.map Record.position).Nodup)
    (transitive : Record.MatchTransitively records) (perm : others.Perm records) :
    Grouped records ∧ Grouped others ∧ groupsOf others = groupsOf records ∧
      (survivorsOf others).length = (survivorsOf records).length := by
  have othersDistinct : (others.map Record.position).Nodup :=
    (perm.map Record.position).nodup_iff.2 distinct
  have othersTransitive : Record.MatchTransitively others := by
    intro first one second two third three
    exact transitive first (perm.subset one) second (perm.subset two) third (perm.subset three)
  have grouped := grouped_of_transitive distinct transitive
  have othersGrouped := grouped_of_transitive othersDistinct othersTransitive
  have classes := classes_perm perm
  refine ⟨grouped, othersGrouped, ?_, ?_⟩
  · rw [grouped.classes, othersGrouped.classes, classes]
  · have listed := classes_of_survivors distinct transitive
    have othersListed := classes_of_survivors othersDistinct othersTransitive
    have same : ((survivorsOf others).map (Record.likes others)).Perm
        ((survivorsOf records).map (Record.likes records)) := by
      apply (List.perm_ext_iff_of_nodup othersListed.1 listed.1).2
      intro likes
      rw [othersListed.2, listed.2, classes]
    simpa using same.length_eq

/-- In turn, other entries survive. -/
theorem crossed_entries_grouped :
    let records := Record.ofEntries crossedEntries
    (records.map Record.position).Nodup ∧ Record.MatchTransitively records ∧
      records.reverse.Perm records ∧
      ((survivorsOf records).map Record.position, (survivorsOf records.reverse).map
        Record.position) = ([0, 1], [4, 3]) ∧
      Grouped records ∧ Grouped records.reverse ∧ groupsOf records.reverse = groupsOf records ∧
        (survivorsOf records.reverse).length = (survivorsOf records).length := by
  intro records
  have distinct : (records.map Record.position).Nodup := by decide
  have transitive : Record.MatchTransitively records := by
    unfold Record.MatchTransitively
    decide +kernel
  have left : ((survivorsOf records).map Record.position, (survivorsOf records.reverse).map
      Record.position) = ([0, 1], [4, 3]) := by
    decide +kernel
  exact ⟨distinct, transitive, records.reverse_perm, left,
    merge_groups_any_order distinct transitive records.reverse_perm⟩

end Bibliography
