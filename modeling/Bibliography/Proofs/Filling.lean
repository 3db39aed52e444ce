import Bibliography.Proofs.Choice

/-!
What survivors are filled with. A survivor keeps its own fields, in their order and with
their values, and behind them stand the names it lacked, in the order in which they first
appear among its duplicates; each value comes from the first of them that has the name. It
does not matter that duplicates of other survivors stand in between. Everything but the
fields of survivors stays as it was.
-/

namespace Bibliography

namespace Fields

theorem contains_iff (fields : Fields) (name : Text) :
    fields.contains name = true ↔ name ∈ fields.names := by
  rw [contains, Option.isSome_iff_ne_none, get_eq_find, ne_eq, Field.find_eq_none_iff]
  exact Classical.not_not

theorem names_insert_new (fields : Fields) (name : Text) (value : Value) :
    (fields.insertNew name value).names =
      if name ∈ fields.names then fields.names else fields.names ++ [name] := by
  unfold insertNew
  by_cases known : name ∈ fields.names
  · rw [if_pos ((contains_iff fields name).2 known), if_pos known]
  · rw [if_neg (fun present => known ((contains_iff fields name).1 present)), names_insert]

theorem get_insert_new (fields : Fields) (name : Text) (value : Value) (other : Text) :
    (fields.insertNew name value).get? other =
      (fields.get? other).or (if name = other then some value else none) := by
  cases known : fields.get? other with
  | some kept => exact get_insert_new_of_some known name value
  | none =>
      rw [Option.none_or]
      unfold insertNew
      split
      · next present =>
          have different : name ≠ other := by
            intro same
            rw [contains, same, known] at present
            exact absurd present (by decide)
          rw [if_neg different, known]
      · rw [get_insert, known]

def insertAllNew (fields : Fields) (listed : List Field) : Fields :=
  listed.foldl (fun built field => built.insertNew field.1 field.2) fields

theorem insert_all_new_snoc (fields : Fields) (front : List Field) (field : Field) :
    fields.insertAllNew (front ++ [field]) =
      (fields.insertAllNew front).insertNew field.1 field.2 := by
  rw [insertAllNew, List.foldl_append]
  rfl

theorem names_insert_all_new (fields : Fields) (listed : List Field) :
    (fields.insertAllNew listed).names =
      fields.names ++ ((Field.names listed).filter fun name => name ∉ fields.names).eraseDups := by
  induction listed using List.reverseRecOn with
  | nil => exact (List.append_nil _).symm
  | append_singleton front field induction =>
      have split : Field.names (front ++ [field]) = Field.names front ++ [field.1] := by
        simp [Field.names]
      rw [insert_all_new_snoc, names_insert_new, induction, split, List.filter_append,
        List.eraseDups_append]
      by_cases own : field.1 ∈ fields.names
      · simp [own, List.removeAll]
      · by_cases known : field.1 ∈ Field.names front
        · simp [own, known, List.removeAll]
        · simp [own, known, List.removeAll, List.eraseDups_cons]

theorem get_insert_all_new (fields : Fields) (listed : List Field) (name : Text) :
    (fields.insertAllNew listed).get? name =
      (fields.get? name).or (Field.find? listed name) := by
  induction listed generalizing fields with
  | nil => exact (Option.or_none).symm
  | cons field rest induction =>
      rw [insertAllNew, List.foldl_cons, ← insertAllNew, induction, get_insert_new,
        Option.or_assoc, Field.find_cons]
      congr 1
      split <;> rfl

def fillAll (fields : Fields) (others : List Fields) : Fields := others.foldl fillFrom fields

theorem fill_all_snoc (fields : Fields) (front : List Fields) (last : Fields) :
    fields.fillAll (front ++ [last]) = (fields.fillAll front).fillFrom last := by
  rw [fillAll, List.foldl_append]
  rfl

theorem fill_all_listed (fields : Fields) (others : List Fields) :
    fields.fillAll others = fields.insertAllNew (others.flatMap toList) := by
  rw [insertAllNew, List.foldl_flatMap]
  rfl

theorem names_fill_all (fields : Fields) (others : List Fields) :
    (fields.fillAll others).names =
      fields.names ++
        ((others.flatMap names).filter fun name => name ∉ fields.names).eraseDups := by
  rw [fill_all_listed, names_insert_all_new, Field.names, List.map_flatMap]
  rfl

theorem get_fill_all (fields : Fields) (others : List Fields) (name : Text) :
    (fields.fillAll others).get? name =
      (fields :: others).findSome? fun source => source.get? name := by
  rw [fill_all_listed, get_insert_all_new, Field.find?, List.find?_flatMap, List.map_findSome?,
    List.findSome?_cons]
  cases fields.get? name <;> rfl

end Fields

def Record.fillAll (record : Record) (others : List Record) : Record :=
  record.withFields
    (record.entry.fields.fillAll (others.map fun other => other.entry.fields))

theorem Record.fill_all_snoc (record : Record) (front : List Record) (last : Record) :
    record.fillAll (front ++ [last]) =
      (record.fillAll front).withFields
        ((record.fillAll front).entry.fields.fillFrom last.entry.fields) := by
  rw [Record.fillAll, List.map_append, List.map_singleton, Fields.fill_all_snoc]
  rfl

/-- What is merged into the record, in the order of the duplicates. -/
def mergedInto (duplicates : List Duplicate) (record : Record) : List Record :=
  (duplicates.filter fun duplicate => duplicate.survivor == record.position).map Duplicate.record

theorem mem_merged_into {duplicates : List Duplicate} {survivor record : Record} :
    record ∈ mergedInto duplicates survivor ↔
      ∃ duplicate ∈ duplicates, duplicate.survivor = survivor.position ∧
        duplicate.record = record := by
  simp [mergedInto, and_assoc]

theorem merged_into_eq_nil_iff {duplicates : List Duplicate} {record : Record} :
    mergedInto duplicates record = [] ↔
      ∀ duplicate ∈ duplicates, duplicate.survivor ≠ record.position := by
  simp [mergedInto]

theorem merged_into_snoc (duplicates : List Duplicate) (last : Duplicate) (record : Record) :
    mergedInto (duplicates ++ [last]) record =
      mergedInto duplicates record ++
        if last.survivor = record.position then [last.record] else [] := by
  rw [mergedInto, List.filter_append, List.map_append, ← mergedInto]
  congr 1
  by_cases same : last.survivor = record.position
  · simp [same]
  · simp [same]

/-- The survivors are records with distinct positions, filled with what has been merged into
them; and whatever has been merged was merged into one of them. -/
structure Filled (records survivors : List Record) (duplicates : List Duplicate) : Prop where
  origins : ∀ survivor ∈ survivors, ∃ record ∈ records,
    survivor = record.fillAll (mergedInto duplicates record)
  distinct : (survivors.map Record.position).Nodup
  known : ∀ duplicate ∈ duplicates, duplicate.survivor ∈ survivors.map Record.position

namespace Filled

variable {records survivors front back : List Record} {duplicates : List Duplicate}
  {last survivor : Record}

theorem position_mem (filled : Filled records survivors duplicates) {place : Nat}
    (member : place ∈ survivors.map Record.position) : place ∈ records.map Record.position := by
  obtain ⟨survivor, inside, rfl⟩ := List.mem_map.1 member
  obtain ⟨record, first, rfl⟩ := filled.origins survivor inside
  exact List.mem_map.2 ⟨record, first, rfl⟩

theorem keep (filled : Filled records survivors duplicates)
    (apart : last.position ∉ records.map Record.position) :
    Filled (records ++ [last]) (survivors ++ [last]) duplicates where
  origins := by
    intro survivor member
    rcases List.mem_append.1 member with before | new
    · obtain ⟨record, first, same⟩ := filled.origins survivor before
      exact ⟨record, List.mem_append_left _ first, same⟩
    · refine ⟨last, by simp, ?_⟩
      have nothing : mergedInto duplicates last = [] := by
        apply merged_into_eq_nil_iff.2
        intro duplicate inside same
        exact apart (same ▸ filled.position_mem (filled.known duplicate inside))
      rw [nothing, List.mem_singleton.1 new]
      rfl
  distinct := by
    rw [List.map_append]
    apply List.nodup_append.2
    refine ⟨filled.distinct, List.nodup_singleton _, ?_⟩
    intro place member other new same
    rw [same, List.mem_singleton.1 new] at member
    exact apart (filled.position_mem member)
  known := by
    intro duplicate inside
    rw [List.map_append]
    exact List.mem_append_left _ (filled.known duplicate inside)

theorem merge (filled : Filled records (front ++ survivor :: back) duplicates) :
    Filled (records ++ [last])
      (front ++ survivor.withFields (survivor.entry.fields.fillFrom last.entry.fields) :: back)
      (duplicates ++ [⟨last, survivor.position, survivor.entry.key⟩]) := by
  have places : ∀ fields : Fields, (front ++ survivor.withFields fields :: back).map
      Record.position = (front ++ survivor :: back).map Record.position := by
    intro fields
    rw [List.map_append, List.map_append]
    rfl
  constructor
  · intro other member
    rw [List.mem_append, List.mem_cons, or_left_comm, ← List.mem_append] at member
    rcases member with rfl | apart
    · obtain ⟨record, first, same⟩ := filled.origins survivor (by simp)
      refine ⟨record, List.mem_append_left _ first, ?_⟩
      have place : survivor.position = record.position := by
        rw [same]
        rfl
      rw [merged_into_snoc, if_pos place, Record.fill_all_snoc, ← same]
    · have inside : other ∈ front ++ survivor :: back :=
        List.mem_append.2 ((List.mem_append.1 apart).imp_right (List.mem_cons_of_mem _))
      obtain ⟨record, first, same⟩ := filled.origins other inside
      refine ⟨record, List.mem_append_left _ first, ?_⟩
      have place : survivor.position ≠ record.position := by
        have distinct := filled.distinct
        rw [List.map_append, List.map_cons, List.nodup_middle, ← List.map_append] at distinct
        intro equal
        apply (List.nodup_cons.1 distinct).1
        refine List.mem_map.2 ⟨other, apart, ?_⟩
        rw [equal, same]
        rfl
      rw [merged_into_snoc, if_neg place, List.append_nil]
      exact same
  · rw [places]
    exact filled.distinct
  · intro duplicate inside
    rw [places]
    rcases List.mem_append.1 inside with old | new
    · exact filled.known duplicate old
    · rw [List.mem_singleton.1 new]
      exact List.mem_map_of_mem (by simp)

end Filled

namespace Pool

/-- The step: one more record with a position of its own. -/
theorem filled_added {records : List Record} {pool next : Pool} {last : Record}
    (filled : Filled records pool.survivors pool.duplicates)
    (apart : last.position ∉ records.map Record.position) (added : Added pool last next) :
    Filled (records ++ [last]) next.survivors next.duplicates := by
  cases added with
  | kept different =>
      rw [survivors, List.map_append]
      exact filled.keep apart
  | merged parts different alike =>
      rw [survivors, parts, List.map_append] at filled
      rw [survivors, List.map_append]
      exact filled.merge

theorem filled_of_records {records : List Record}
    (distinct : (records.map Record.position).Nodup) :
    Filled records (ofRecords records).survivors (ofRecords records).duplicates := by
  induction records using List.reverseRecOn with
  | nil => exact ⟨by simp [ofRecords, survivors], .nil, by simp [ofRecords]⟩
  | append_singleton front last induction =>
      rw [List.map_append, List.map_singleton, List.nodup_append] at distinct
      obtain ⟨before, _, apart⟩ := distinct
      rw [of_records_snoc]
      apply filled_added (induction before) _ (added _ last)
      intro member
      exact apart last.position member last.position (by simp) rfl

theorem current_filled {records : List Record} {pool : Pool}
    (filled : Filled records pool.survivors pool.duplicates)
    (distinct : (records.map Record.position).Nodup) {record : Record} (member : record ∈ records) :
    pool.current record = record.fillAll (mergedInto pool.duplicates record) := by
  unfold current
  split
  · next candidate found =>
      have inside : candidate.record ∈ pool.survivors :=
        List.mem_map_of_mem (List.mem_of_find?_eq_some found)
      obtain ⟨origin, first, same⟩ := filled.origins candidate.record inside
      have place : origin.position = record.position := by
        have listed := List.find?_some found
        rw [same] at listed
        exact beq_iff_eq.1 listed
      rw [same, List.inj_on_of_nodup_map distinct first member place]
  · next missing =>
      have nothing : mergedInto pool.duplicates record = [] := by
        apply merged_into_eq_nil_iff.2
        intro duplicate inside same
        obtain ⟨survivor, known, place⟩ := List.mem_map.1 (filled.known duplicate inside)
        obtain ⟨candidate, listed, rfl⟩ := List.mem_map.1 known
        exact List.find?_eq_none.1 missing candidate listed (beq_iff_eq.2 (place.trans same))
      rw [nothing]
      rfl

end Pool

/-- The record after a merge: its own names in their order, then those it lacked, in the order
in which they first appear going through the others; under each name the value of the first
that has it; and nothing else is changed. -/
structure Record.Union (record : Record) (others : List Record) (merged : Record) : Prop where
  bare : merged.bare = record.bare
  names : merged.entry.fields.names = record.entry.fields.names ++
    ((others.flatMap fun other => other.entry.fields.names).filter fun name =>
      name ∉ record.entry.fields.names).eraseDups
  values : ∀ name, merged.entry.get? name =
    (record :: others).findSome? fun source => source.entry.get? name

theorem Record.union_fill_all (record : Record) (others : List Record) :
    record.Union others (record.fillAll others) where
  bare := rfl
  names := by
    have listed := Fields.names_fill_all record.entry.fields
      (others.map fun other => other.entry.fields)
    rw [List.flatMap_map] at listed
    exact listed
  values := by
    intro name
    have found := Fields.get_fill_all record.entry.fields
      (others.map fun other => other.entry.fields) name
    rw [← List.map_cons (f := fun other : Record => other.entry.fields), List.findSome?_map]
      at found
    exact found

theorem merged_into_of_away {records : List Record}
    (distinct : (records.map Record.position).Nodup) {record : Record}
    (away : ∃ duplicate ∈ (mergeDuplicates records).2,
      duplicate.record.position = record.position) :
    mergedInto (mergeDuplicates records).2 record = [] := by
  obtain ⟨duplicate, inside, place⟩ := away
  apply merged_into_eq_nil_iff.2
  intro other member same
  obtain ⟨survivor, foremost⟩ := (duplicates_greedy distinct).foremost other member
  have kept := (mem_drop_duplicates.1 foremost.member).2 duplicate inside
  exact kept (place.trans (same.symm.trans foremost.position))

/-- What a merge makes of one of the records: it is united with what was merged into it, in
the order of the records, and is left alone if it was merged away itself. -/
structure Record.BecomesMerged (records : List Record) (duplicates : List Duplicate)
    (record merged : Record) : Prop where
  united : record.Union (mergedInto duplicates record) merged
  ordered : (mergedInto duplicates record).Sublist records
  away : (∃ duplicate ∈ duplicates, duplicate.record.position = record.position) →
    merged = record

/-- Merging is an ordered union in which the first value wins. -/
theorem merge_duplicates_first_wins {records : List Record}
    (distinct : (records.map Record.position).Nodup) :
    List.Forall₂ (Record.BecomesMerged records (mergeDuplicates records).2) records
      (mergeDuplicates records).1 := by
  have filled := Pool.filled_of_records distinct
  apply List.forall₂_map_right_iff.2
  apply List.forall₂_same.2
  intro record member
  rw [Pool.current_filled filled distinct member]
  refine ⟨record.union_fill_all _, ?_, ?_⟩
  · have ordered := (duplicates_greedy distinct).ordered
    exact (List.filter_sublist.map Duplicate.record).trans ordered
  · intro away
    have nothing : mergedInto (Pool.ofRecords records).duplicates record = [] :=
      merged_into_of_away distinct away
    rw [nothing]
    rfl

def crossedEntries : List Entry :=
  let entry : String → String → List (String × String) → Entry := fun key doi others =>
    ⟨"misc".toList, key.toList, .ofList (("title".toList, ⟨key.toList, .braces⟩) ::
      ("doi".toList, ⟨doi.toList, .quotes⟩) ::
        others.map fun field => (field.1.toList, ⟨field.2.toList, .braces⟩)), []⟩
  [entry "a" "10.1/x" [], entry "b" "10.1/y" [("note", "kept")],
    entry "c" "10.1/X" [("year", "1999")], entry "d" "10.1/y" [("note", "late"), ("isbn", "4")],
    entry "e" "10.1/x" [("note", "more"), ("year", "2000")]]

/-- The third and the last entry fill the first one, the fourth fills the second one. -/
theorem crossed_entries_merged :
    let records := Record.ofEntries crossedEntries
    let merged := mergeDuplicates records
    (records.map Record.position).Nodup ∧
      (merged.2.map fun duplicate => (duplicate.record.position, duplicate.survivor)) =
        [(2, 0), (3, 1), (4, 0)] ∧
      (merged.1.map fun record => record.entry.fields.names.map String.ofList) =
        [["title", "doi", "year", "note"], ["title", "doi", "note", "isbn"],
          ["title", "doi", "year"], ["title", "doi", "note", "isbn"],
          ["title", "doi", "note", "year"]] ∧
      List.Forall₂ (Record.BecomesMerged records merged.2) records merged.1 := by
  intro records merged
  have distinct : (records.map Record.position).Nodup := by decide
  have pairs : (merged.2.map fun duplicate =>
      (duplicate.record.position, duplicate.survivor)) = [(2, 0), (3, 1), (4, 0)] := by
    decide +kernel
  have names : (merged.1.map fun record => record.entry.fields.names.map String.ofList) =
      [["title", "doi", "year", "note"], ["title", "doi", "note", "isbn"],
        ["title", "doi", "year"], ["title", "doi", "note", "isbn"],
        ["title", "doi", "note", "year"]] := by
    decide +kernel
  exact ⟨distinct, pairs, names, merge_duplicates_first_wins distinct⟩

end Bibliography
