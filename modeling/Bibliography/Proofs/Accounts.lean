import Bibliography.Proofs.Merge
import Bibliography.Tidy

/-!
What a run does with the entries of a document. Each of them is written or merged away,
and only once; what is merged away stands behind its survivor. The written entries are
the survivors in the order of the document, or sorted by the fields they have after the
merge, no matter that duplicates are sorted along with them.
-/

namespace Bibliography

namespace Record

theorem positions_of_entries (entries : List Entry) :
    (ofEntries entries).map position = List.range entries.length := by
  apply List.ext_getElem
  · simp [ofEntries]
  · intro place first second
    simp [ofEntries]

theorem numbered_of_entries (entries : List Entry) : Numbered (ofEntries entries) := by
  have ascending := List.pairwise_lt_range (n := entries.length)
  rw [← positions_of_entries] at ascending
  exact List.pairwise_map.1 ascending

theorem entry_at_position {entries : List Entry} {record : Record}
    (member : record ∈ ofEntries entries) : entries[record.position]? = some record.entry := by
  rcases List.mem_mapIdx.1 member with ⟨place, bound, rfl⟩
  exact List.getElem?_eq_getElem bound

/-- The record is a copy of the entry. It may have more fields, and a new summary. -/
structure CopyOf (record : Record) (entry : Entry) : Prop where
  kind : record.entry.kind = entry.kind
  key : record.entry.key = entry.key
  comments : record.entry.comments = entry.comments
  fields : ∀ name value, name ≠ "metadata".toList → entry.get? name = some value →
    record.entry.get? name = some value

theorem copy_of_grows {copy origin : Record} (grows : copy.Grows origin) :
    copy.CopyOf origin.entry where
  kind := part_of_bare (fun record => record.entry.kind) (fun _ => rfl) grows.bare
  key := key_of_bare grows.bare
  comments := part_of_bare (fun record => record.entry.comments) (fun _ => rfl) grows.bare
  fields := fun name value _ known => grows.fields name value known

theorem CopyOf.trans {first second : Record} {entry : Entry} (late : first.CopyOf second.entry)
    (early : second.CopyOf entry) : first.CopyOf entry where
  kind := late.kind.trans early.kind
  key := late.key.trans early.key
  comments := late.comments.trans early.comments
  fields := fun name value different known =>
    late.fields name value different (early.fields name value different known)

theorem copy_of_annotated (usage : Usage) (record : Record) :
    (usage.annotate record).CopyOf record.entry where
  kind := rfl
  key := rfl
  comments := rfl
  fields := by
    intro name value different known
    change Fields.get? ((record.entry.fields.erase _).insert _ _) name = some value
    rw [Fields.get_insert, if_neg (Ne.symm different), Fields.get_erase (Ne.symm different)]
    exact known

end Record

namespace Options

variable (options : Options)

/-- The records that are left after merging, in the order of the document. -/
def survivors (document : Document) : List Record :=
  let merged := options.mergeRecords (Record.ofEntries document.entries)
  dropDuplicates merged.2 merged.1

theorem merge_records_divided (document : Document) :
    Divided (Record.ofEntries document.entries) (options.survivors document)
      (options.mergeRecords (Record.ofEntries document.entries)).2 := by
  have numbered := Record.numbered_of_entries document.entries
  unfold survivors mergeRecords
  dsimp only
  split
  · exact merge_duplicates_divided numbered
  · rw [drop_no_duplicates]
    exact divided_alone _

theorem merge_records_numbered {records : List Record} (numbered : Record.Numbered records) :
    Record.Numbered (options.mergeRecords records).1 := by
  unfold mergeRecords
  split
  · unfold mergeDuplicates Record.Numbered
    rw [List.pairwise_map]
    simp only [Pool.position_current]
    exact numbered
  · exact numbered

/-- The records of a run are its survivors, put in order and finished. -/
theorem tidy_records_eq (document : Document) :
    (options.tidy document).records =
      (options.orderRecords (options.survivors document)).map
        (options.finishRecord (options.tidy document).usage) := by
  have numbered := options.merge_records_numbered
    (Record.numbered_of_entries document.entries)
  unfold tidy survivors
  dsimp only
  apply congrArg (List.map _)
  unfold orderRecords
  split
  · rfl
  · exact Record.filter_order numbered options.sort fun record => rfl

theorem finish_record_position (usage : Usage) (record : Record) :
    (options.finishRecord usage record).position = record.position := by
  unfold finishRecord
  dsimp only
  split <;> rfl

theorem finish_record_sort_key (usage : Usage) (record : Record) :
    (options.finishRecord usage record).sortKey = record.sortKey := by
  unfold finishRecord
  dsimp only
  split <;> rfl

theorem finish_record_copy (usage : Usage) (record : Record) :
    (options.finishRecord usage record).CopyOf record.entry := by
  unfold finishRecord
  dsimp only
  split
  · exact Record.copy_of_annotated usage (record.cite options.tex)
  · exact ⟨rfl, rfl, rfl, fun _ _ _ known => known⟩

/-- The key that a record gets before sorting. -/
def keyRecord (record : Record) : Record :=
  if options.sort.isEmpty then record else record.keyed options.sort

theorem key_record_position (record : Record) :
    (options.keyRecord record).position = record.position := by
  unfold keyRecord
  split <;> rfl

theorem key_record_entry (record : Record) : (options.keyRecord record).entry = record.entry := by
  unfold keyRecord
  split <;> rfl

theorem order_records_perm (records : List Record) :
    (options.orderRecords records).Perm (records.map options.keyRecord) := by
  unfold orderRecords
  split
  · next unsorted =>
      have same : options.keyRecord = id := by
        funext record
        exact if_pos unsorted
      rw [same, List.map_id]
  · next sorted =>
      have same : options.keyRecord = Record.keyed options.sort := by
        funext record
        exact if_neg sorted
      rw [same]
      exact Record.order_perm options.sort records

/-- What is written of a survivor. -/
def finishSurvivor (document : Document) (survivor : Record) : Record :=
  options.finishRecord (options.tidy document).usage (options.keyRecord survivor)

theorem finish_survivor_position (document : Document) (survivor : Record) :
    (options.finishSurvivor document survivor).position = survivor.position := by
  rw [finishSurvivor, finish_record_position, key_record_position]

theorem finish_survivor_copy (document : Document) (survivor : Record) :
    (options.finishSurvivor document survivor).CopyOf survivor.entry := by
  have finished := options.finish_record_copy (options.tidy document).usage
    (options.keyRecord survivor)
  rw [key_record_entry] at finished
  exact finished

theorem tidy_records_perm (document : Document) :
    (options.tidy document).records.Perm
      ((options.survivors document).map (options.finishSurvivor document)) := by
  rw [tidy_records_eq]
  have ordered := (options.order_records_perm (options.survivors document)).map
    (options.finishRecord (options.tidy document).usage)
  rw [List.map_map] at ordered
  exact ordered

theorem mem_tidy_records {document : Document} {record : Record} :
    record ∈ (options.tidy document).records ↔
      ∃ survivor ∈ options.survivors document, options.finishSurvivor document survivor = record :=
  (options.tidy_records_perm document).mem_iff.trans List.mem_map

theorem tidy_positions_perm (document : Document) :
    ((options.tidy document).records.map Record.position).Perm
      ((options.survivors document).map Record.position) := by
  have listed := (options.tidy_records_perm document).map Record.position
  have same : Record.position ∘ options.finishSurvivor document = Record.position :=
    funext fun survivor => options.finish_survivor_position document survivor
  rw [List.map_map, same] at listed
  exact listed

theorem tidy_duplicates_eq (document : Document) :
    (options.tidy document).duplicates =
      (options.mergeRecords (Record.ofEntries document.entries)).2.map fun duplicate =>
        { duplicate with record := options.keyRecord duplicate.record } := by
  unfold tidy keyDuplicates keyRecord
  dsimp only
  split
  · exact (List.map_id' _).symm
  · rfl

theorem tidy_duplicates_unmerged (document : Document) (off : options.merge = false) :
    (options.tidy document).duplicates = [] := by
  rw [tidy_duplicates_eq]
  unfold mergeRecords
  rw [if_neg (by simp [off])]
  rfl

theorem survivors_unmerged (document : Document) (off : options.merge = false) :
    options.survivors document = Record.ofEntries document.entries := by
  unfold survivors mergeRecords
  rw [if_neg (by simp [off])]
  exact drop_no_duplicates _

theorem tidy_duplicates_positions (document : Document) :
    ((options.tidy document).duplicates.map fun duplicate => duplicate.record.position) =
      (options.mergeRecords (Record.ofEntries document.entries)).2.map fun duplicate =>
        duplicate.record.position := by
  rw [tidy_duplicates_eq, List.map_map]
  apply List.map_congr_left
  intro duplicate _
  exact options.key_record_position duplicate.record

theorem survivors_numbered (document : Document) : Record.Numbered (options.survivors document) :=
  (options.merge_records_divided document).numbered (Record.numbered_of_entries document.entries)

theorem positions_divided (document : Document) :
    ((options.tidy document).records.map Record.position ++
      (options.tidy document).duplicates.map fun duplicate => duplicate.record.position).Perm
        (List.range document.entries.length) := by
  have divided := (options.merge_records_divided document).positions
  rw [Record.positions_of_entries] at divided
  rw [tidy_duplicates_positions]
  exact ((options.tidy_positions_perm document).append_right _).trans divided

theorem written_copy {document : Document} {record : Record}
    (member : record ∈ (options.tidy document).records) :
    ∃ entry, document.entries[record.position]? = some entry ∧ record.CopyOf entry := by
  rcases options.mem_tidy_records.1 member with ⟨survivor, known, rfl⟩
  rcases (options.merge_records_divided document).grown survivor known with
    ⟨origin, first, grows⟩
  have finished := options.finish_survivor_copy document survivor
  refine ⟨origin.entry, ?_, finished.trans (Record.copy_of_grows grows)⟩
  rw [finish_survivor_position, Record.position_of_bare grows.bare]
  exact Record.entry_at_position first

theorem merged_entry {document : Document} {duplicate : Duplicate}
    (member : duplicate ∈ (options.tidy document).duplicates) :
    document.entries[duplicate.record.position]? = some duplicate.record.entry := by
  rw [tidy_duplicates_eq] at member
  rcases List.mem_map.1 member with ⟨found, known, rfl⟩
  rw [key_record_position, key_record_entry]
  have listed := (options.merge_records_divided document).away.subset
    (List.mem_map_of_mem known)
  exact Record.entry_at_position listed

theorem merged_behind_survivor {document : Document} {duplicate : Duplicate}
    (member : duplicate ∈ (options.tidy document).duplicates) :
    ∃ survivor ∈ (options.tidy document).records,
      survivor.position = duplicate.survivor ∧ survivor.entry.key = duplicate.survivorKey ∧
        survivor.position < duplicate.record.position := by
  rw [tidy_duplicates_eq] at member
  rcases List.mem_map.1 member with ⟨found, known, rfl⟩
  rcases (options.merge_records_divided document).earlier found known with
    ⟨survivor, inside, place, key, before⟩
  refine ⟨_, options.mem_tidy_records.2 ⟨survivor, inside, rfl⟩, ?_⟩
  rw [finish_survivor_position, (options.finish_survivor_copy document survivor).key,
    key_record_position]
  exact ⟨place, key, before⟩

theorem written_numbered (document : Document) (unsorted : options.sort = []) :
    Record.Numbered (options.tidy document).records := by
  rw [tidy_records_eq, Record.Numbered, List.pairwise_map]
  simp only [finish_record_position]
  unfold orderRecords
  rw [if_pos (by simp [unsorted])]
  exact options.survivors_numbered document

theorem written_sorted (document : Document) (sorted : options.sort ≠ []) :
    (options.tidy document).records.Pairwise Record.Before := by
  rw [tidy_records_eq, List.pairwise_map]
  simp only [Record.Before, Record.sortText, finish_record_position, finish_record_sort_key]
  unfold orderRecords
  rw [if_neg (by simp [sorted])]
  exact Record.order_before (options.survivors_numbered document) options.sort

theorem written_keyed {document : Document} (sorted : options.sort ≠ []) {record : Record}
    (member : record ∈ (options.tidy document).records) :
    ∃ survivor ∈ options.survivors document, survivor.position = record.position ∧
      record.sortKey = some (survivor.entry.sortKey options.sort) := by
  rcases options.mem_tidy_records.1 member with ⟨survivor, known, rfl⟩
  refine ⟨survivor, known, (options.finish_survivor_position document survivor).symm, ?_⟩
  rw [finishSurvivor, finish_record_sort_key]
  unfold keyRecord
  rw [if_neg (by simp [sorted])]
  rfl

end Options

/-- An account of all entries of a document after a run. -/
structure Accounted (options : Options) (document : Document) (tidied : Tidied) : Prop where
  /-- Each position of the document is written or merged away, and only once. -/
  once : (tidied.records.map Record.position ++ tidied.duplicates.map fun duplicate =>
    duplicate.record.position).Perm (List.range document.entries.length)
  written : ∀ record ∈ tidied.records, ∃ entry,
    document.entries[record.position]? = some entry ∧ record.CopyOf entry
  merged : ∀ duplicate ∈ tidied.duplicates,
    document.entries[duplicate.record.position]? = some duplicate.record.entry
  earlier : ∀ duplicate ∈ tidied.duplicates, ∃ survivor ∈ tidied.records,
    survivor.position = duplicate.survivor ∧ survivor.entry.key = duplicate.survivorKey ∧
      survivor.position < duplicate.record.position
  unmerged : options.merge = false →
    tidied.duplicates = [] ∧ options.survivors document = Record.ofEntries document.entries
  inOrder : Record.Numbered (options.survivors document)
  /-- As if the duplicates had never been sorted along. -/
  arranged : tidied.records = (options.orderRecords (options.survivors document)).map
    (options.finishRecord tidied.usage)
  unsorted : options.sort = [] → Record.Numbered tidied.records
  sorted : options.sort ≠ [] → tidied.records.Pairwise Record.Before
  keyed : options.sort ≠ [] → ∀ record ∈ tidied.records,
    ∃ survivor ∈ options.survivors document, survivor.position = record.position ∧
      record.sortKey = some (survivor.entry.sortKey options.sort)

/-- Every run accounts for every entry, whatever the options. -/
theorem tidy_accounted (options : Options) (document : Document) :
    Accounted options document (options.tidy document) where
  once := options.positions_divided document
  written := fun _ member => options.written_copy member
  merged := fun _ member => options.merged_entry member
  earlier := fun _ member => options.merged_behind_survivor member
  unmerged := fun off =>
    ⟨options.tidy_duplicates_unmerged document off, options.survivors_unmerged document off⟩
  inOrder := options.survivors_numbered document
  arranged := options.tidy_records_eq document
  unsorted := options.written_numbered document
  sorted := options.written_sorted document
  keyed := fun sorted _ member => options.written_keyed sorted member

end Bibliography
