import Bibliography.Proofs.Accounts
import Bibliography.Proofs.Filling
import Bibliography.Proofs.Tally
import Bibliography.Proofs.Text.Occurrences
import Bibliography.Proofs.Tidy

/-!
What a run notes about an entry. Containers are counted before anything is merged, and the
summary looks them up by the values that an entry has afterwards. A merge takes every value
from an entry of the document, so the value that is looked up has been counted.
-/

namespace Bibliography

open Text

def Container.uses (container : Container) (entries : List Entry) (text : Text) : Nat :=
  entries.countP fun entry => (entry.get? container.field).map Value.text == some text

/-- The label of the container and the number of entries with the same value, for an entry
that has the field. -/
def Container.note? (container : Container) (entries : List Entry) (entry : Entry) : Option Text :=
  (entry.get? container.field).map fun value =>
    container.label ++ ": ".toList ++ Text.ofNat (container.uses entries value.text)

def Container.texts (container : Container) (entries : List Entry) : List Text :=
  entries.filterMap fun entry => (entry.get? container.field).map Value.text

theorem Container.values_of_entries (container : Container) (entries : List Entry) :
    container.values (Record.ofEntries entries) = container.texts entries := by
  unfold texts
  rw [← Record.map_entry_of_entries entries, List.filterMap_map, Record.map_entry_of_entries]
  rfl

theorem Container.count_texts (container : Container) (entries : List Entry) (text : Text) :
    (container.texts entries).count text = container.uses entries text := by
  rw [texts, List.count, List.countP_filterMap, uses]
  congr 1
  funext entry
  cases (entry.get? container.field).map Value.text <;> rfl

theorem Usage.tally_of_records (container : Container) (entries : List Entry) :
    (Usage.ofRecords (Record.ofEntries entries)).tally container =
      Tally.ofList (container.texts entries) := by
  rw [← container.values_of_entries]
  cases container <;> rfl

theorem Usage.count_of_records (container : Container) (entries : List Entry) (text : Text) :
    ((Usage.ofRecords (Record.ofEntries entries)).tally container).count text =
      container.uses entries text := by
  rw [tally_of_records, Tally.count_of_list, Container.count_texts]

theorem Usage.fields_of_annotated (usage : Usage) (record : Record) :
    (usage.annotate record).entry.fields.toList =
      (record.entry.fields.toList.filter fun field => field.1 != "metadata".toList) ++
        [("metadata".toList, ⟨usage.summary record, .braces⟩)] := by
  apply Field.put_absent
  intro member
  obtain ⟨field, kept, same⟩ := List.mem_map.1 member
  have different := (List.mem_filter.1 kept).2
  rw [same] at different
  exact absurd different (by simp)

theorem value_of_merged {records : List Record} (distinct : (records.map Record.position).Nodup)
    {merged : Record} (member : merged ∈ (mergeDuplicates records).1) {name : Text} {value : Value}
    (known : merged.entry.get? name = some value) :
    ∃ record ∈ records, record.entry.get? name = some value := by
  have becomes : List.Forall₂ (flip (Record.BecomesMerged records (mergeDuplicates records).2))
      (mergeDuplicates records).1 records := (merge_duplicates_first_wins distinct).flip
  obtain ⟨record, inside, union⟩ := related_of_mem becomes member
  rw [union.united.values name] at known
  obtain ⟨source, listed, found⟩ := List.exists_of_findSome?_eq_some known
  refine ⟨source, ?_, found⟩
  rcases List.mem_cons.1 listed with rfl | taken
  · exact inside
  · exact union.ordered.subset taken

namespace Options

variable {options : Options} {document : Document}

theorem value_of_survivor {survivor : Record} (member : survivor ∈ options.survivors document)
    {name : Text} {value : Value} (known : survivor.entry.get? name = some value) :
    ∃ entry ∈ document.entries, entry.get? name = some value := by
  have distinct := Record.nodup_positions (Record.numbered_of_entries document.entries)
  have merged : ∃ record ∈ Record.ofEntries document.entries,
      record.entry.get? name = some value := by
    have kept := (mem_drop_duplicates.1 member).1
    unfold mergeRecords at kept
    split at kept
    · exact value_of_merged distinct kept known
    · exact ⟨survivor, kept, known⟩
  obtain ⟨record, inside, found⟩ := merged
  refine ⟨record.entry, ?_, found⟩
  rw [← Record.map_entry_of_entries document.entries]
  exact List.mem_map_of_mem inside

theorem uses_of_survivor {survivor : Record} (member : survivor ∈ options.survivors document)
    (container : Container) {value : Value}
    (known : survivor.entry.get? container.field = some value) :
    1 ≤ container.uses document.entries value.text := by
  obtain ⟨entry, inside, found⟩ := value_of_survivor member known
  apply List.countP_pos_iff.2
  refine ⟨entry, inside, ?_⟩
  rw [found]
  exact beq_self_eq_true _

/-- The summary that a run writes for an entry with these fields and citations. -/
def summaryText (document : Document) (entry : Entry) (citations : Nat) : Text :=
  joinWith ", ".toList (("citations: ".toList ++ Text.ofNat citations) ::
    Container.all.filterMap fun container => container.note? document.entries entry)

theorem summary_of_tidy (record : Record) :
    (options.tidy document).usage.summary record =
      summaryText document record.entry record.citations := by
  have notes : (options.tidy document).usage.remark? record.entry =
      fun container => container.note? document.entries record.entry := by
    funext container
    unfold Usage.remark? Container.note?
    congr 1
    funext value
    rw [← Usage.count_of_records]
    rfl
  rw [Usage.summary, notes]
  rfl

/-- The record as it is written for a survivor of the merge. -/
structure Noted (options : Options) (document : Document) (survivor record : Record) : Prop where
  position : record.position = survivor.position
  cited : OccursTimes options.tex record.entry.key record.citations
  fields : record.entry.fields.toList =
    (survivor.entry.fields.toList.filter fun field => field.1 != "metadata".toList) ++
      [("metadata".toList, ⟨summaryText document survivor.entry record.citations, .braces⟩)]
  counted : ∀ container value, survivor.entry.get? container.field = some value →
    1 ≤ Container.uses container document.entries value.text

/-- With metadata on, every record ends with a summary of its citations and of the uses of its
containers, those of entries that were merged away included. -/
theorem tidy_noted (on : options.metadata = true) {record : Record}
    (member : record ∈ (options.tidy document).records) :
    ∃ survivor ∈ options.survivors document, options.Noted document survivor record := by
  obtain ⟨survivor, inside, rfl⟩ := options.mem_tidy_records.1 member
  refine ⟨survivor, inside, ?_⟩
  have finished : options.finishSurvivor document survivor =
      (options.tidy document).usage.annotate ((options.keyRecord survivor).cite options.tex) := by
    unfold finishSurvivor finishRecord
    exact if_pos on
  constructor
  · exact options.finish_survivor_position document survivor
  · rw [finished]
    exact occurs_times options.tex _
  · rw [finished, Usage.fields_of_annotated, summary_of_tidy]
    rw [show ((options.keyRecord survivor).cite options.tex).entry = survivor.entry from
      options.key_record_entry survivor]
    rfl
  · intro container value known
    exact uses_of_survivor inside container known

/-- The first entry has old metadata and no journal; the last one, which is merged into it, has
the journal of the second one. -/
def borrowedJournal : Document where
  entries :=
    let entry : String → List (String × String) → Entry := fun key fields =>
      ⟨"article".toList, key.toList,
        .ofList (fields.map fun field => (field.1.toList, ⟨field.2.toList, .quotes⟩)), []⟩
    [entry "aa" [("metadata", "old"), ("doi", "10.1/x")],
      entry "b" [("journal", "Nature"), ("title", "B")],
      entry "c" [("doi", "10.1/X"), ("journal", "Nature"), ("publisher", "NPG")]]

/-- The journal and the publisher come from the merged entry, the key occurs twice in "aaaaa",
and the written fields end with the new metadata. -/
theorem borrowed_journal_noted :
    let options : Options := { metadata := true, merge := true, tex := "aaaaa".toList }
    options.metadata = true ∧ ∃ record ∈ (options.tidy borrowedJournal).records,
      (record.entry.fields.toList.map fun field =>
        (String.ofList field.1, String.ofList field.2.text)) =
        [("doi", "10.1/x"), ("journal", "Nature"), ("publisher", "NPG"),
          ("metadata", "citations: 2, journalcount: 2, publishercount: 1")] ∧
      ∃ survivor ∈ options.survivors borrowedJournal,
        options.Noted borrowedJournal survivor record := by
  intro options
  have listed : ((options.tidy borrowedJournal).records.map fun record =>
      record.entry.fields.toList.map fun field =>
        (String.ofList field.1, String.ofList field.2.text)) =
      [[("doi", "10.1/x"), ("journal", "Nature"), ("publisher", "NPG"),
          ("metadata", "citations: 2, journalcount: 2, publishercount: 1")],
        [("journal", "Nature"), ("title", "B"),
          ("metadata", "citations: 0, journalcount: 2")]] := by
    decide +kernel
  obtain ⟨record, member, written⟩ := List.mem_map.1 (listed ▸ List.mem_cons_self)
  exact ⟨rfl, record, member, written, tidy_noted rfl member⟩

end Options

end Bibliography
