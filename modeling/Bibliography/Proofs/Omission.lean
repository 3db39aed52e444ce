import Bibliography.Proofs.Metadata

/-!
A field that is omitted leaves no trace in the written text. Every stage of a run is compared
with the same stage on the document without that field: sorting and counting look at other
fields, and what is written of an entry skips the omitted ones. So the text depends on nothing
but the document without the field. Nothing is claimed about merging, which compares fields
that may be omitted, or about the records and counts of a run, which still hold the field.
-/

namespace Bibliography

open Text

namespace Fields

theorem ext_list {left right : Fields} (same : left.toList = right.toList) : left = right := by
  obtain ⟨listed, _⟩ := left
  obtain ⟨others, _⟩ := right
  subst same
  rfl

theorem names_erase (fields : Fields) (name : Text) :
    (fields.erase name).names = fields.names.filter fun other => other != name := by
  unfold names Field.names
  rw [List.filter_map]
  rfl

theorem erase_erase (fields : Fields) (name : Text) :
    (fields.erase name).erase name = fields.erase name := by
  apply ext_list
  apply List.filter_eq_self.2
  intro field member
  exact (List.mem_filter.1 member).2

end Fields

def Entry.without (name : Text) (entry : Entry) : Entry :=
  { entry with fields := entry.fields.erase name }

def Record.without (name : Text) (record : Record) : Record :=
  { record with entry := record.entry.without name }

/-- The document without the fields of that name. Two documents that are the same without them
differ in these fields alone: in their values, in their places, and in where they are missing. -/
def Document.without (name : Text) (document : Document) : Document :=
  { document with entries := document.entries.map (Entry.without name) }

variable {name : Text}

namespace Entry

theorem get_without {other : Text} (different : name ≠ other) (entry : Entry) :
    (entry.without name).get? other = entry.get? other :=
  Fields.get_erase different entry.fields

theorem without_without (name : Text) (entry : Entry) :
    (entry.without name).without name = entry.without name := by
  unfold without
  rw [Fields.erase_erase]

/-- Entries that agree in all but the field are the same without it. -/
theorem without_eq {left right : Entry} (kind : left.kind = right.kind)
    (key : left.key = right.key) (comments : left.comments = right.comments)
    (fields : left.fields.erase name = right.fields.erase name) :
    left.without name = right.without name := by
  unfold without
  rw [kind, key, comments, fields]

theorem sort_part_without {field : Text} (different : name ≠ field) (entry : Entry) :
    (entry.without name).sortPart field = entry.sortPart field := by
  unfold sortPart wording?
  rw [get_without different]
  rfl

theorem sort_key_without {fields : List Text} (unsorted : name ∉ fields) (entry : Entry) :
    (entry.without name).sortKey fields = entry.sortKey fields := by
  unfold sortKey
  congr 1
  apply List.map_congr_left
  intro field member
  apply sort_part_without
  rintro rfl
  exact unsorted member

end Entry

namespace Record

theorem entry_without (name : Text) (record : Record) :
    (record.without name).entry = record.entry.without name := rfl

theorem of_entries_without (name : Text) (entries : List Entry) :
    ofEntries (entries.map (Entry.without name)) = (ofEntries entries).map (without name) := by
  apply List.ext_getElem
  · simp [ofEntries]
  · intro place first second
    simp [ofEntries, without]

theorem keyed_without {fields : List Text} (unsorted : name ∉ fields) (record : Record) :
    (record.without name).keyed fields = (record.keyed fields).without name := by
  unfold keyed
  rw [entry_without, Entry.sort_key_without unsorted]
  rfl

theorem order_without {fields : List Text} (unsorted : name ∉ fields) (records : List Record) :
    order fields (records.map (without name)) = (order fields records).map (without name) := by
  have keyedFirst : (records.map (without name)).map (keyed fields) =
      (records.map (keyed fields)).map (without name) := by
    rw [List.map_map, List.map_map]
    exact List.map_congr_left fun record _ => keyed_without unsorted record
  unfold order
  rw [keyedFirst]
  symm
  apply List.map_mergeSort
  intro left _ right _
  rfl

end Record

namespace Usage

theorem values_without {container : Container} (different : name ≠ container.field)
    (records : List Record) :
    container.values (records.map (Record.without name)) = container.values records := by
  unfold Container.values
  rw [List.filterMap_map]
  apply List.filterMap_congr
  intro record _
  exact congrArg (Option.map Value.text) (Entry.get_without different record.entry)

theorem tally_without {container : Container} (different : name ≠ container.field)
    (records : List Record) :
    (ofRecords (records.map (Record.without name))).tally container =
      (ofRecords records).tally container := by
  have counted := congrArg Tally.ofList (values_without different records)
  cases container with
  | proceedings => exact counted
  | journal => exact counted
  | publisher => exact counted

theorem summary_without (uncounted : ∀ container : Container, name ≠ container.field)
    (records : List Record) (record : Record) :
    (ofRecords (records.map (Record.without name))).summary (record.without name) =
      (ofRecords records).summary record := by
  have remarks : (ofRecords (records.map (Record.without name))).remark?
      (record.entry.without name) = (ofRecords records).remark? record.entry := by
    funext container
    unfold remark?
    rw [Entry.get_without (uncounted container), tally_without (uncounted container)]
  unfold summary
  rw [Record.entry_without, remarks]
  rfl

/-- A fresh summary is put in place of an older one. Where the field is the summary itself, the
two records are the same only without it. -/
theorem annotate_without (uncounted : ∀ container : Container, name ≠ container.field)
    (records : List Record) (record : Record) :
    ((ofRecords (records.map (Record.without name))).annotate
      (record.without name)).entry.without name =
      ((ofRecords records).annotate record).entry.without name := by
  have fields : ((ofRecords (records.map (Record.without name))).annotate
      (record.without name)).entry.fields.erase name =
      ((ofRecords records).annotate record).entry.fields.erase name := by
    apply Fields.ext_list
    have left := fields_of_annotated (ofRecords (records.map (Record.without name)))
      (record.without name)
    have right := fields_of_annotated (ofRecords records) record
    have without : (record.without name).entry.fields.toList =
        record.entry.fields.toList.filter fun field => field.1 != name := rfl
    rw [summary_without uncounted, without, List.filter_comm] at left
    unfold Fields.erase
    dsimp only
    rw [left, right, List.filter_append, List.filter_append, List.filter_filter]
    simp only [Bool.and_self]
  have left := Record.copy_of_annotated (ofRecords (records.map (Record.without name)))
    (record.without name)
  have right := Record.copy_of_annotated (ofRecords records) record
  exact Entry.without_eq (left.kind.trans right.kind.symm) (left.key.trans right.key.symm)
    (left.comments.trans right.comments.symm) fields

end Usage

namespace Options

variable {options : Options}

theorem order_records_without (unsorted : name ∉ options.sort) (records : List Record) :
    options.orderRecords (records.map (Record.without name)) =
      (options.orderRecords records).map (Record.without name) := by
  unfold orderRecords
  split
  · rfl
  · exact Record.order_without unsorted records

theorem finish_record_without
    (uncounted : options.metadata = false ∨ ∀ container : Container, name ≠ container.field)
    (records : List Record) (record : Record) :
    (options.finishRecord (Usage.ofRecords (records.map (Record.without name)))
      (record.without name)).entry.without name =
      (options.finishRecord (Usage.ofRecords records) record).entry.without name := by
  unfold finishRecord
  dsimp only
  rcases uncounted with off | others
  · rw [if_neg (by simp [off]), if_neg (by simp [off])]
    exact Entry.without_without name record.entry
  · split
    · exact Usage.annotate_without others records (record.cite options.tex)
    · exact Entry.without_without name record.entry

theorem written_names_without (omitted : name ∈ options.omitted) (entry : Entry) :
    options.writtenNames (entry.without name) = options.writtenNames entry := by
  have kept : (entry.without name).fields.names.filter
      (fun other => !options.omitted.contains other) =
      entry.fields.names.filter fun other => !options.omitted.contains other := by
    rw [show (entry.without name).fields = entry.fields.erase name from rfl, Fields.names_erase,
      List.filter_filter]
    apply List.filter_congr
    intro other _
    by_cases same : other = name
    · simp [same, omitted]
    · simp [same]
  unfold writtenNames
  rw [kept]

theorem render_entry_without (omitted : name ∈ options.omitted) (entry : Entry) :
    options.renderEntry (entry.without name) = options.renderEntry entry := by
  have fields : options.renderFields (entry.without name) = options.renderFields entry := by
    unfold renderFields
    rw [written_names_without omitted]
    apply List.filterMap_congr
    intro other member
    have different : name ≠ other := by
      rintro rfl
      exact (mem_written_names_iff.1 member).2 omitted
    rw [Entry.get_without different]
  unfold renderEntry
  rw [fields]
  rfl

theorem render_entries_without (omitted : name ∈ options.omitted) (entries : List Entry) :
    options.renderEntries (entries.map (Entry.without name)) = options.renderEntries entries := by
  have rendered : options.renderEntry ∘ Entry.without name = options.renderEntry :=
    funext fun entry => render_entry_without omitted entry
  unfold renderEntries
  rw [List.isEmpty_map, List.map_map, rendered]

theorem assemble_without (omitted : name ∈ options.omitted) (document : Document)
    (entries : List Entry) :
    options.assemble document (entries.map (Entry.without name)) =
      options.assemble document entries := by
  unfold assemble
  rw [render_entries_without omitted]

theorem tidy_entries_without (unmerged : options.merge = false) (unsorted : name ∉ options.sort)
    (uncounted : options.metadata = false ∨ ∀ container : Container, name ≠ container.field)
    (document : Document) :
    ((options.tidy (document.without name)).records.map Record.entry).map (Entry.without name) =
      ((options.tidy document).records.map Record.entry).map (Entry.without name) := by
  have finished : ∀ records : List Record,
      (((records.map (Record.without name)).map (options.finishRecord
        (options.tidy (document.without name)).usage)).map Record.entry).map (Entry.without name) =
      ((records.map (options.finishRecord (options.tidy document).usage)).map Record.entry).map
        (Entry.without name) := by
    intro records
    rw [List.map_map, List.map_map, List.map_map, List.map_map, List.map_map]
    apply List.map_congr_left
    intro record _
    have counted : (options.tidy (document.without name)).usage =
        Usage.ofRecords ((Record.ofEntries document.entries).map (Record.without name)) :=
      congrArg Usage.ofRecords (Record.of_entries_without name document.entries)
    dsimp only [Function.comp]
    rw [counted]
    exact finish_record_without uncounted (Record.ofEntries document.entries) record
  rw [tidy_records_eq, tidy_records_eq, survivors_unmerged _ _ unmerged,
    survivors_unmerged _ _ unmerged]
  rw [show (document.without name).entries = document.entries.map (Entry.without name) from rfl,
    Record.of_entries_without, order_records_without unsorted]
  exact finished _

theorem tidy_text_without (omitted : name ∈ options.omitted) (unmerged : options.merge = false)
    (unsorted : name ∉ options.sort)
    (uncounted : options.metadata = false ∨ ∀ container : Container, name ≠ container.field)
    (document : Document) :
    (options.tidy (document.without name)).text = (options.tidy document).text := by
  have entries := tidy_entries_without unmerged unsorted uncounted document
  calc
    (options.tidy (document.without name)).text
      = options.assemble document
          ((options.tidy (document.without name)).records.map Record.entry) := rfl
    _ = options.assemble document (((options.tidy (document.without name)).records.map
          Record.entry).map (Entry.without name)) := (assemble_without omitted _ _).symm
    _ = options.assemble document
          (((options.tidy document).records.map Record.entry).map (Entry.without name)) := by
        rw [entries]
    _ = (options.tidy document).text := assemble_without omitted _ _

/-- Documents that differ in an omitted field alone are written the same, whatever the field
holds, wherever it stands and whoever lacks it: nobody learns anything about it from the text.
Sorting must not ask for the field, and a summary must not count it. -/
theorem omitted_field_unseen (omitted : name ∈ options.omitted) (unmerged : options.merge = false)
    (unsorted : name ∉ options.sort)
    (uncounted : options.metadata = false ∨ ∀ container : Container, name ≠ container.field)
    {left right : Document} (same : left.without name = right.without name) :
    (options.tidy left).text = (options.tidy right).text := by
  have fromLeft := tidy_text_without omitted unmerged unsorted uncounted left
  have fromRight := tidy_text_without omitted unmerged unsorted uncounted right
  rw [← fromLeft, same, fromRight]

def notedPapers (first second : List Field) : Document where
  entries :=
    let trees := first ++ [("title".toList, ⟨"Trees".toList, .braces⟩),
      ("journal".toList, ⟨"Nature".toList, .braces⟩)] ++ second
    let graphs := second ++ [("year".toList, ⟨"2001".toList, .bare⟩),
      ("title".toList, ⟨"Graphs".toList, .quotes⟩)]
    [⟨"article".toList, "trees".toList, .ofList trees, []⟩,
      ⟨"misc".toList, "graphs".toList, .ofList graphs, []⟩]

/-- Notes in front, behind or nowhere: sorted by title, with summaries and with sorted fields, the
papers are written the same. -/
theorem notes_unseen :
    let options : Options :=
      { omitted := ["note".toList], sort := ["title".toList], metadata := true, sortFields := true }
    let left := notedPapers [("note".toList, ⟨"secret".toList, .braces⟩)] []
    let right := notedPapers [] [("note".toList, ⟨"call me".toList, .quotes⟩)]
    "note".toList ∈ options.omitted ∧ options.merge = false ∧ "note".toList ∉ options.sort ∧
      (∀ container : Container, "note".toList ≠ container.field) ∧
      left.without "note".toList = right.without "note".toList ∧
      (left.entries.map fun entry => entry.fields.names.length) ≠
        right.entries.map (fun entry => entry.fields.names.length) ∧
      (options.tidy left).text = (options.tidy right).text := by
  intro options left right
  have omitted : "note".toList ∈ options.omitted := by decide
  have unsorted : "note".toList ∉ options.sort := by decide
  have uncounted : ∀ container : Container, "note".toList ≠ container.field := by
    intro container
    cases container <;> decide
  have same : left.without "note".toList = right.without "note".toList := by rfl
  exact ⟨omitted, rfl, unsorted, uncounted, same, by decide,
    omitted_field_unseen omitted rfl unsorted (.inr uncounted) same⟩

end Options

end Bibliography
