import Bibliography.Proofs.Assembly
import Bibliography.Proofs.Merge
import Bibliography.Tidy

/-!
The records of a run. Merging, sorting and annotating only move sound fields between
entries and add a summary in braces, so every record that is written is as sound as
the entries that were read.
-/

namespace Bibliography

open Text Source

namespace Fields

end Fields

namespace Pool

end Pool

namespace Usage

end Usage

theorem Record.map_entry_of_entries (entries : List Entry) :
    (Record.ofEntries entries).map Record.entry = entries := by
  apply List.ext_getElem
  · simp [Record.ofEntries]
  · intro place first second
    simp [Record.ofEntries]

namespace Options

variable {options : Options}

/-- Without merging, sorting and summaries the entries are written as they were read. -/
theorem tidied_entries {options : Options} (document : Document) (merge : options.merge = false)
    (sort : options.sort = []) (metadata : options.metadata = false) :
    (options.tidy document).records.map Record.entry = document.entries := by
  have kept := drop_no_duplicates (Record.ofEntries document.entries)
  have ordered : options.orderRecords (Record.ofEntries document.entries) =
      Record.ofEntries document.entries := by
    simp [orderRecords, sort]
  unfold tidy
  simp only [mergeRecords, merge, Bool.false_eq_true, if_false, ordered, kept, List.map_map]
  have entry : (Record.entry ∘ options.finishRecord (Usage.ofRecords
      (Record.ofEntries document.entries))) = Record.entry := by
    funext record
    simp [finishRecord, metadata, Record.cite]
  rw [entry, Record.map_entry_of_entries]

theorem tidied_text {options : Options} (document : Document) (merge : options.merge = false)
    (sort : options.sort = []) (metadata : options.metadata = false) :
    (options.tidy document).text = options.assemble document document.entries := by
  have entries := tidied_entries document merge sort metadata
  unfold tidy at entries ⊢
  dsimp only at entries ⊢
  rw [entries]

end Options

end Bibliography
