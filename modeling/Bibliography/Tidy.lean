import Bibliography.Merge
import Bibliography.Record
import Bibliography.Render
import Bibliography.Source.Reading
import Bibliography.Usage

/-!
The whole run: count containers, merge duplicates, sort, leave out what was
merged away, count citations and write the document. The document itself is
never changed, and containers are counted before anything is merged.
-/

namespace Bibliography

structure Tidied where
  text : Text
  records : List Record
  usage : Usage
  duplicates : List Duplicate

namespace Options

def mergeRecords (options : Options) (records : List Record) : List Record × List Duplicate :=
  if options.merge then mergeDuplicates records else (records, [])

def orderRecords (options : Options) (records : List Record) : List Record :=
  if options.sort.isEmpty then records else Record.order options.sort records

/-- Duplicates are sorted with the rest, so they too have a sort key. -/
def keyDuplicates (options : Options) (duplicates : List Duplicate) : List Duplicate :=
  if options.sort.isEmpty then duplicates
  else duplicates.map fun duplicate =>
    { duplicate with record := duplicate.record.keyed options.sort }

def finishRecord (options : Options) (usage : Usage) (record : Record) : Record :=
  let cited := record.cite options.tex
  if options.metadata then usage.annotate cited else cited

def tidy (options : Options) (document : Document) : Tidied :=
  let all := Record.ofEntries document.entries
  let usage := Usage.ofRecords all
  let (merged, duplicates) := options.mergeRecords all
  let kept := dropDuplicates duplicates (options.orderRecords merged)
  let records := kept.map (options.finishRecord usage)
  { text := options.assemble document (records.map Record.entry)
    records
    usage
    duplicates := options.keyDuplicates duplicates }

end Options

end Bibliography
