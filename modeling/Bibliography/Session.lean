import Bibliography.Tidy

/-!
The stages of a tidy run one at a time, in any order. A session keeps the loaded
document unchanged beside the records that the stages work on. Loading a text
starts afresh.
-/

namespace Bibliography

structure Session where
  document : Document := {}
  records : List Record := []
  usage : Usage := {}
  /-- The duplicates found since they were last dropped. -/
  duplicates : List Duplicate := []
  text : Text := []

namespace Session

def ofDocument (document : Document) : Session :=
  { document, records := Record.ofEntries document.entries }

def load (text : Text) : Except Source.ParseError Session :=
  (Document.parse text).map ofDocument

def count (session : Session) : Session :=
  { session with usage := Usage.ofRecords session.records }

/-- Merges duplicates without dropping them; also gives those found this time. -/
def merge (session : Session) : Session × List Duplicate :=
  let (records, duplicates) := mergeDuplicates session.records
  ({ session with records, duplicates := session.duplicates ++ duplicates }, duplicates)

def drop (session : Session) : Session :=
  { session with
    records := dropDuplicates session.duplicates session.records
    duplicates := [] }

def order (session : Session) (fields : List Text) : Session :=
  { session with records := Record.order fields session.records }

def cite (session : Session) (tex : Text) : Session :=
  { session with records := session.records.map (Record.cite tex) }

def annotate (session : Session) : Session :=
  { session with records := session.records.map session.usage.annotate }

def set (session : Session) (index : Nat) (name : Text) (value : Value) : Session :=
  { session with
    records := session.records.modify index fun record =>
      record.withFields (record.entry.fields.insert name value) }

def render (session : Session) (options : Options) : List Text :=
  session.records.map fun record => options.renderEntry record.entry

def assemble (session : Session) (options : Options) : Session :=
  { session with
    text := options.assemble session.document (session.records.map Record.entry) }

def tidy (session : Session) (options : Options) : Session × Tidied :=
  let tidied := options.tidy session.document
  ({ session with text := tidied.text }, tidied)

/-- Loads the text written last. -/
def reload (session : Session) : Except Source.ParseError Session := load session.text

end Session

end Bibliography
