import Bibliography.Record

/-!
How often the containers of entries occur: proceedings, journals and
publishers, by the raw value of the field that names them. Values are listed in
the order in which they are first seen.
-/

namespace Bibliography

abbrev Tally := List (Text × Nat)

namespace Tally

def add : Tally → Text → Tally
  | [], value => [(value, 1)]
  | row :: rest, value =>
      if row.1 = value then (value, row.2 + 1) :: rest else row :: add rest value

def ofList (values : List Text) : Tally := values.foldl add []

/-- Zero for a value that was never counted. -/
def count (tally : Tally) (value : Text) : Nat :=
  ((tally.find? fun row => row.1 == value).map Prod.snd).getD 0

/-- The most frequent values first; equally frequent ones keep their order. -/
def mostFrequent (tally : Tally) : Tally :=
  tally.mergeSort fun left right => decide (right.2 ≤ left.2)

end Tally

inductive Container
  | proceedings
  | journal
  | publisher
  deriving DecidableEq

namespace Container

def all : List Container := [proceedings, journal, publisher]

def field : Container → Text
  | proceedings => "booktitle".toList
  | journal => "journal".toList
  | publisher => "publisher".toList

def label : Container → Text
  | proceedings => "bookcount".toList
  | journal => "journalcount".toList
  | publisher => "publishercount".toList

def values (container : Container) (records : List Record) : List Text :=
  records.filterMap fun record => (record.entry.get? container.field).map Value.text

end Container

structure Usage where
  proceedings : Tally := []
  journals : Tally := []
  publishers : Tally := []

namespace Usage

def tally (usage : Usage) : Container → Tally
  | .proceedings => usage.proceedings
  | .journal => usage.journals
  | .publisher => usage.publishers

def ofRecords (records : List Record) : Usage where
  proceedings := Tally.ofList (Container.proceedings.values records)
  journals := Tally.ofList (Container.journal.values records)
  publishers := Tally.ofList (Container.publisher.values records)

def remark? (usage : Usage) (entry : Entry) (container : Container) : Option Text :=
  (entry.get? container.field).map fun value =>
    container.label ++ ": ".toList ++ Text.ofNat ((usage.tally container).count value.text)

def summary (usage : Usage) (record : Record) : Text :=
  Text.joinWith ", ".toList
    (("citations: ".toList ++ Text.ofNat record.citations) ::
      Container.all.filterMap (usage.remark? record.entry))

/-- Puts a fresh summary last, in place of any metadata the entry has. -/
def annotate (usage : Usage) (record : Record) : Record :=
  let name := "metadata".toList
  record.withFields ((record.entry.fields.erase name).insert name ⟨usage.summary record, .braces⟩)

end Usage

end Bibliography
