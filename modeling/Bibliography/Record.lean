import Bibliography.Document
import Bibliography.Text.Case
import Bibliography.Text.Class

/-!
A record is an entry at work: it keeps the place of the entry in its document,
which tells records apart, and what a tidy run finds out about the entry.

Entries are compared by the wording of their values, which is freed from punctuation and
case; a first author's surname is taken from the raw value. Records are sorted by a key
made of several fields. Keys are compared by code points, and records with equal keys keep
their order.
-/

namespace Bibliography

open Text

def wording (text : Text) : Text := lower (text.filter isWord)

/-- A surname ends where a comma, an "and", an "et" or nothing follows; blanks
may stand between. -/
def endsSurname (rest : Text) : Bool :=
  let next := skipBlank rest
  next.isEmpty || [','].isPrefixOf next || "and ".toList.isPrefixOf next ||
    "et ".toList.isPrefixOf next

/-- The longest surname that starts here. -/
def surnameHere? : Text → Option Text
  | [] => none
  | char :: rest =>
      if isBlank char then none
      else match surnameHere? rest with
        | some more => some (char :: more)
        | none => if endsSurname rest then some [char] else none

def surname? : Text → Option Text
  | [] => none
  | char :: rest =>
      match surnameHere? (char :: rest) with
      | some surname => some surname
      | none => surname? rest

def firstSurname (authors : Text) : Text :=
  match surname? authors with
  | some surname => wording surname
  | none => []

structure Record where
  position : Nat
  entry : Entry
  citations : Nat := 0
  sortKey : Option Text := none

namespace Record

def ofEntries (entries : List Entry) : List Record :=
  entries.mapIdx fun position entry => { position, entry }

def withFields (record : Record) (fields : Fields) : Record :=
  { record with entry := { record.entry with fields } }

def cite (tex : Text) (record : Record) : Record :=
  { record with citations := Text.occurrences tex record.entry.key }

end Record

/-- The wording of a field; a missing field and one without words have none. -/
def Entry.wording? (entry : Entry) (name : Text) : Option Text :=
  match entry.get? name with
  | none => none
  | some value =>
      match wording value.text with
      | [] => none
      | words => some words

/-- One part of a sort key: the citation key or the kind in lower case, or the
wording of a field. -/
def Entry.sortPart (entry : Entry) (field : Text) : Text :=
  if field = "id".toList then lower entry.key
  else if field = "type".toList then lower entry.kind
  else (entry.wording? field).getD []

def Entry.sortKey (entry : Entry) (fields : List Text) : Text :=
  joinWith [' '] (fields.map entry.sortPart)

namespace Record

def keyed (fields : List Text) (record : Record) : Record :=
  { record with sortKey := some (record.entry.sortKey fields) }

/-- A record without a key stands before all others. -/
def keyAtMost (left right : Record) : Bool :=
  atMost (left.sortKey.getD []) (right.sortKey.getD [])

def order (fields : List Text) (records : List Record) : List Record :=
  (records.map (keyed fields)).mergeSort keyAtMost

end Record

end Bibliography
