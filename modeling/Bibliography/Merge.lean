import Bibliography.Fingerprint

/-!
Merging of duplicates. Records are taken in order; one that resembles an
earlier survivor is a duplicate of the first such survivor, which takes over
the fields it lacks. Fingerprints are those from before the merge, and a
duplicate is never compared with later records.
-/

namespace Bibliography

/-- A record merged into an earlier one, which is named by position and key. -/
structure Duplicate where
  record : Record
  survivor : Nat
  survivorKey : Text

def Duplicate.describe (duplicate : Duplicate) : Text :=
  "Duplicate(".toList ++ Text.quoted duplicate.record.entry.key ++ " -> ".toList ++
    Text.quoted duplicate.survivorKey ++ ")".toList

/-- A survivor with the fingerprint it had at first. -/
structure Candidate where
  fingerprint : Fingerprint
  record : Record

def Candidate.fill (candidate : Candidate) (fields : Fields) : Candidate :=
  { candidate with
    record := candidate.record.withFields (candidate.record.entry.fields.fillFrom fields) }

/-- Lets the first candidate that resembles the fingerprint take over fields. -/
def absorb (fingerprint : Fingerprint) (fields : Fields) :
    List Candidate → Option (Record × List Candidate)
  | [] => none
  | candidate :: rest =>
      if fingerprint.resembles candidate.fingerprint then
        some (candidate.record, candidate.fill fields :: rest)
      else (absorb fingerprint fields rest).map fun absorbed =>
        (absorbed.1, candidate :: absorbed.2)

structure Pool where
  candidates : List Candidate := []
  duplicates : List Duplicate := []

namespace Pool

def add (pool : Pool) (record : Record) : Pool :=
  let fingerprint := record.entry.fingerprint
  match absorb fingerprint record.entry.fields pool.candidates with
  | none => { pool with candidates := pool.candidates ++ [⟨fingerprint, record⟩] }
  | some (survivor, candidates) =>
      ⟨candidates, pool.duplicates ++ [⟨record, survivor.position, survivor.entry.key⟩]⟩

def ofRecords (records : List Record) : Pool := records.foldl add {}

def current (pool : Pool) (record : Record) : Record :=
  match pool.candidates.find? fun candidate => candidate.record.position == record.position with
  | some candidate => candidate.record
  | none => record

end Pool

/-- All records in their order, with survivors filled, and the duplicates found. -/
def mergeDuplicates (records : List Record) : List Record × List Duplicate :=
  let pool := Pool.ofRecords records
  (records.map pool.current, pool.duplicates)

def dropDuplicates (duplicates : List Duplicate) (records : List Record) : List Record :=
  records.filter fun record =>
    !duplicates.any fun duplicate => duplicate.record.position == record.position

end Bibliography
