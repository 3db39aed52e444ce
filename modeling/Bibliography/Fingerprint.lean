import Bibliography.Record

/-!
What is compared when looking for duplicates: the identifier, the start of the
abstract, and the first author's surname with the start of the title. Entries
with neither author nor title share the same last part and so match.
-/

namespace Bibliography

structure Fingerprint where
  doi : Option Text
  abstract : Option Text
  authorTitle : Text
  deriving DecidableEq

def abstractLength : Nat := 100

def titleLength : Nat := 50

/-- The surname counts only if the author field has any words. -/
def Entry.surname (entry : Entry) : Text :=
  match entry.wording? "author".toList, entry.get? "author".toList with
  | some _, some authors => firstSurname authors.text
  | _, _ => []

def Entry.fingerprint (entry : Entry) : Fingerprint where
  doi := entry.wording? "doi".toList
  abstract := (entry.wording? "abstract".toList).map fun words => words.take abstractLength
  authorTitle :=
    entry.surname ++ ':' :: ((entry.wording? "title".toList).getD []).take titleLength

namespace Fingerprint

def agrees (left right : Option Text) : Bool := left.isSome && left == right

def resembles (left right : Fingerprint) : Bool :=
  agrees left.doi right.doi || agrees left.abstract right.abstract ||
    left.authorTitle == right.authorTitle

def describePart : Option Text → Text
  | none => "None".toList
  | some words => Text.quoted words

def describe (fingerprint : Fingerprint) (key : Text) : Text :=
  "Fingerprint(".toList ++ Text.quoted key ++ ", doi=".toList ++ describePart fingerprint.doi ++
    ", author_title=".toList ++ Text.quoted fingerprint.authorTitle ++ ")".toList

end Fingerprint

end Bibliography
