import Bibliography.Tidy

/-!
The report of a tidy run: how much was written, what was merged, how often each
container occurs, and any warnings. Empty sections are left out.
-/

namespace Bibliography

open Text

def rule : Text := List.replicate 60 '='

def countHeading (label : Text) (count : Nat) : Text :=
  '\n' :: (label ++ ": ".toList ++ ofNat count)

def tallyRow (row : Text × Nat) : Text :=
  "  ".toList ++ padLeft 4 (ofNat row.2) ++ "  ".toList ++ row.1

/-- A container section: the most frequent values first. -/
def tallySection (label : Text) (tally : Tally) : List Text :=
  if tally.isEmpty then []
  else countHeading label tally.length :: tally.mostFrequent.map tallyRow

def duplicateRow (duplicate : Duplicate) : Text :=
  "  ✓ ".toList ++ duplicate.record.entry.key ++ " merged into ".toList ++ duplicate.survivorKey

def duplicateSection (duplicates : List Duplicate) : List Text :=
  if duplicates.isEmpty then []
  else countHeading "Duplicates Merged".toList duplicates.length :: duplicates.map duplicateRow

def warningSection (warnings : List Text) : List Text :=
  if warnings.isEmpty then []
  else countHeading "Warnings".toList warnings.length ::
    warnings.map fun warning => "  ⚠ ".toList ++ warning

namespace Tidied

def reportLines (tidied : Tidied) (warnings : List Text) : List Text :=
  ['\n' :: rule, "BIBTEX TIDY REPORT".toList, rule,
    countHeading "Entries written".toList tidied.records.length] ++
    duplicateSection tidied.duplicates ++
    tallySection "Journals".toList tidied.usage.journals ++
    tallySection "Proceedings".toList tidied.usage.proceedings ++
    tallySection "Publishers".toList tidied.usage.publishers ++
    warningSection warnings ++ ['\n' :: rule]

def report (tidied : Tidied) (warnings : List Text) : Text :=
  joinWith ['\n'] (tidied.reportLines warnings)

end Tidied

end Bibliography
