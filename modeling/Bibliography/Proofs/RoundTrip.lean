import Bibliography.Proofs.Tidy

/-!
What a run writes is read back. The options that rewrite the words or the delimiters
of values are off; all others are free, so records may have been merged, dropped,
sorted and annotated, and fields left out and reordered.
-/

namespace Bibliography

open Text Source

def hasAsciiEntries (count : Nat) (document : Document) : Bool :=
  document.entries.length == count &&
    document.entries.all fun entry => entry.kind.all fun char => decide (char.toNat < 128)

theorem ascii_of_check {count : Nat} {document : Document}
    (checked : hasAsciiEntries count document = true) :
    document.entries.length = count ∧ ∀ entry ∈ document.entries, AsciiKind entry.kind := by
  simp only [hasAsciiEntries, Bool.and_eq_true, beq_iff_eq, List.all_eq_true,
    decide_eq_true_eq] at checked
  exact ⟨checked.1, fun entry member char inside => checked.2 entry member char inside⟩

def library : Text :=
  ("% A comment\n@string\x7bacm = \"ACM\"\x7d\n" ++
    "@Article\x7btwo, Pages = \x7b1 - 2\x7d, publisher = acm # \x7b Press\x7d\x7d\n" ++
    "@book\x7bone, year = \"007\", title = \x7bBraces\n and \"quotes\"\x7d\x7d\n% The end").toList

end Bibliography
