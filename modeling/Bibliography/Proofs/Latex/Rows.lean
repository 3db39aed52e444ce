import Bibliography.Proofs.Latex.Pass
import Mathlib.Data.List.Nodup

/-!
The order of the rows does not matter. Rows that do not meet are applied as if all at once,
whatever their order; and the one pass only asks which row there is for a character or for
a pair, of which there is at most one.
-/

namespace Bibliography.Latex

open Text

theorem find_same {Item : Type} (char : Item → Char) {left right : List Item}
    (same : ∀ item, item ∈ left ↔ item ∈ right)
    (unique : ∀ item ∈ left, ∀ other ∈ left, char item = char other → item = other)
    (wanted : Char) :
    (left.find? fun item => char item == wanted) = right.find? fun item => char item == wanted := by
  cases found : right.find? fun item => char item == wanted with
  | none =>
      rw [List.find?_eq_none] at found ⊢
      intro item member
      exact found item ((same item).1 member)
  | some item =>
      have inside := (same item).2 (List.mem_of_find?_eq_some found)
      have itemChar := List.find?_some found
      cases first : left.find? fun item => char item == wanted with
      | none => exact absurd itemChar (List.find?_eq_none.1 first item inside)
      | some other =>
          have otherChar := List.find?_some first
          rw [beq_iff_eq] at itemChar otherChar
          exact congrArg some (unique other (List.mem_of_find?_eq_some first) item inside
            (otherChar.trans itemChar.symm))

theorem scan_congr {left right : List Mark} {leftSpell rightSpell : Char → Text}
    (pairs : ∀ letter next, spellPair? left letter next = spellPair? right letter next)
    (singles : ∀ char, leftSpell char = rightSpell char) (text : Text) :
    scan left leftSpell text = scan right rightSpell text := by
  fun_induction scan left leftSpell text with
  | case1 => rfl
  | case2 char => exact singles char
  | case3 char next rest spelled found induction =>
      rw [pairs] at found
      rw [scan_pair found, induction]
  | case4 char next rest missing induction =>
      rw [pairs] at missing
      rw [scan_alone missing, induction, singles]

namespace Apart

variable {left right : List Row}

theorem perm (apart : Apart left) (same : left.Perm right) : Apart right where
  far := fun row member => apart.far row (same.mem_iff.2 member)
  distinct := (same.map Row.char).nodup_iff.1 apart.distinct

theorem spell_pair_perm (apart : Apart left) (same : left.Perm right) (letter next : Char) :
    spellPair? (marksOf left) letter next = spellPair? (marksOf right) letter next := by
  have members : ∀ mark, mark ∈ marksOf left ↔ mark ∈ marksOf right := by
    intro mark
    rw [mem_marks_of, mem_marks_of, same.mem_iff]
  have unique : ∀ mark ∈ marksOf left, ∀ other ∈ marksOf left,
      mark.char = other.char → mark = other := by
    intro mark known other listed equal
    rw [mem_marks_of] at known listed
    exact Row.mark.inj (List.inj_on_of_nodup_map apart.distinct known listed equal)
  unfold spellPair?
  rw [find_same Mark.char members unique next]

theorem spell_by_perm (apart : Apart left) (same : left.Perm right) (char : Char) :
    spellBy (symbolsOf left) char = spellBy (symbolsOf right) char := by
  have members : ∀ symbol, symbol ∈ symbolsOf left ↔ symbol ∈ symbolsOf right := by
    intro symbol
    rw [mem_symbols_of, mem_symbols_of, same.mem_iff]
  have unique : ∀ symbol ∈ symbolsOf left, ∀ other ∈ symbolsOf left,
      symbol.1 = other.1 → symbol = other := by
    intro symbol known other listed equal
    rw [mem_symbols_of] at known listed
    exact Row.symbol.inj (List.inj_on_of_nodup_map apart.distinct known listed equal)
  unfold spellBy
  rw [find_same Prod.fst members unique char]

theorem apply_all_perm (apart : Apart left) (same : left.Perm right) (text : Text) :
    applyAll left text = applyAll right text := by
  rw [apply_all_eq_scan apart, apply_all_eq_scan (apart.perm same)]
  exact scan_congr (apart.spell_pair_perm same) (apart.spell_by_perm same) text

end Apart

/-- Applying the table row by row is one pass over the text, and so it is in any other order
of the rows. -/
theorem escape_in_one_pass (text : Text) :
    escape text = spellOut text ∧
      ∀ rows : List Row, rows.Perm table → applyAll rows text = escape text := by
  refine ⟨escape_eq_spell_out text, ?_⟩
  intro rows same
  rw [escape_eq_apply_all]
  exact (table_apart.perm same.symm).apply_all_perm same text

/-- Two marks on one letter, a letter that is composed already with a mark behind it, a mark
behind a dash and one at the start. -/
def stackedMarks : Text := "\u0301e\u0301\u0300 \u00fc\u0308—\u0308u\u0308".toList

theorem reversed_table_agrees :
    table.reverse.Perm table ∧ applyAll table.reverse stackedMarks = escape stackedMarks ∧
      escape stackedMarks =
        "\u0301\x7b\\'e\x7d\u0300 \x7b\\\"u\x7d\u0308---\u0308\x7b\\\"u\x7d".toList := by
  have same : table.reverse.Perm table := List.reverse_perm table
  have passed := escape_in_one_pass stackedMarks
  refine ⟨same, passed.2 _ same, ?_⟩
  rw [passed.1]
  decide +kernel

end Bibliography.Latex
