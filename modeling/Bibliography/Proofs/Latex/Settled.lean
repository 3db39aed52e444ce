import Bibliography.Proofs.Latex.Spells
import Bibliography.Proofs.Text.CaseRanges
import Mathlib.Data.List.Chain

/-!
Spelling settles at once. What has been written for a character is ASCII and does not end
in a letter, so nothing is left to spell in it, and no mark behind it finds a letter. It is
also longer than what it stands for, apart from a few characters that are spelled as a
single one; where none of these occurs, text is left alone or made longer.
-/

namespace Bibliography.Latex

open Text

def shortRanges : List (Nat × Nat) := [(160, 160), (8208, 8209), (8216, 8217)]

structure Replaces (unit spelled : Text) : Prop where
  closed : Closed spelled
  longer : (∀ char ∈ unit, Outside shortRanges char) → unit.length < spelled.length

theorem replaces_pair {letter mark : Char} {spelled : Text}
    (found : spellPair? marks letter mark = some spelled) : Replaces [letter, mark] spelled := by
  refine ⟨spell_pair_closed marks_far found, fun _ => ?_⟩
  obtain ⟨_, row, _, _, rfl⟩ := row_of_spell_pair found
  simp only [Mark.spell, group, List.length_cons, List.length_append, List.length_nil]
  omega

theorem replaces_symbol {row : Char × Text} (known : row ∈ symbols) :
    Replaces [row.1] row.2 := by
  refine ⟨symbols_closed row known, fun outside => ?_⟩
  have checked : (symbols.all fun row =>
      decide (1 < row.2.length) || inRanges shortRanges row.1.toNat) = true := by
    decide +kernel
  have long := List.all_eq_true.1 checked row known
  rw [show inRanges shortRanges row.1.toNat = false from outside row.1 (by simp),
    Bool.or_false, decide_eq_true_eq] at long
  exact long

/-- Every text is built from its end by characters that are spelled as themselves, and by
units that are replaced. -/
theorem replaced_induct {holds : Text → Prop} (empty : holds [])
    (own : ∀ char rest, (∀ following ∈ rest.head?, spellPair? marks char following = none) →
      spellBy symbols char = [char] → holds rest → holds (char :: rest))
    (replaced : ∀ {unit spelled rest}, Replaces unit spelled →
      spellOut (unit ++ rest) = spelled ++ spellOut rest → holds rest → holds (unit ++ rest))
    (text : Text) : holds text := by
  induction text using spell_out_induct with
  | empty => exact empty
  | own char rest missing same tail => exact own char rest missing same tail
  | replaced spells tail =>
      have whole := spell_out_spells spells
      cases spells with
      | pair found => exact replaced (replaces_pair found) whole tail
      | @single char missing =>
          rcases spell_by_row symbols char with same | ⟨row, known, rfl, spelled⟩
          · exact own char _ missing same tail
          · rw [spelled] at whole
            exact replaced (replaces_symbol known) whole tail

theorem head_spelled {text : Text} :
    ∀ char ∈ (spellOut text).head?, char.toNat < 128 ∨ text.head? = some char := by
  intro char first
  induction text using replaced_induct with
  | empty => simp [spellOut, scan] at first
  | own char rest missing same =>
      rw [spell_out_own missing same] at first
      exact .inr first
  | replaced replaces whole =>
      obtain ⟨front, last, rfl, small, _⟩ := replaces.closed
      refine .inl (small char ?_)
      rw [whole, List.head?_append_of_ne_nil _ (by simp)] at first
      exact List.mem_of_mem_head? first

/-- Nothing is left to spell: every character is spelled as itself, and no mark stands behind
a letter that it could join. -/
structure Spelled (text : Text) : Prop where
  own : ∀ char ∈ text, spellBy symbols char = [char]
  alone : text.IsChain fun letter next => spellPair? marks letter next = none

theorem spelled_of_ascii {text : Text} (ascii : IsAscii text) : Spelled text := by
  refine ⟨fun char member => spell_by_ascii (ascii char member), ?_⟩
  rw [List.isChain_iff_forall_rel_of_append_cons_cons]
  rintro letter next front back rfl
  exact spell_pair_before_ascii letter (ascii next (by simp))

theorem spelled_behind_closed {written rest : Text} (closed : Closed written)
    (spelled : Spelled rest) : Spelled (written ++ rest) := by
  obtain ⟨front, last, rfl, ascii, other⟩ := closed
  have before := spelled_of_ascii ascii
  refine ⟨?_, before.alone.append spelled.alone ?_⟩
  · intro char member
    rcases List.mem_append.1 member with here | later
    · exact before.own char here
    · exact spelled.own char later
  · intro letter final next _
    obtain rfl : last = letter := by simpa using final
    unfold spellPair?
    rw [other]
    rfl

theorem spelled_spell_out (text : Text) : Spelled (spellOut text) := by
  induction text using replaced_induct with
  | empty => exact ⟨by simp [spellOut, scan], .nil⟩
  | own char rest missing same induction =>
      have alone : ∀ following ∈ (spellOut rest).head?,
          spellPair? marks char following = none := by
        intro following first
        rcases head_spelled following first with small | head
        · exact spell_pair_before_ascii char small
        · exact missing following head
      rw [spell_out_own missing same]
      exact ⟨List.forall_mem_cons.2 ⟨same, induction.own⟩,
        List.isChain_cons.2 ⟨alone, induction.alone⟩⟩
  | replaced replaces whole induction =>
      rw [whole]
      exact spelled_behind_closed replaces.closed induction

/-- A text is left alone exactly if nothing is left to spell in it. -/
theorem spell_out_eq_self_iff {text : Text} : spellOut text = text ↔ Spelled text := by
  constructor
  · intro same
    rw [← same]
    exact spelled_spell_out text
  · intro spelled
    obtain ⟨own, alone⟩ := spelled
    induction text with
    | nil => rfl
    | cons char rest induction =>
        rw [List.isChain_cons] at alone
        rw [spell_out_own alone.1 (own char (by simp)),
          induction (fun other member => own other (by simp [member])) alone.2]

theorem spell_out_of_ascii {text : Text} (ascii : IsAscii text) : spellOut text = text :=
  spell_out_eq_self_iff.2 (spelled_of_ascii ascii)

theorem spell_out_spelled (text : Text) : spellOut (spellOut text) = spellOut text :=
  spell_out_eq_self_iff.2 (spelled_spell_out text)

theorem mem_of_far_spelled {char : Char} (far : 128 ≤ char.toNat) {text : Text}
    (member : char ∈ spellOut text) : char ∈ text := by
  induction text using replaced_induct with
  | empty => exact member
  | own first rest missing same induction =>
      rw [spell_out_own missing same] at member
      rcases List.mem_cons.1 member with rfl | later
      · exact List.mem_cons_self
      · exact List.mem_cons_of_mem first (induction later)
  | @replaced unit spelled rest replaces whole induction =>
      rw [whole] at member
      rcases List.mem_append.1 member with here | later
      · obtain ⟨_, _, _, ascii, _⟩ := replaces.closed
        have small := ascii char here
        omega
      · exact List.mem_append_right unit (induction later)

theorem not_listed_of_own {char : Char} (own : spellBy symbols char = [char]) :
    ∀ row ∈ symbols, row.1 ≠ char := by
  intro row known same
  cases found : symbols.find? fun row => row.1 == char with
  | none => exact List.find?_eq_none.1 found row known (beq_iff_eq.2 same)
  | some other =>
      have written : other.2 = [char] := by
        rw [← own, spellBy, found]
      have far := (symbols_far row known).1
      have small := (symbols_far other (List.mem_of_find?_eq_some found)).2 char (by simp [written])
      rw [same] at far
      omega

theorem not_alpha_before_mark {letter : Char} {mark : Mark} (known : mark ∈ marks)
    (missing : spellPair? marks letter mark.char = none) : letter.isAlpha = false := by
  apply Bool.eq_false_iff.2
  intro alpha
  rw [spellPair?, if_pos alpha, Option.map_eq_none_iff, List.find?_eq_none] at missing
  exact missing mark known (beq_iff_eq.2 rfl)

/-- Without the characters that are spelled as a single one, a text of the same length is
the same text. -/
theorem spell_out_same_or_longer {text : Text} (outside : ∀ char ∈ text, Outside shortRanges char) :
    spellOut text = text ∨ text.length < (spellOut text).length := by
  induction text using replaced_induct with
  | empty => exact .inl rfl
  | own char rest missing same induction =>
      rw [spell_out_own missing same, List.length_cons, List.length_cons]
      rcases induction fun other member => outside other (by simp [member]) with settled | longer
      · exact .inl (by rw [settled])
      · exact .inr (by omega)
  | @replaced unit spelled rest replaces whole induction =>
      have grows := replaces.longer fun char member => outside char (by simp [member])
      have tail : rest.length ≤ (spellOut rest).length := by
        rcases induction fun char member => outside char (by simp [member]) with settled | longer
        · exact Nat.le_of_eq (congrArg List.length settled).symm
        · omega
      refine .inr ?_
      rw [whole, List.length_append, List.length_append]
      omega

theorem outside_short_of_spelled {text : Text} :
    ∀ char ∈ spellOut text, Outside shortRanges char := by
  have checked : (shortRanges.all fun range => (List.range' range.1 (range.2 + 1 - range.1)).all
      fun code => spellBy symbols (Char.ofNat code) != [Char.ofNat code]) = true := by
    decide +kernel
  intro char member
  apply Bool.eq_false_iff.2
  intro inside
  obtain ⟨range, listed, within⟩ := List.any_eq_true.1 inside
  rw [Bool.and_eq_true, decide_eq_true_eq, decide_eq_true_eq] at within
  have code : char.toNat ∈ List.range' range.1 (range.2 + 1 - range.1) := by
    rw [List.mem_range'_1]
    omega
  have changed := List.all_eq_true.1 (List.all_eq_true.1 checked range listed) _ code
  rw [Char.ofNat_toNat, (spelled_spell_out text).own char member] at changed
  simp at changed

/-- Nothing is left for a second run: no character with a row of its own, and no letter with
a mark behind it. -/
theorem escape_settles (text : Text) :
    (∀ row ∈ symbols, row.1 ∉ escape text) ∧
      (∀ mark ∈ marks, ∀ front letter back,
        escape text = front ++ letter :: mark.char :: back → letter.isAlpha = false) ∧
      escape (escape text) = escape text ∧
      (IsAscii text → escape text = text) ∧
      ∀ char ∈ escape text, 128 ≤ char.toNat → char ∈ text := by
  have spelled := spelled_spell_out text
  simp only [escape_eq_spell_out]
  refine ⟨?_, ?_, spell_out_spelled text, spell_out_of_ascii, ?_⟩
  · intro row known member
    exact not_listed_of_own (spelled.own row.1 member) row known rfl
  · intro mark known front letter back parts
    apply not_alpha_before_mark known
    exact List.isChain_iff_forall_rel_of_append_cons_cons.1 spelled.alone parts
  · intro char member far
    exact mem_of_far_spelled far member

/-- A composed letter before a mark, a letter with two marks, and a letter without a row. Two
of the marks are left over. -/
def leftoverMarks : Text := "ü\u0301e\u0301\u0300א".toList

theorem leftover_marks_settled :
    escape leftoverMarks = "\x7b\\\"u\x7d\u0301\x7b\\'e\x7d\u0300א".toList ∧
      escape (escape leftoverMarks) = escape leftoverMarks ∧
      IsAscii "50% of x_1".toList ∧ escape "50% of x_1".toList = "50% of x_1".toList := by
  have checked : ("50% of x_1".toList.all fun char => decide (char.toNat < 128)) = true := by
    decide +kernel
  have ascii : IsAscii "50% of x_1".toList := fun char member =>
    of_decide_eq_true (List.all_eq_true.1 checked char member)
  refine ⟨?_, (escape_settles leftoverMarks).2.2.1, ascii, (escape_settles _).2.2.2.1 ascii⟩
  rw [escape_eq_spell_out]
  decide +kernel

end Bibliography.Latex
