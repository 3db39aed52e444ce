import Bibliography.Text.Basic

/-!
Counting a word from left to right finds as many occurrences as fit into the text without
overlap. Whichever occurrences are chosen, the one found first ends no later than the first
chosen one, so passing over it costs at most that one.
-/

namespace Bibliography.Text

/-- The word is chosen so many times in the text, one occurrence behind the other. -/
inductive Chosen (word : Text) : Text → Nat → Prop
  | none (text : Text) : Chosen word text 0
  | next (before : Text) {rest : Text} {count : Nat} (later : Chosen word rest count) :
      Chosen word (before ++ (word ++ rest)) (count + 1)

/-- The word occurs so many times without overlap, and not more often. The empty word occurs
before every character and at the end. -/
def OccursTimes (text word : Text) (count : Nat) : Prop :=
  if word = [] then count = text.length + 1
  else Chosen word text count ∧ ∀ other, Chosen word text other → other ≤ count

theorem Chosen.behind {word text : Text} {count : Nat} (chosen : Chosen word text count)
    (front : Text) : Chosen word (front ++ text) count := by
  cases chosen with
  | none => exact .none _
  | next before later =>
      rw [← List.append_assoc]
      exact .next (front ++ before) later

theorem Chosen.drop {word text : Text} {count : Nat} (chosen : Chosen word text (count + 1))
    {cut : Nat} (short : cut ≤ word.length) : Chosen word (text.drop cut) count := by
  cases chosen with
  | next before later =>
      have inside : cut ≤ (before ++ word).length := by
        rw [List.length_append]
        omega
      rw [← List.append_assoc, List.drop_append_of_le_length inside]
      exact later.behind _

theorem Chosen.tail {word rest : Text} {char : Char} {count : Nat}
    (chosen : Chosen word (char :: rest) count) (apart : ¬ word <+: char :: rest) :
    Chosen word rest count := by
  generalize whole : char :: rest = text at chosen apart
  cases chosen with
  | none => exact .none rest
  | next before later =>
      cases before with
      | nil => exact absurd (List.prefix_append _ _) apart
      | cons first others =>
          rw [(List.cons.inj whole).2]
          exact .next others later

theorem not_chosen_in_nil {word : Text} (nonempty : word ≠ []) {count : Nat}
    (chosen : Chosen word [] count) : count = 0 := by
  generalize empty : ([] : Text) = text at chosen
  cases chosen with
  | none => rfl
  | next before later =>
      have parts := List.append_eq_nil_iff.1 (List.append_eq_nil_iff.1 empty.symm).2
      exact absurd parts.1 nonempty

theorem occurrences_from_drop (word : Text) (skip : Nat) (text : Text) :
    occurrencesFrom word skip text = occurrencesFrom word 0 (text.drop skip) := by
  induction text generalizing skip with
  | nil => cases skip <;> rfl
  | cons char rest induction =>
      cases skip with
      | zero => rfl
      | succ skip => exact induction skip

/-- From left to right, an occurrence is passed over as a whole, and any other character
alone. -/
theorem occurrence_induct {word : Text} (nonempty : word ≠ []) {holds : Text → Prop}
    (empty : holds []) (found : ∀ behind, holds behind → holds (word ++ behind))
    (passed : ∀ char rest, ¬ word <+: char :: rest → holds rest → holds (char :: rest))
    (text : Text) : holds text := by
  cases text with
  | nil => exact empty
  | cons char rest =>
      by_cases starts : word <+: char :: rest
      · obtain ⟨behind, whole⟩ := starts
        have shorter : behind.length < rest.length + 1 := by
          have long := List.length_pos_iff.2 nonempty
          rw [← List.length_cons (a := char), ← whole, List.length_append]
          omega
        rw [← whole]
        exact found behind (occurrence_induct nonempty empty found passed behind)
      · exact passed char rest starts (occurrence_induct nonempty empty found passed rest)
termination_by text.length

theorem occurrences_from_word {word : Text} (nonempty : word ≠ []) (behind : Text) :
    occurrencesFrom word 0 (word ++ behind) = occurrencesFrom word 0 behind + 1 := by
  cases word with
  | nil => exact absurd rfl nonempty
  | cons first others =>
      have starts : (first :: others).isPrefixOf (first :: (others ++ behind)) = true :=
        List.isPrefixOf_iff_prefix.2 (List.prefix_append (first :: others) behind)
      rw [List.cons_append, occurrencesFrom, if_pos starts, occurrences_from_drop,
        List.length_cons, Nat.add_sub_cancel, List.drop_left]

theorem occurrences_from_passed {word rest : Text} {char : Char}
    (apart : ¬ word <+: char :: rest) :
    occurrencesFrom word 0 (char :: rest) = occurrencesFrom word 0 rest := by
  rw [occurrencesFrom, if_neg fun starts => apart (List.isPrefixOf_iff_prefix.1 starts)]

theorem occurrences_from_chosen {word : Text} (nonempty : word ≠ []) (text : Text) :
    Chosen word text (occurrencesFrom word 0 text) := by
  induction text using occurrence_induct nonempty with
  | empty => exact .none []
  | found behind induction =>
      rw [occurrences_from_word nonempty]
      exact .next [] induction
  | passed char rest apart induction =>
      rw [occurrences_from_passed apart]
      exact induction.behind [char]

theorem le_occurrences_from {word text : Text} (nonempty : word ≠ []) {count : Nat}
    (chosen : Chosen word text count) : count ≤ occurrencesFrom word 0 text := by
  induction text using occurrence_induct nonempty generalizing count with
  | empty => exact Nat.le_of_eq (not_chosen_in_nil nonempty chosen)
  | found behind induction =>
      rw [occurrences_from_word nonempty]
      cases count with
      | zero => exact Nat.zero_le _
      | succ count =>
          have later := chosen.drop (Nat.le_refl word.length)
          rw [List.drop_left] at later
          exact Nat.succ_le_succ (induction later)
  | passed char rest apart induction =>
      rw [occurrences_from_passed apart]
      exact induction (chosen.tail apart)

theorem occurs_times (text word : Text) : OccursTimes text word (occurrences text word) := by
  unfold OccursTimes occurrences
  split
  · rfl
  · next nonempty =>
      exact ⟨occurrences_from_chosen nonempty text, fun _ => le_occurrences_from nonempty⟩

end Bibliography.Text
