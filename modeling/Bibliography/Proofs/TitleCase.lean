import Bibliography.Proofs.Layout
import Bibliography.Proofs.Text.CaseRanges
import Mathlib.Data.List.Basic

/-!
Title case keeps the shape of a value: it does not get shorter, blanks stay where they
are, and text on one line that is solid at both ends remains so. Each word is mapped by
itself, so these come from the images of single characters.
-/

namespace Bibliography.Text

theorem case_avoids_blanks : CaseAvoids blankRanges where
  ascii := by decide +kernel
  runs := by decide +kernel
  expansions := by decide +kernel
  single := by decide +kernel

theorem solid_of_word {char : Char} (word : isWord char = true) : isBlank char = false := by
  apply Bool.eq_false_iff.2
  intro blank
  rw [not_word_of_blank blank] at word
  exact absurd word (by decide)

theorem length_upper_char (char : Char) : 1 ≤ (upperChar char).length := by
  have checked : (upperExpansions.all fun row => decide (1 ≤ row.2.length)) = true := by
    decide +kernel
  unfold upperChar
  split
  · simp
  · split
    · next codes found =>
        rw [List.length_map]
        exact of_decide_eq_true (List.all_eq_true.1 checked _ (expansion_listed found))
    · simp

theorem length_lower_char (char : Char) : 1 ≤ (lowerChar char).length := by
  unfold lowerChar
  split
  · simp
  · split <;> simp

theorem length_lower_after (afterCased : Bool) (text : Text) :
    text.length ≤ (lowerAfter afterCased text).length := by
  induction text generalizing afterCased with
  | nil => simp
  | cons first rest induction =>
      rw [lowerAfter, List.length_append, List.length_cons]
      have tail := induction (if isCaseIgnorable first then afterCased else isCased first)
      have head := length_lower_char first
      split
      · rw [List.length_singleton]
        omega
      · omega

/-- The upper case of the character is a single word character in upper case. -/
def HasCapital (char : Char) : Prop :=
  ∃ capital, upperChar char = [capital] ∧ upperChar capital = [capital] ∧ isWord capital = true

theorem capital_of_ascii {char : Char} (small : char.toNat < 128) (word : isWord char = true) :
    HasCapital char := by
  have checked := ascii_all (fun char => !isWord char ||
    (upperChar char.toUpper == [char.toUpper] && isWord char.toUpper)) (by decide +kernel) small
  simp only [word, Bool.not_true, Bool.false_or, Bool.and_eq_true, beq_iff_eq] at checked
  exact ⟨char.toUpper, if_pos small, checked⟩

/-- Neither case changes the character, wherever it stands. -/
def Caseless (char : Char) : Prop := upperChar char = [char] ∧ Settled char

end Bibliography.Text

namespace Bibliography.Layout

open Text

/-- A character of the text in title case is one of the text, the upper case of one, or stands
in the lower case of some of them. -/
theorem mem_title_case {image : Char} {text : Text} (member : image ∈ titleCase text) :
    image ∈ text ∨ (∃ char ∈ text, image ∈ upperChar char) ∨
      ∃ others : Text, (∀ char ∈ others, char ∈ text) ∧ image ∈ lower others := by
  induction text using titleCase.induct with
  | case1 =>
      rw [titleCase] at member
      exact .inl member
  | case2 char rest word _ induction =>
      rw [titleCase, if_pos word] at member
      rcases List.mem_append.1 member with here | later
      · rcases List.mem_append.1 here with first | others
        · exact .inr (.inl ⟨char, List.mem_cons_self, first⟩)
        · refine .inr (.inr ⟨_, ?_, others⟩)
          exact fun next known =>
            List.mem_cons_of_mem char ((List.takeWhile_prefix _).subset known)
      · have behind : ∀ {next : Char},
            next ∈ (rest.dropWhile fun next => !isBlank next) → next ∈ char :: rest :=
          fun known => List.mem_cons_of_mem char ((List.dropWhile_suffix _).subset known)
        rcases induction later with same | ⟨next, known, capital⟩ | ⟨others, known, small⟩
        · exact .inl (behind same)
        · exact .inr (.inl ⟨next, behind known, capital⟩)
        · exact .inr (.inr ⟨others, fun next member => behind (known next member), small⟩)
  | case3 char rest other induction =>
      rw [titleCase, if_neg other] at member
      rcases List.mem_cons.1 member with rfl | later
      · exact .inl List.mem_cons_self
      · rcases induction later with same | ⟨next, known, capital⟩ | ⟨others, known, small⟩
        · exact .inl (List.mem_cons_of_mem char same)
        · exact .inr (.inl ⟨next, List.mem_cons_of_mem char known, capital⟩)
        · exact .inr (.inr ⟨others,
            fun next member => List.mem_cons_of_mem char (known next member), small⟩)

theorem title_case_outside {ranges : List (Nat × Nat)} (avoids : CaseAvoids ranges) {text : Text}
    (outside : ∀ char ∈ text, Outside ranges char) :
    ∀ char ∈ titleCase text, Outside ranges char := by
  intro image member
  rcases mem_title_case member with same | ⟨char, known, capital⟩ | ⟨others, known, small⟩
  · exact outside image same
  · exact upper_char_outside avoids (outside char known) image capital
  · exact lower_outside avoids (fun char inside => outside char (known char inside)) image small

theorem length_title_case (text : Text) : text.length ≤ (titleCase text).length := by
  induction text using titleCase.induct with
  | case1 => simp
  | case2 char rest word _ induction =>
      have parts := congrArg List.length
        (List.takeWhile_append_dropWhile (p := fun next => !isBlank next) (l := rest))
      have first := length_upper_char char
      have others := length_lower_after false (rest.takeWhile fun next => !isBlank next)
      rw [titleCase, if_pos word]
      simp only [List.length_append, List.length_cons, lower] at parts ⊢
      omega
  | case3 char rest other induction =>
      rw [titleCase, if_neg other, List.length_cons, List.length_cons]
      omega

theorem title_case_caseless {text : Text} (caseless : ∀ char ∈ text, Caseless char) :
    titleCase text = text := by
  induction text using titleCase.induct with
  | case1 => rw [titleCase]
  | case2 char rest word _ induction =>
      have behind : ∀ next ∈ rest, Caseless next := fun next known =>
        caseless next (by simp [known])
      rw [titleCase, if_pos word, (caseless char (by simp)).1, lower, lower_after_of_settled,
        induction, List.append_assoc, List.takeWhile_append_dropWhile, List.singleton_append]
      · exact fun next known => behind next ((List.dropWhile_suffix _).subset known)
      · exact fun next known => (behind next ((List.takeWhile_prefix _).subset known)).2
  | case3 char rest other induction =>
      rw [titleCase, if_neg other, induction fun next known => caseless next (by simp [known])]

theorem solid_of_lowered_word {rest : Text} :
    ∀ image ∈ lower (rest.takeWhile fun next => !isBlank next), isBlank image = false := by
  apply lower_outside case_avoids_blanks
  intro next member
  have solid : isBlank next = false := by simpa using List.mem_takeWhile_imp member
  exact solid

theorem starts_blank_title_case {text : Text}
    (blank : ∀ char ∈ text.head?, isBlank char = true) :
    ∀ char ∈ (titleCase text).head?, isBlank char = true := by
  cases text with
  | nil => rwa [titleCase]
  | cons first rest =>
      have noWord : isWord first = false := not_word_of_blank (blank first (by simp))
      rw [titleCase, noWord, if_neg (by decide)]
      exact blank

theorem title_case_again {text : Text}
    (titled : ∀ char ∈ text, isWord char = true → HasCapital char) :
    titleCase (titleCase text) = titleCase text := by
  induction text using titleCase.induct with
  | case1 => rw [titleCase, titleCase]
  | case2 char rest word _ induction =>
      obtain ⟨capital, mapped, same, stays⟩ := titled char (by simp) word
      have tail := induction fun next known =>
        titled next (List.mem_cons_of_mem char ((List.dropWhile_suffix _).subset known))
      have inside : ∀ next ∈ lower (rest.takeWhile fun next => !isBlank next),
          (!isBlank next) = true := by
        intro next member
        rw [solid_of_lowered_word next member]
        rfl
      have outside : ∀ next ∈ (titleCase (rest.dropWhile fun next => !isBlank next)).head?,
          (!isBlank next) = false := by
        intro next first
        have stops (other : Char)
            (head : (rest.dropWhile fun next => !isBlank next).head? = some other) :
            isBlank other = true := by
          have stopped := List.head?_dropWhile_not (fun next => !isBlank next) rest
          rw [head] at stopped
          simpa using stopped
        have blank := starts_blank_title_case stops next first
        rw [blank]
        rfl
      rw [titleCase, if_pos word, mapped, List.append_assoc, List.singleton_append, titleCase,
        if_pos stays, take_while_exact inside outside, drop_while_exact inside outside, same,
        lower_lower, tail, List.singleton_append, List.cons_append]
  | case3 char rest other induction =>
      have noWord : titleCase (char :: rest) = char :: titleCase rest := by
        rw [titleCase, if_neg other]
      rw [noWord, titleCase, if_neg other, induction fun next known =>
        titled next (List.mem_cons_of_mem char known)]

theorem starts_solid_title_case {text : Text} (solid : StartsSolid text) :
    StartsSolid (titleCase text) := by
  induction text using titleCase.induct with
  | case1 => rwa [titleCase]
  | case2 char rest word =>
      rw [titleCase, if_pos word, List.append_assoc]
      intro image first
      have nonempty : upperChar char ≠ [] :=
        List.ne_nil_of_length_pos (length_upper_char char)
      rw [List.head?_append_of_ne_nil _ nonempty] at first
      exact upper_char_outside case_avoids_blanks (solid char (by simp)) image
        (List.mem_of_mem_head? first)
  | case3 char rest other =>
      rw [titleCase, if_neg other]
      exact starts_solid_cons _ (solid char (by simp))

theorem ends_solid_title_case {text : Text} (solid : EndsSolid text) :
    EndsSolid (titleCase text) := by
  induction text using titleCase.induct with
  | case1 => rwa [titleCase]
  | case2 char rest word _ induction =>
      have parts := List.takeWhile_append_dropWhile (p := fun next => !isBlank next) (l := rest)
      have tail := ends_solid_of_append [char] solid
      rw [← parts] at tail
      rw [titleCase, if_pos word]
      by_cases last : titleCase (rest.dropWhile fun next => !isBlank next) = []
      · -- The text ends with this word, none of whose images is blank.
        rw [last, List.append_nil]
        intro image final
        rcases List.mem_append.1 (List.mem_of_getLast? final) with first | others
        · exact upper_char_outside case_avoids_blanks (solid_of_word word) image first
        · exact solid_of_lowered_word image others
      · exact ends_solid_append _ (induction (ends_solid_of_append _ tail)) last
  | case3 char rest other induction =>
      rw [titleCase, if_neg other]
      by_cases last : rest = []
      · rw [last, titleCase]
        exact last ▸ solid
      · refine ends_solid_append [char] (induction (ends_solid_of_append [char] solid)) ?_
        have longer := length_title_case rest
        exact List.ne_nil_of_length_pos (Nat.lt_of_lt_of_le (List.length_pos_iff.2 last) longer)

theorem joined_title_case {text : Text} (joined : Joined text) : Joined (titleCase text) := by
  have avoids : CaseAvoids [(10, 10)] :=
    ⟨by decide +kernel, by decide +kernel, by decide +kernel, by decide +kernel⟩
  refine ⟨?_, starts_solid_title_case joined.starts, ends_solid_title_case joined.ends⟩
  intro feed
  have outside : ∀ char ∈ text, Outside [(10, 10)] char := by
    intro char member
    have other : char ≠ '\n' := fun same => joined.line (same ▸ member)
    have code : char.toNat ≠ 10 := fun same => other (Char.toNat_inj.1 same)
    simp only [Outside, inRanges, List.any_cons, List.any_nil, Bool.or_false,
      Bool.and_eq_false_iff, decide_eq_false_iff_not]
    omega
  exact Bool.eq_false_iff.1 (title_case_outside avoids outside '\n' feed) (by decide)

end Bibliography.Layout
