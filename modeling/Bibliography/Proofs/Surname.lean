import Bibliography.Proofs.Text.Case
import Bibliography.Proofs.Text.Gap
import Bibliography.Record

/-!
The search for the first author's surname. It goes from left to right, takes as much of a
word as it can, and gives characters back until a comma, a joining word or nothing follows.
A joining word need not stand alone: a given name that ends in one is cut off in front of
it. All other pairs of names give the same surname in either spelling.
-/

namespace Bibliography

open Text

/-- The words that join two authors; a space must follow them. -/
def joiners : List Text := ["and".toList, "et".toList]

theorem ends_surname_iff (rest : Text) :
    endsSurname rest = true ↔
      skipBlank rest = [] ∨ (skipBlank rest).head? = some ',' ∨
        ∃ joiner ∈ joiners, joiner ++ [' '] <+: skipBlank rest := by
  have comma : [','].isPrefixOf (skipBlank rest) = true ↔
      (skipBlank rest).head? = some ',' := by
    cases skipBlank rest with
    | nil => simp
    | cons char others =>
        simp only [List.isPrefixOf, Bool.and_true, beq_iff_eq, List.head?_cons,
          Option.some.injEq]
        exact eq_comm
  have joined : (∃ joiner ∈ joiners, joiner ++ [' '] <+: skipBlank rest) ↔
      "and ".toList <+: skipBlank rest ∨ "et ".toList <+: skipBlank rest := by
    simp only [joiners, List.mem_cons, List.not_mem_nil, or_false, exists_eq_or_imp,
      exists_eq_left]
    rfl
  simp only [endsSurname, Bool.or_eq_true, List.isEmpty_iff, comma, List.isPrefixOf_iff_prefix,
    joined, or_assoc]

theorem ends_surname_blank {char : Char} (blank : isBlank char = true) (rest : Text) :
    endsSurname (char :: rest) = endsSurname rest := by
  unfold endsSurname
  rw [skip_blank_cons blank]

/-- The longest word that starts here and stands before a text where words end. -/
def wordHere? (ends : Text → Bool) : Text → Option Text
  | [] => none
  | char :: rest =>
      if isBlank char then none
      else ((wordHere? ends rest).map (List.cons char)).or (if ends rest then some [char] else none)

def firstWord? (ends : Text → Bool) : Text → Option Text
  | [] => none
  | char :: rest => (wordHere? ends (char :: rest)).or (firstWord? ends rest)

theorem surname_here_eq (text : Text) : surnameHere? text = wordHere? endsSurname text := by
  induction text with
  | nil => rfl
  | cons char rest induction =>
      rw [surnameHere?, wordHere?, induction]
      cases wordHere? endsSurname rest <;> rfl

/-- The surname is the first word behind which a surname may end. -/
theorem surname_eq (text : Text) : surname? text = firstWord? endsSurname text := by
  induction text with
  | nil => rfl
  | cons char rest induction =>
      rw [surname?, firstWord?, surname_here_eq, induction]
      cases wordHere? endsSurname (char :: rest) <;> rfl

section Search

variable {ends : Text → Bool}

theorem word_here_blank {char : Char} (blank : isBlank char = true) (rest : Text) :
    wordHere? ends (char :: rest) = none := by
  rw [wordHere?, if_pos blank]

theorem word_here_solid {char : Char} (solid : isBlank char = false) (rest : Text) :
    wordHere? ends (char :: rest) =
      ((wordHere? ends rest).map (List.cons char)).or
        (if ends rest then some [char] else none) := by
  rw [wordHere?, if_neg (Bool.eq_false_iff.1 solid)]

theorem first_word_blank {char : Char} (blank : isBlank char = true) (rest : Text) :
    firstWord? ends (char :: rest) = firstWord? ends rest := by
  rw [firstWord?, word_here_blank blank, Option.none_or]

theorem first_word_skip_blank (text : Text) :
    firstWord? ends (skipBlank text) = firstWord? ends text := by
  induction text with
  | nil => rfl
  | cons char rest induction =>
      by_cases blank : isBlank char = true
      · rw [skip_blank_cons blank, induction, first_word_blank blank]
      · rw [skip_blank_solid (starts_solid_cons rest (Bool.eq_false_iff.2 blank))]

theorem first_word_of_here {text word : Text} (found : wordHere? ends text = some word) :
    firstWord? ends text = some word := by
  cases text with
  | nil => simp [wordHere?] at found
  | cons char rest => rw [firstWord?, found, Option.some_or]

theorem first_word_passes {word behind : Text}
    (none : ∀ back, back <:+ word → wordHere? ends (back ++ behind) = none) :
    firstWord? ends (word ++ behind) = firstWord? ends behind := by
  induction word with
  | nil => rfl
  | cons char rest induction =>
      have here := none (char :: rest) List.suffix_rfl
      rw [List.cons_append] at here ⊢
      rw [firstWord?, here, Option.none_or]
      exact induction fun back suffix => none back (suffix.trans (List.suffix_cons char rest))

variable {word behind : Text} (solid : ∀ char ∈ word, isBlank char = false)
include solid

theorem word_here_whole (nonempty : word ≠ []) (apart : wordHere? ends behind = none)
    (ended : ends behind = true) : wordHere? ends (word ++ behind) = some word := by
  induction word with
  | nil => exact absurd rfl nonempty
  | cons char rest induction =>
      obtain ⟨first, others⟩ := List.forall_mem_cons.1 solid
      rw [List.cons_append, word_here_solid first]
      cases rest with
      | nil =>
          rw [List.nil_append, apart, if_pos ended]
          rfl
      | cons next more =>
          rw [induction others (List.cons_ne_nil _ _)]
          rfl

theorem word_here_none (apart : wordHere? ends behind = none)
    (goesOn : ∀ back, back <:+ word → back ≠ word → ends (back ++ behind) = false) :
    wordHere? ends (word ++ behind) = none := by
  induction word with
  | nil => exact apart
  | cons char rest induction =>
      obtain ⟨first, others⟩ := List.forall_mem_cons.1 solid
      have proper : ∀ back, back <:+ rest → ends (back ++ behind) = false := by
        intro back suffix
        apply goesOn back (suffix.trans (List.suffix_cons char rest))
        intro same
        have shorter := suffix.length_le
        rw [same, List.length_cons] at shorter
        omega
      rw [List.cons_append, word_here_solid first,
        induction others fun back suffix _ => proper back suffix, proper rest List.suffix_rfl]
      rfl

end Search

/-- A word of ASCII letters that is not taken for a joining word. -/
structure NameWord (word : Text) : Prop where
  nonempty : word ≠ []
  letters : ∀ char ∈ word, char.isAlpha = true
  apart : word ∉ joiners

theorem letter_class {char : Char} (letter : char.isAlpha = true) :
    isBlank char = false ∧ isWord char = true ∧ char ≠ ',' ∧ char ≠ ' ' := by
  have checked := ascii_all
    (fun char => !char.isAlpha || (!isBlank char && isWord char && char != ',' && char != ' '))
    (by decide) (small_of_alpha letter)
  simpa [letter, and_assoc] using checked

theorem joiner_solid {joiner : Text} (joins : joiner ∈ joiners) (char : Char)
    (member : char ∈ joiner) : isBlank char = false ∧ char ≠ ' ' := by
  have checked : (joiners.all fun word => word.all Char.isAlpha) = true := by decide
  have letter := List.all_eq_true.1 (List.all_eq_true.1 checked joiner joins) char member
  exact ⟨(letter_class letter).1, (letter_class letter).2.2.2⟩

/-- Behind a word of letters and a space, or behind the last word, a surname ends exactly
before a joining word. -/
theorem ends_surname_letters {word tail : Text} (nonempty : word ≠ [])
    (letters : ∀ char ∈ word, char.isAlpha = true) (spaced : ∀ char ∈ tail.head?, char = ' ') :
    endsSurname (word ++ tail) = true ↔ word ∈ joiners ∧ tail ≠ [] := by
  have start : ∃ char rest, word = char :: rest ∧ char.isAlpha = true := by
    cases word with
    | nil => exact absurd rfl nonempty
    | cons char rest => exact ⟨char, rest, rfl, letters char List.mem_cons_self⟩
  have solid : skipBlank (word ++ tail) = word ++ tail := by
    obtain ⟨char, rest, rfl, letter⟩ := start
    exact skip_blank_solid (starts_solid_cons _ (letter_class letter).1)
  have noComma : (word ++ tail).head? ≠ some ',' := by
    obtain ⟨char, rest, rfl, letter⟩ := start
    intro comma
    exact (letter_class letter).2.2.1 (Option.some.inj comma)
  rw [ends_surname_iff, solid]
  constructor
  · rintro (empty | comma | ⟨joiner, joins, behind, parts⟩)
    · exact absurd (List.append_eq_nil_iff.1 empty).1 nonempty
    · exact absurd comma noComma
    · -- Both words reach to the first space.
      have wordLetters : ∀ char ∈ word, (char != ' ') = true := fun char member =>
        bne_iff_ne.2 (letter_class (letters char member)).2.2.2
      have joinerLetters : ∀ char ∈ joiner, (char != ' ') = true := fun char member =>
        bne_iff_ne.2 (joiner_solid joins char member).2
      have wordWhole : (word ++ tail).takeWhile (fun char => char != ' ') = word := by
        apply take_while_exact wordLetters
        intro char first
        rw [spaced char first]
        rfl
      have joinerWhole : (joiner ++ ' ' :: behind).takeWhile (fun char => char != ' ') = joiner :=
        take_while_exact joinerLetters (by simp)
      have same : word = joiner := by
        rw [← wordWhole, ← parts, List.append_assoc]
        exact joinerWhole
      refine ⟨same ▸ joins, ?_⟩
      rintro rfl
      rw [List.append_nil, same] at parts
      have short := congrArg List.length parts
      simp at short
  · rintro ⟨joins, more⟩
    cases tail with
    | nil => exact absurd rfl more
    | cons char rest =>
        rw [spaced char rfl]
        exact .inr (.inr ⟨word, joins, rest, by simp⟩)

def andOthers : Option Text → Text
  | none => []
  | some others => " and ".toList ++ others

theorem and_others_spaced (others : Option Text) :
    ∀ char ∈ (andOthers others).head?, char = ' ' := by
  cases others with
  | none => simp [andOthers]
  | some rest => simp [andOthers]

theorem and_others_end (others : Option Text) :
    endsSurname (andOthers others) = true ∧ wordHere? endsSurname (andOthers others) = none := by
  cases others with
  | none => exact ⟨rfl, rfl⟩
  | some rest =>
      refine ⟨?_, word_here_blank (by decide) _⟩
      change endsSurname (' ' :: ("and".toList ++ ' ' :: rest)) = true
      rw [ends_surname_blank (by decide)]
      exact (ends_surname_letters (by simp) (List.all_eq_true.1 (by decide)) (by simp)).2
        ⟨by decide, by simp⟩

theorem wording_letters {word : Text} (letters : ∀ char ∈ word, char.isAlpha = true) :
    wording word = lower word := by
  have whole : word.filter isWord = word :=
    List.filter_eq_self.2 fun char member => (letter_class (letters char member)).2.1
  rw [wording, whole]

section Names

variable {surname given : Text} (others : Option Text)

theorem solid_letters {word : Text} (letters : ∀ char ∈ word, char.isAlpha = true) :
    ∀ char ∈ word, isBlank char = false :=
  fun char member => (letter_class (letters char member)).1

theorem not_ends_before_name (named : NameWord surname) {tail : Text}
    (spaced : ∀ char ∈ tail.head?, char = ' ') :
    endsSurname (' ' :: (surname ++ tail)) = false := by
  apply Bool.eq_false_iff.2
  rw [ends_surname_blank (by decide)]
  intro ends
  exact named.apart ((ends_surname_letters named.nonempty named.letters spaced).1 ends).1

theorem surname_in_front (surnamed : NameWord surname) (named : NameWord given) :
    surname? (surname ++ ", ".toList ++ given ++ andOthers others) = some surname := by
  have behind : wordHere? endsSurname (", ".toList ++ given ++ andOthers others) = none := by
    change wordHere? endsSurname (',' :: ' ' :: (given ++ andOthers others)) = none
    rw [word_here_solid (by decide), word_here_blank (by decide),
      not_ends_before_name named (and_others_spaced others)]
    rfl
  have comma : endsSurname (", ".toList ++ given ++ andOthers others) = true :=
    (ends_surname_iff _).2 (.inr (.inl rfl))
  have whole := word_here_whole (solid_letters surnamed.letters) surnamed.nonempty behind comma
  rw [surname_eq]
  apply first_word_of_here
  simpa using whole

theorem no_word_at_given {word : Text} (letters : ∀ char ∈ word, char.isAlpha = true)
    (uncut : ∀ joiner ∈ joiners, joiner <:+ word → joiner = word) (surnamed : NameWord surname) :
    wordHere? endsSurname (word ++ ' ' :: (surname ++ andOthers others)) = none := by
  apply word_here_none (solid_letters letters) (word_here_blank (by decide) _)
  intro back suffix proper
  cases back with
  | nil => exact not_ends_before_name surnamed (and_others_spaced others)
  | cons char rest =>
      apply Bool.eq_false_iff.2
      intro ends
      have backLetters : ∀ other ∈ char :: rest, other.isAlpha = true :=
        fun other member => letters other (suffix.subset member)
      have joins := (ends_surname_letters (List.cons_ne_nil _ _) backLetters (by simp)).1 ends
      exact proper (uncut _ joins.1 suffix)

theorem surname_behind (surnamed : NameWord surname) (named : NameWord given)
    (uncut : ∀ joiner ∈ joiners, ¬ joiner <:+ given) :
    surname? (given ++ ' ' :: (surname ++ andOthers others)) = some surname := by
  obtain ⟨ends, apart⟩ := and_others_end others
  rw [surname_eq, first_word_passes, first_word_blank (by decide)]
  · exact first_word_of_here
      (word_here_whole (solid_letters surnamed.letters) surnamed.nonempty apart ends)
  · intro back suffix
    apply no_word_at_given others (fun char member => named.letters char (suffix.subset member))
      _ surnamed
    intro joiner joins ending
    exact absurd (ending.trans suffix) (uncut joiner joins)

theorem surname_cut (surnamed : NameWord surname) {front joiner : Text} (joins : joiner ∈ joiners)
    (named : NameWord (front ++ joiner)) :
    surname? (front ++ joiner ++ ' ' :: (surname ++ andOthers others)) = some front := by
  have nonempty : front ≠ [] := by
    rintro rfl
    exact named.apart joins
  have letters : ∀ char ∈ joiner, char.isAlpha = true := fun char member =>
    named.letters char (List.mem_append_right _ member)
  have solid := solid_letters fun char member => named.letters char (List.mem_append_left _ member)
  have single : ∀ other ∈ joiners, other <:+ joiner → other = joiner := by
    have checked : ∀ word ∈ joiners, ∀ other ∈ joiners, other <:+ word → other = word := by decide
    exact checked joiner joins
  have ends : endsSurname (joiner ++ ' ' :: (surname ++ andOthers others)) = true := by
    have whole : joiner ≠ [] := by
      rintro rfl
      exact absurd joins (by decide)
    exact (ends_surname_letters whole letters (by simp)).2 ⟨joins, by simp⟩
  rw [surname_eq, List.append_assoc]
  exact first_word_of_here
    (word_here_whole solid nonempty (no_word_at_given others letters single surnamed) ends)

end Names

/-- The surname in front is found with any given name. Behind the given name it is found just
if the given name does not end in a joining word, or what stands before that is the same
name again; otherwise the front of the given name is taken for the surname. -/
theorem surname_either_spelling {surname given : Text} (surnamed : NameWord surname)
    (named : NameWord given) (others : Option Text) :
    firstSurname (surname ++ ", ".toList ++ given ++ andOthers others) = lower surname ∧
      (∀ front, ∀ joiner ∈ joiners, given = front ++ joiner →
        firstSurname (given ++ " ".toList ++ surname ++ andOthers others) = lower front) ∧
      (firstSurname (given ++ " ".toList ++ surname ++ andOthers others) = lower surname ↔
        ∀ front, ∀ joiner ∈ joiners, given = front ++ joiner → lower front = lower surname) := by
  have spelled : given ++ " ".toList ++ surname ++ andOthers others =
      given ++ ' ' :: (surname ++ andOthers others) := by
    simp
  have cut : ∀ front, ∀ joiner ∈ joiners, given = front ++ joiner →
      firstSurname (given ++ " ".toList ++ surname ++ andOthers others) = lower front := by
    rintro front joiner joins rfl
    rw [spelled, firstSurname, surname_cut others surnamed joins named]
    exact wording_letters fun char member => named.letters char (List.mem_append_left _ member)
  refine ⟨?_, cut, ?_⟩
  · rw [firstSurname, surname_in_front others surnamed named]
    exact wording_letters surnamed.letters
  · constructor
    · intro same front joiner joins parts
      rw [← cut front joiner joins parts]
      exact same
    · intro kept
      by_cases ends : ∃ joiner ∈ joiners, joiner <:+ given
      · obtain ⟨joiner, joins, front, parts⟩ := ends
        rw [cut front joiner joins parts.symm]
        exact kept front joiner joins parts.symm
      · have uncut : ∀ joiner ∈ joiners, ¬ joiner <:+ given :=
          fun joiner joins ending => ends ⟨joiner, joins, ending⟩
        rw [spelled, firstSurname, surname_behind others surnamed named uncut]
        exact wording_letters surnamed.letters

/-- "Jones, Bridget" is found under her surname, "Bridget Jones" is not. -/
theorem bridget_jones_cut :
    let surname := "Jones".toList
    let given := "Bridget".toList
    let others := some "Ann Lee".toList
    NameWord surname ∧ NameWord given ∧
      firstSurname "Jones, Bridget and Ann Lee".toList = "jones".toList ∧
      firstSurname "Bridget Jones and Ann Lee".toList = "bridg".toList ∧
      (firstSurname (given ++ " ".toList ++ surname ++ andOthers others) = lower surname ↔
        ∀ front, ∀ joiner ∈ joiners, given = front ++ joiner → lower front = lower surname) := by
  intro surname given others
  have surnamed : NameWord surname := ⟨by decide, List.all_eq_true.1 (by decide), by decide⟩
  have named : NameWord given := ⟨by decide, List.all_eq_true.1 (by decide), by decide⟩
  obtain ⟨front, cut, spelled⟩ := surname_either_spelling surnamed named others
  have first : lower surname = "jones".toList := by decide +kernel
  have short : lower "Bridg".toList = "bridg".toList := by decide +kernel
  refine ⟨surnamed, named, ?_, ?_, spelled⟩
  · rw [← first]
    exact front
  · rw [← short]
    exact cut "Bridg".toList "et".toList (by decide) (by decide)

end Bibliography
