import Bibliography.Proofs.Latex.Walk

/-!
Brace depth of a spelled text. A spelling closes what it opens, so a balanced text stays
balanced. A quote of a spelling stands one level deeper than the character that it is
spelled for, so a quotable text stays quotable unless more braces have been closed than
opened before such a character.
-/

namespace Bibliography.Latex

open Text

/-- What is spelled for the character, with the mark behind it if there is one. -/
def spelledAt (char : Char) (rest : Text) : Text :=
  ((rest.head?.bind (spellPair? marks char))).getD (spellBy symbols char)

/-- Where a quote is spelled for some other character, no more braces have been closed
than opened. -/
def QuotesInside (level : Int) (text : Text) : Prop :=
  ∀ front char rest, text = front ++ char :: rest → char ≠ '"' → '"' ∈ spelledAt char rest →
    0 ≤ level + depth front

theorem quotes_inside_nil (level : Int) : QuotesInside level [] := by
  intro front char rest parts
  simp at parts

theorem quotes_inside_cons (level : Int) (char : Char) (rest : Text) :
    QuotesInside level (char :: rest) ↔
      (char ≠ '"' → '"' ∈ spelledAt char rest → 0 ≤ level) ∧
        QuotesInside (level + turn char) rest := by
  constructor
  · intro inside
    refine ⟨fun other quote => by simpa using inside [] char rest rfl other quote, ?_⟩
    intro front other back parts different quote
    have bound := inside (char :: front) other back (by rw [parts]; rfl) different quote
    rw [depth_cons] at bound
    omega
  · intro found front other back parts different quote
    rcases found with ⟨first, inside⟩
    cases front with
    | nil =>
        rcases List.cons.inj parts with ⟨rfl, rfl⟩
        simpa using first different quote
    | cons head others =>
        rcases List.cons.inj parts with ⟨rfl, tail⟩
        have bound := inside others other back tail different quote
        rw [depth_cons]
        omega

theorem spelled_at_alone {char : Char} {rest : Text}
    (missing : ∀ following ∈ rest.head?, spellPair? marks char following = none) :
    spelledAt char rest = spellBy symbols char := by
  unfold spelledAt
  rw [Option.bind_eq_none_iff.2 missing]
  rfl

theorem spelled_at_pair {letter mark : Char} {spelled : Text}
    (found : spellPair? marks letter mark = some spelled) (rest : Text) :
    spelledAt letter (mark :: rest) = spelled := by
  simp [spelledAt, found]

theorem spelled_at_mark {letter mark : Char} {spelled : Text}
    (found : spellPair? marks letter mark = some spelled) (rest : Text) :
    spelledAt mark rest = [mark] := by
  have checked : (marks.all fun mark => spellBy symbols mark.char == [mark.char]) = true := by
    decide +kernel
  rcases row_of_spell_pair found with ⟨_, row, known, rfl, _⟩
  have own := List.all_eq_true.1 checked row known
  rw [beq_iff_eq] at own
  rw [spelled_at_alone, own]
  intro following _
  unfold spellPair?
  rw [not_alpha_of_far (marks_far row known).1]
  rfl

theorem quotes_inside_spells {rest unit spelled : Text} (spells : Spells rest unit spelled)
    (level : Int) :
    QuotesInside level (unit ++ rest) ↔
      ('"' ∈ spelled → 0 ≤ level) ∧ QuotesInside level rest := by
  cases spells with
  | @pair letter mark _ found =>
      have pair := spell_pair_spelled found
      have straight := turn_of_no_fence (Source.not_fence_of_bare pair.letterBare)
      have markStraight := turn_of_no_fence (Source.not_fence_of_bare pair.nextBare)
      have different : letter ≠ '"' := by
        intro same
        subst same
        exact absurd pair.letterBare (by decide)
      have vacuous : mark ≠ '"' → '"' ∈ [mark] → 0 ≤ level := fun other quote =>
        absurd (List.mem_singleton.1 quote).symm other
      rw [List.cons_append, List.singleton_append, quotes_inside_cons, quotes_inside_cons,
        spelled_at_pair found, spelled_at_mark found, straight, markStraight, Int.add_zero,
        Int.add_zero, and_iff_right vacuous]
      simp [different]
  | @single char missing far =>
      have plain := (Source.Spot.quiet_of_far far char (by simp)).1
      have different : char ≠ '"' := by
        intro same
        subst same
        exact absurd far (by decide)
      rw [List.singleton_append, quotes_inside_cons, spelled_at_alone missing,
        turn_of_no_fence plain, Int.add_zero]
      simp [different]

theorem plain_balanced {text : Text} (plain : ∀ char ∈ text, isFence char = false) :
    Balanced text := by
  have same : fences [] = fences text := (fences_eq_nil plain).symm
  apply balanced_of_same_fences same
  rw [balanced_iff_from, balanced_from_nil]

theorem plain_of_bare {text : Text} (bare : ∀ char ∈ text, Source.isBareChar char = true) :
    ∀ char ∈ text, isFence char = false := fun char member =>
  Source.not_fence_of_bare (bare char member)

theorem spelling_balanced {text : Text} (spelling : Spelling text) : Balanced text := by
  rcases spelling.shape with bare | group
  · exact plain_balanced (plain_of_bare bare)
  · rcases group_text_balanced group with ⟨body, rfl, balanced⟩
    exact balanced_group balanced

theorem spells_balanced {rest unit spelled : Text} (spells : Spells rest unit spelled) :
    Balanced unit ∧ Balanced spelled :=
  ⟨plain_balanced fun char member => (Source.Spot.quiet_of_spells spells char member).1,
    spelling_balanced (spelling_of_spells spells)⟩

theorem depth_spell_out (text : Text) : depth (spellOut text) = depth text := by
  induction text using spell_out_induct with
  | empty => rfl
  | own char rest missing same induction =>
      rw [spell_out_own missing same, depth_cons, depth_cons, induction]
  | replaced spells induction =>
      rcases spells_balanced spells with ⟨unit, spelled⟩
      rw [spell_out_spells spells, depth_append, depth_append, unit.1, spelled.1, induction]

theorem lowest_spell_out (text : Text) : lowest (spellOut text) = lowest text := by
  induction text using spell_out_induct with
  | empty => rfl
  | own char rest missing same induction =>
      rw [spell_out_own missing same, lowest_cons, lowest_cons, induction]
  | replaced spells induction =>
      rcases spells_balanced spells with ⟨unit, spelled⟩
      rw [spell_out_spells spells, lowest_append, lowest_append, unit.1, spelled.1,
        lowest_of_balanced unit, lowest_of_balanced spelled, induction]

theorem balanced_from_spell_out {level : Int} {text : Text} (balanced : BalancedFrom level text) :
    BalancedFrom level (spellOut text) := by
  rw [balanced_from_iff_lowest] at balanced ⊢
  rw [depth_spell_out, lowest_spell_out]
  exact balanced

theorem enclosed_from_spelling {spelled : Text} (spelling : Spelling spelled) (level : Int) :
    EnclosedFrom level spelled ↔ ('"' ∈ spelled → 0 ≤ level) := by
  by_cases quote : '"' ∈ spelled
  · rcases spelling.shape with bare | group
    · exact absurd (bare '"' quote) (by decide)
    · cases group with
      | @plain body _ noQuote => simp [noQuote] at quote
      | @quoted next more balanced bare noQuote =>
          have inner : '"' ∉ next :: more ++ ['}'] := by
            simpa using noQuote
          have raised : 0 < level + turn '{' + turn '\\' ↔ 0 ≤ level := by
            rw [turn_open, show turn '\\' = 0 from rfl]
            omega
          rw [enclosed_from_cons, enclosed_from_cons, enclosed_from_cons, raised,
            and_iff_left (enclosed_of_no_quote _ inner)]
          simp
  · simp [enclosed_of_no_quote level quote, quote]

/-- The quotes of a spelled text are enclosed exactly if those of the text are, and those
that are spelled for other characters stand inside. -/
theorem enclosed_from_spell_out (level : Int) (text : Text) :
    EnclosedFrom level (spellOut text) ↔ EnclosedFrom level text ∧ QuotesInside level text := by
  induction text using spell_out_induct generalizing level with
  | empty => exact (and_iff_left (quotes_inside_nil level)).symm
  | own char rest missing same induction =>
      have vacuous : char ≠ '"' → '"' ∈ spelledAt char rest → 0 ≤ level := by
        intro different quote
        rw [spelled_at_alone missing, same, List.mem_singleton] at quote
        exact absurd quote.symm different
      rw [spell_out_own missing same, enclosed_from_cons, enclosed_from_cons, induction,
        quotes_inside_cons, and_iff_right vacuous, and_assoc]
  | @replaced unit spelled rest spells induction =>
      have noQuote : '"' ∉ unit := fun member =>
        absurd (Source.Spot.quiet_of_spells spells '"' member).1 (by decide)
      rcases spells_balanced spells with ⟨unitBalanced, spelledBalanced⟩
      rw [spell_out_spells spells, enclosed_from_append, enclosed_from_append,
        enclosed_from_spelling (spelling_of_spells spells), unitBalanced.1, spelledBalanced.1,
        Int.add_zero, induction, quotes_inside_spells spells,
        and_iff_right (enclosed_of_no_quote level noQuote)]
      exact and_left_comm

theorem quotable_from_spell_out (level : Int) (text : Text) :
    QuotableFrom level (spellOut text) ↔ QuotableFrom level text ∧ QuotesInside level text := by
  rw [quotable_from_iff_enclosed, quotable_from_iff_enclosed, depth_spell_out,
    enclosed_from_spell_out, and_assoc]

/-- Escaping keeps the depth at the end and the lowest depth on the way. Where no front leads
below the ground and every quote stands inside braces, the quotes of the escaped text do so
too, also those that are spelled for other characters. -/
theorem escape_keeps_depth (text : Text) :
    depth (escape text) = depth text ∧ lowest (escape text) = lowest text ∧
      (EnclosedFrom 0 text → 0 ≤ lowest text → EnclosedFrom 0 (escape text)) := by
  rw [escape_eq_spell_out]
  refine ⟨depth_spell_out text, lowest_spell_out text, ?_⟩
  intro quotes above
  have inside : QuotesInside 0 text := by
    rintro front char back rfl _ _
    have bound := lowest_le (List.prefix_append front (char :: back))
    omega
  exact (enclosed_from_spell_out 0 text).2 ⟨quotes, inside⟩

def quotedUmlauts : Text := "ü\x7b\"\x7dö\x7b\x7bä".toList

theorem quoted_umlauts_enclosed :
    depth (escape quotedUmlauts) = 2 ∧ EnclosedFrom 0 quotedUmlauts ∧ 0 ≤ lowest quotedUmlauts ∧
      EnclosedFrom 0 (escape quotedUmlauts) ∧ (escape quotedUmlauts).count '"' = 4 := by
  have kept := escape_keeps_depth quotedUmlauts
  have quotes : EnclosedFrom 0 quotedUmlauts := by decide +kernel
  have above : 0 ≤ lowest quotedUmlauts := by decide +kernel
  refine ⟨?_, quotes, above, kept.2.2 quotes above, ?_⟩
  · rw [kept.1]
    decide +kernel
  · rw [escape_eq_spell_out]
    decide +kernel

end Bibliography.Latex
