import Bibliography.Proofs.Latex.Walk

/-!
Page ranges in a spelled text. Spellings hold no digit and no blank, so a range of the
spelled text is one of the text itself, with a hyphen of any kind. Widening it in the
spelled text is spelling out a text in which it has been widened.
-/

namespace Bibliography.Latex

open Text Layout

theorem not_alpha_of_digit {char : Char} (digit : isDigit char = true) : char.isAlpha = false := by
  apply Bool.eq_false_iff.2
  intro alpha
  have checked := ascii_all (fun char => !char.isAlpha || !isDigit char) (by decide)
    (small_of_alpha alpha)
  simp [alpha, digit] at checked

theorem spell_by_digit {char : Char} (digit : isDigit char = true) :
    spellBy symbols char = [char] := by
  have checked : (symbols.all fun row => !isDigit row.1) = true := by
    decide +kernel
  rcases spell_by_row symbols char with own | ⟨row, known, rfl, _⟩
  · exact own
  · have passed := List.all_eq_true.1 checked row known
    rw [digit] at passed
    simp at passed

theorem spell_out_digit {char : Char} (digit : isDigit char = true) (rest : Text) :
    spellOut (char :: rest) = char :: spellOut rest := by
  unfold spellOut
  rw [scan_cons_other (not_alpha_of_digit digit), spell_by_digit digit, List.singleton_append]

/-- The first character of a spelled text belongs to a spelling, or is its own. -/
theorem head_of_spell_out {char : Char} {text more : Text}
    (spelled : spellOut text = char :: more) :
    (∃ tail, Spelling (char :: tail)) ∨ ∃ rest, text = char :: rest ∧ spellOut rest = more := by
  induction text using spell_out_induct with
  | empty => simp [spellOut, scan] at spelled
  | own first rest missing same =>
      rw [spell_out_own missing same] at spelled
      rcases List.cons.inj spelled with ⟨rfl, tail⟩
      exact .inr ⟨rest, rfl, tail⟩
  | @replaced unit written rest spells =>
      have spelling := spelling_of_spells spells
      rw [spell_out_spells spells] at spelled
      cases written with
      | nil => exact absurd rfl spelling.nonempty
      | cons head tail =>
          rw [List.cons_append, List.cons.injEq] at spelled
          rcases spelled with ⟨rfl, _⟩
          exact .inl ⟨tail, spelling⟩

theorem own_of_spell_out {char : Char} {text more : Text} (spelled : spellOut text = char :: more)
    (own : isBlank char = true ∨ isDigit char = true) :
    ∃ rest, text = char :: rest ∧ spellOut rest = more := by
  rcases head_of_spell_out spelled with ⟨tail, spelling⟩ | found
  · rcases own with blank | digit
    · rw [spelling.solid char (by simp)] at blank
      simp at blank
    · rw [spelling.noDigit char (by simp)] at digit
      simp at digit
  · exact found

theorem gap_of_spell_out {gap text more : Text} (blanks : IsGap gap)
    (spelled : spellOut text = gap ++ more) :
    ∃ rest, text = gap ++ rest ∧ spellOut rest = more := by
  induction gap generalizing text with
  | nil => exact ⟨text, rfl, spelled⟩
  | cons char others induction =>
      rcases is_gap_cons.1 blanks with ⟨blank, tail⟩
      rcases own_of_spell_out spelled (.inl blank) with ⟨rest, rfl, later⟩
      rcases induction tail later with ⟨behind, rfl, same⟩
      exact ⟨behind, rfl, same⟩

theorem spell_by_hyphen {char : Char} {behind : Text}
    (spelled : spellBy symbols char = '-' :: behind) :
    Source.isBareChar char = true ∧ (behind = [] ∨ behind.head? = some '-') := by
  have checked : (symbols.all fun row => row.2.head? != some '-' ||
      (Source.isBareChar row.1 &&
        (row.2.tail.isEmpty || row.2.tail.head? == some '-'))) = true := by
    decide +kernel
  rcases spell_by_row symbols char with own | ⟨row, known, rfl, same⟩
  · rw [own, List.cons.injEq] at spelled
    rcases spelled with ⟨rfl, rfl⟩
    exact ⟨by decide, .inl rfl⟩
  · have passed := List.all_eq_true.1 checked row known
    rw [← same, spelled] at passed
    simpa using passed

theorem hyphen_of_spell_out {text more : Text} (spelled : spellOut text = '-' :: more)
    (single : more.head? ≠ some '-') :
    ∃ hyphen rest, text = hyphen :: rest ∧ Source.isBareChar hyphen = true ∧
      spellOut rest = more := by
  induction text using spell_out_induct with
  | empty => simp [spellOut, scan] at spelled
  | own first rest missing same =>
      rw [spell_out_own missing same] at spelled
      rcases List.cons.inj spelled with ⟨rfl, tail⟩
      exact ⟨'-', rest, rfl, by decide, tail⟩
  | @replaced unit written rest spells =>
      have spelling := spelling_of_spells spells
      rw [spell_out_spells spells] at spelled
      cases parts : written with
      | nil => exact absurd parts spelling.nonempty
      | cons head behind =>
          rw [parts, List.cons_append, List.cons.injEq] at spelled
          rcases spelled with ⟨rfl, tail⟩
          cases spells with
          | pair found =>
              rcases group_text_balanced (spell_pair_spelled found).group with ⟨body, group, _⟩
              rw [parts] at group
              exact absurd (List.cons.inj group).1 (by decide)
          | @single first =>
              rcases spell_by_hyphen parts with ⟨bare, rfl | double⟩
              · exact ⟨first, rest, rfl, bare, tail⟩
              · rw [← tail, List.head?_append, double] at single
                simp at single

/-- A range of the spelled text is a range of the text, with a hyphen of any kind. -/
theorem range_of_spell_out {text wide : Text} (range : RangeText (spellOut text) wide) :
    ∃ first before hyphen behind last rest,
      text = first :: (before ++ hyphen :: (behind ++ last :: rest)) ∧
      wide = spellOut (first :: '-' :: '-' :: last :: rest) ∧
      isDigit first = true ∧ IsGap before ∧ Source.isBareChar hyphen = true ∧
      IsGap behind ∧ isDigit last = true := by
  generalize spelled : spellOut text = whole at range
  cases range with
  | @mk first last before behind rest starts gapBefore gapBehind ends =>
      rcases own_of_spell_out spelled (.inr starts) with ⟨tail, rfl, tailSpelled⟩
      rcases gap_of_spell_out gapBefore tailSpelled with ⟨dashed, rfl, dashSpelled⟩
      have single : (behind ++ last :: rest).head? ≠ some '-' := by
        cases behind with
        | nil =>
            intro first
            rw [Option.some.inj first] at ends
            exact absurd ends (by decide)
        | cons blank others =>
            intro first
            have isBlank := gapBehind blank (by simp)
            rw [Option.some.inj first] at isBlank
            exact absurd isBlank (by decide)
      rcases hyphen_of_spell_out dashSpelled single with ⟨hyphen, others, rfl, bare, restSpelled⟩
      rcases gap_of_spell_out gapBehind restSpelled with ⟨final, rfl, finalSpelled⟩
      rcases own_of_spell_out finalSpelled (.inr ends) with ⟨more, rfl, moreSpelled⟩
      refine ⟨first, before, hyphen, behind, last, more, rfl, ?_, starts, gapBefore, bare,
        gapBehind, ends⟩
      have dash : ∀ rest, spellOut ('-' :: rest) = '-' :: spellOut rest :=
        spell_out_ascii (by decide) (by decide)
      rw [spell_out_digit starts, dash, dash, spell_out_digit ends, moreSpelled]

theorem page_range_plain_append {front : Text} (plain : ∀ char ∈ front, isDigit char = false)
    (back : Text) : pageRange (front ++ back) = front ++ pageRange back := by
  induction front with
  | nil => rfl
  | cons char rest induction =>
      have noDigit := plain char (by simp)
      rw [List.cons_append, List.cons_append, pageRange, noDigit,
        induction fun other member => plain other (by simp [member])]
      rfl

theorem page_range_spell_out (text : Text) :
    ∃ wider, pageRange (spellOut text) = spellOut wider ∧ Widens text wider := by
  induction text using spell_out_induct with
  | empty => exact ⟨[], rfl, widens_self []⟩
  | own char rest missing same induction =>
      rcases induction with ⟨wider, inner, widens⟩
      have spelled := spell_out_own missing same
      rcases page_range_cons char (spellOut rest) with range | ⟨_, passed⟩
      · rw [← spelled] at range
        rcases range_of_spell_out range with
          ⟨first, before, hyphen, behind, last, more, parts, wide, starts, gapBefore, bare,
            gapBehind, ends⟩
        refine ⟨_, wide, ?_⟩
        rw [parts]
        exact widens_range starts gapBefore bare gapBehind ends
      · refine ⟨char :: wider, ?_, widens_cons char _ _ widens⟩
        rw [spelled, passed, inner, spell_out_own (by rw [widens.head]; exact missing) same]
  | replaced spells induction =>
      rcases induction with ⟨wider, inner, widens⟩
      have spelling := spelling_of_spells spells
      rw [spell_out_spells spells, page_range_plain_append spelling.noDigit, inner]
      rcases spells with found | ⟨missing, far, _⟩
      · exact ⟨_, (spell_out_spells (.pair found)).symm,
          widens_cons _ _ _ (widens_cons _ _ _ widens)⟩
      · have still := spell_out_spells (.single (by rw [widens.head]; exact missing) far spelling)
        exact ⟨_, still.symm, widens_cons _ _ _ widens⟩

end Bibliography.Latex
