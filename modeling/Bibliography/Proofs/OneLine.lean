import Bibliography.Proofs.Layout

/-!
How a text looks once its lines are joined. Blanks at its ends are dropped, blanks with a line
feed among them become one space, and everything else stays: words without blanks, the
characters of any class that has no blanks in it, and the place where each of them stands.
-/

namespace Bibliography

open Text

namespace Text

theorem gap_cases (text : Text) :
    IsGap text ∨
      ∃ gap char rest, IsGap gap ∧ isBlank char = false ∧ text = gap ++ char :: rest := by
  obtain ⟨gap, blanks, parts⟩ := skip_blank_split text
  have solid := starts_solid_skip_blank text
  cases same : skipBlank text with
  | nil =>
      rw [same, List.append_nil] at parts
      exact .inl (parts ▸ blanks)
  | cons char rest =>
      rw [same] at parts solid
      exact .inr ⟨gap, char, rest, blanks, solid char rfl, parts⟩

theorem trim_right_gap {gap : Text} (blanks : IsGap gap) : trimRight gap = [] := by
  have turned : IsGap gap.reverse := fun char member => blanks char (List.mem_reverse.1 member)
  rw [trimRight, ← skipBlank, skip_blank_whole turned]
  rfl

theorem trim_right_cons {char : Char} (solid : isBlank char = false) (rest : Text) :
    trimRight (char :: rest) = char :: trimRight rest := by
  unfold trimRight
  rw [List.reverse_cons, List.dropWhile_append]
  split
  · next empty =>
      rw [List.isEmpty_iff.1 empty]
      simp [solid]
  · rw [List.reverse_append]
    rfl

theorem trim_right_append (front : Text) {back : Text} (more : trimRight back ≠ []) :
    trimRight (front ++ back) = front ++ trimRight back := by
  have kept : (back.reverse.dropWhile isBlank).isEmpty = false := by
    rw [List.isEmpty_eq_false_iff]
    intro empty
    rw [trimRight, empty] at more
    exact more rfl
  unfold trimRight
  rw [List.reverse_append, List.dropWhile_append, kept, if_neg (by decide), List.reverse_append,
    List.reverse_reverse]

theorem skip_blank_trim_right (text : Text) :
    skipBlank (trimRight text) = trimRight (skipBlank text) := by
  obtain ⟨gap, blanks, parts⟩ := skip_blank_split text
  generalize same : skipBlank text = rest at parts
  have solid : StartsSolid rest := same ▸ starts_solid_skip_blank text
  rw [parts]
  cases rest with
  | nil =>
      rw [List.append_nil, trim_right_gap blanks]
      rfl
  | cons char others =>
      have first := solid char rfl
      have whole := trim_right_cons first others
      rw [trim_right_append gap (by rw [whole]; exact List.cons_ne_nil _ _), whole]
      exact skip_blank_gap_solid blanks (starts_solid_cons _ first)

end Text

namespace Layout

/-- The value on one line, with the blanks that it starts with. -/
def onLine (text : Text) : Text := trimRight (joinLinesAfter [] text)

theorem join_lines_eq (text : Text) : joinLines text = skipBlank (onLine text) :=
  (skip_blank_trim_right _).symm

theorem join_lines_after_gap {gap rest : Text} (blanks : IsGap gap) (run : Text) :
    joinLinesAfter run (gap ++ rest) = joinLinesAfter (run ++ gap) rest := by
  induction gap generalizing run with
  | nil => rw [List.append_nil, List.nil_append]
  | cons char others induction =>
      obtain ⟨first, more⟩ := is_gap_cons.1 blanks
      rw [List.cons_append, joinLinesAfter, if_pos first, induction more, List.append_assoc]
      rfl

theorem join_lines_after_solid {char : Char} (solid : isBlank char = false) (run rest : Text) :
    joinLinesAfter run (char :: rest) = joinRun run ++ char :: joinLinesAfter [] rest := by
  rw [joinLinesAfter, if_neg (Bool.eq_false_iff.1 solid)]

theorem on_line_solid {char : Char} (solid : isBlank char = false) (rest : Text) :
    onLine (char :: rest) = char :: onLine rest := by
  rw [onLine, join_lines_after_solid solid]
  exact trim_right_cons solid _

/-- Blanks before more text become one run, blanks at the end are dropped. -/
theorem on_line_gap {gap : Text} (blanks : IsGap gap) : onLine gap = [] := by
  have joined : joinLinesAfter [] (gap ++ []) = joinLinesAfter ([] ++ gap) [] :=
    join_lines_after_gap blanks []
  rw [List.append_nil, List.nil_append] at joined
  rw [onLine, joined]
  exact trim_right_gap (join_run_gap blanks)

theorem on_line_gap_solid {gap rest : Text} {char : Char} (blanks : IsGap gap)
    (solid : isBlank char = false) :
    onLine (gap ++ char :: rest) = joinRun gap ++ onLine (char :: rest) := by
  have whole := trim_right_cons solid (joinLinesAfter [] rest)
  rw [onLine, join_lines_after_gap blanks, List.nil_append, join_lines_after_solid solid,
    trim_right_append _ (by rw [whole]; exact List.cons_ne_nil _ _), whole,
    on_line_solid solid]
  rfl

theorem starts_blank_on_line {char : Char} (blank : isBlank char = true) (rest : Text) :
    ∀ first ∈ (onLine (char :: rest)).head?, isBlank first = true := by
  rcases gap_cases (char :: rest) with blanks | ⟨gap, next, others, blanks, solid, parts⟩
  · rw [on_line_gap blanks]
    simp
  · rw [parts, on_line_gap_solid blanks solid]
    cases gap with
    | nil =>
        rw [(List.cons.inj parts).1, solid] at blank
        exact absurd blank (by decide)
    | cons first more =>
        have joined := join_run_gap blanks
        cases same : joinRun (first :: more) with
        | nil =>
            unfold joinRun at same
            split at same <;> simp at same
        | cons start run =>
            rw [same] at joined
            intro other member
            rw [← Option.some.inj member]
            exact joined start List.mem_cons_self

theorem skip_blank_on_line (text : Text) : skipBlank (onLine text) = onLine (skipBlank text) := by
  rcases gap_cases text with blanks | ⟨gap, char, rest, blanks, solid, rfl⟩
  · rw [on_line_gap blanks, skip_blank_whole blanks]
    rfl
  · rw [on_line_gap_solid blanks solid, skip_blank_gap_solid blanks (starts_solid_cons _ solid)]
    apply skip_blank_gap_solid (join_run_gap blanks)
    rw [on_line_solid solid]
    exact starts_solid_cons _ solid

theorem filter_join_lines {keep : Char → Bool}
    (apart : ∀ char, isBlank char = true → keep char = false) (text : Text) :
    (joinLines text).filter keep = text.filter keep := by
  have dropped : ∀ {gap : Text}, IsGap gap → gap.filter keep = [] := by
    intro gap blanks
    apply List.filter_eq_nil_iff.2
    intro char member
    exact Bool.eq_false_iff.1 (apart char (blanks char member))
  have after : ∀ (text : Text) {run : Text}, IsGap run →
      (joinLinesAfter run text).filter keep = text.filter keep := by
    intro text
    induction text with
    | nil => exact fun blanks => dropped (join_run_gap blanks)
    | cons char rest induction =>
        intro run blanks
        by_cases blank : isBlank char = true
        · have single : IsGap [char] := is_gap_cons.2 ⟨blank, is_gap_nil⟩
          rw [joinLinesAfter, if_pos blank, induction (is_gap_append blanks single),
            List.filter_cons_of_neg (Bool.eq_false_iff.1 (apart char blank))]
        · rw [join_lines_after_solid (Bool.eq_false_iff.2 blank), List.filter_append,
            dropped (join_run_gap blanks), List.nil_append, List.filter_cons, List.filter_cons,
            induction is_gap_nil]
  obtain ⟨lead, gap, leadBlanks, gapBlanks, parts⟩ := trim_split (joinLinesAfter [] text)
  have whole := after text is_gap_nil
  rw [parts, List.filter_append, List.filter_append, dropped leadBlanks, dropped gapBlanks,
    List.nil_append, List.append_nil] at whole
  exact whole

theorem on_line_word {word : Text} (solid : ∀ char ∈ word, isBlank char = false) (behind : Text) :
    onLine (word ++ behind) = word ++ onLine behind := by
  induction word with
  | nil => rfl
  | cons char rest induction =>
      obtain ⟨first, others⟩ := List.forall_mem_cons.1 solid
      rw [List.cons_append, on_line_solid first, induction others, List.cons_append]

theorem word_on_line_iff {word : Text} (solid : ∀ char ∈ word, isBlank char = false)
    (text : Text) : word <+: onLine text ↔ word <+: text := by
  induction word generalizing text with
  | nil => simp
  | cons char rest induction =>
      obtain ⟨first, others⟩ := List.forall_mem_cons.1 solid
      cases text with
      | nil => rfl
      | cons next behind =>
          by_cases blank : isBlank next = true
          · have apart : ∀ other, isBlank other = true → char ≠ other := by
              rintro other filled rfl
              rw [first] at filled
              exact absurd filled (by decide)
            have gap := starts_blank_on_line blank behind
            constructor
            · intro starts
              obtain ⟨tail, parts⟩ := starts
              exact absurd rfl (apart char (gap char (by rw [← parts]; rfl)))
            · intro starts
              exact absurd (List.cons_prefix_cons.1 starts).1 (apart next blank)
          · rw [on_line_solid (Bool.eq_false_iff.2 blank), List.cons_prefix_cons,
              List.cons_prefix_cons, induction others]

end Layout

end Bibliography
