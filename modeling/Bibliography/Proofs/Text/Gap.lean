import Bibliography.Text.Class
import Mathlib.Data.List.TakeWhile

/-!
Gaps, which are texts of blanks only, and texts that start or end solid, that is
without a blank. Skipping passes over exactly one gap, trimming over one at each
end.
-/

namespace Bibliography.Text

/-- Blanks only, possibly none. -/
def IsGap (text : Text) : Prop := ∀ char ∈ text, isBlank char = true

def StartsSolid (text : Text) : Prop := ∀ char ∈ text.head?, isBlank char = false

def EndsSolid (text : Text) : Prop := ∀ char ∈ text.getLast?, isBlank char = false

theorem is_gap_nil : IsGap [] := by
  intro char member
  simp at member

theorem is_gap_append {left right : Text} (first : IsGap left) (second : IsGap right) :
    IsGap (left ++ right) := by
  intro char member
  rcases List.mem_append.1 member with inLeft | inRight
  · exact first char inLeft
  · exact second char inRight

theorem is_gap_cons {char : Char} {rest : Text} :
    IsGap (char :: rest) ↔ isBlank char = true ∧ IsGap rest := by
  simp [IsGap]

/-- A class is read to its end: all of the body, none of what follows. -/
theorem take_while_exact {holds : Char → Bool} {body rest : Text}
    (inside : ∀ char ∈ body, holds char = true)
    (outside : ∀ char ∈ rest.head?, holds char = false) :
    (body ++ rest).takeWhile holds = body := by
  rw [List.takeWhile_append_of_pos inside]
  cases rest with
  | nil => simp
  | cons char others => simp [outside char (by simp)]

theorem drop_while_exact {holds : Char → Bool} {body rest : Text}
    (inside : ∀ char ∈ body, holds char = true)
    (outside : ∀ char ∈ rest.head?, holds char = false) :
    (body ++ rest).dropWhile holds = rest := by
  rw [List.dropWhile_append_of_pos inside]
  cases rest with
  | nil => rfl
  | cons char others => simp [outside char (by simp)]

theorem skip_blank_gap {gap : Text} (blanks : IsGap gap) (rest : Text) :
    skipBlank (gap ++ rest) = skipBlank rest :=
  List.dropWhile_append_of_pos blanks

theorem skip_blank_cons {char : Char} (blank : isBlank char = true) (rest : Text) :
    skipBlank (char :: rest) = skipBlank rest :=
  List.dropWhile_cons_of_pos blank

theorem skip_blank_whole {gap : Text} (blanks : IsGap gap) : skipBlank gap = [] := by
  have skipped := skip_blank_gap blanks []
  rw [List.append_nil] at skipped
  exact skipped

theorem skip_blank_solid {text : Text} (solid : StartsSolid text) : skipBlank text = text := by
  cases text with
  | nil => rfl
  | cons char rest => simp [skipBlank, solid char (by simp)]

theorem skip_blank_gap_solid {gap rest : Text} (blanks : IsGap gap) (solid : StartsSolid rest) :
    skipBlank (gap ++ rest) = rest := by
  rw [skip_blank_gap blanks, skip_blank_solid solid]

theorem skip_blank_split (text : Text) : ∃ gap, IsGap gap ∧ text = gap ++ skipBlank text := by
  refine ⟨text.takeWhile isBlank, ?_, List.takeWhile_append_dropWhile.symm⟩
  intro char member
  exact List.mem_takeWhile_imp member

theorem starts_solid_skip_blank (text : Text) : StartsSolid (skipBlank text) := by
  intro char first
  have stopped := List.head?_dropWhile_not isBlank text
  rw [← skipBlank, first] at stopped
  exact stopped

theorem starts_solid_cons {char : Char} (rest : Text) (solid : isBlank char = false) :
    StartsSolid (char :: rest) := by
  intro first member
  simp only [List.head?_cons, Option.mem_def, Option.some.injEq] at member
  exact member ▸ solid

theorem gap_eq_nil {gap rest : Text} (blanks : IsGap gap) (solid : StartsSolid (gap ++ rest)) :
    gap = [] := by
  cases gap with
  | nil => rfl
  | cons char others =>
      have blank := blanks char (by simp)
      have notBlank := solid char (by simp)
      exact absurd blank (by simp [notBlank])

theorem ends_solid_append (front : Text) {back : Text} (solid : EndsSolid back)
    (nonempty : back ≠ []) : EndsSolid (front ++ back) := by
  intro char last
  apply solid char
  cases tail : back.getLast? with
  | none => exact absurd (List.getLast?_eq_none_iff.1 tail) nonempty
  | some final =>
      rw [List.getLast?_append, tail] at last
      exact last

theorem ends_solid_of_append (front : Text) {back : Text} (solid : EndsSolid (front ++ back)) :
    EndsSolid back := by
  intro char last
  apply solid char
  rw [List.getLast?_append, Option.mem_def.1 last]
  rfl

theorem ends_solid_singleton {char : Char} (solid : isBlank char = false) : EndsSolid [char] := by
  intro last member
  simp only [List.getLast?_singleton, Option.mem_def, Option.some.injEq] at member
  exact member ▸ solid

theorem trim_right_solid {text : Text} (solid : EndsSolid text) : trimRight text = text := by
  have turned : skipBlank text.reverse = text.reverse := by
    apply skip_blank_solid
    intro char first
    rw [List.head?_reverse] at first
    exact solid char first
  rw [trimRight, ← skipBlank, turned, List.reverse_reverse]

theorem ends_solid_trim_right (text : Text) : EndsSolid (trimRight text) := by
  intro char last
  rw [trimRight, List.getLast?_reverse] at last
  exact starts_solid_skip_blank text.reverse char last

theorem trim_right_split (text : Text) : ∃ gap, IsGap gap ∧ text = trimRight text ++ gap := by
  obtain ⟨gap, blanks, parts⟩ := skip_blank_split text.reverse
  refine ⟨gap.reverse, ?_, ?_⟩
  · intro char member
    exact blanks char (List.mem_reverse.1 member)
  · rw [trimRight, ← skipBlank, ← List.reverse_append, ← parts, List.reverse_reverse]

theorem ends_solid_trim (text : Text) : EndsSolid (trim text) := ends_solid_trim_right _

theorem starts_solid_trim (text : Text) : StartsSolid (trim text) := by
  intro char first
  obtain ⟨gap, _, parts⟩ := trim_right_split (skipBlank text)
  have same : (skipBlank text).head? = some char := by
    rw [parts, List.head?_append]
    rw [show (trimRight (skipBlank text)).head? = some char from first]
    rfl
  exact starts_solid_skip_blank text char same

theorem trim_solid {text : Text} (starts : StartsSolid text) (ends : EndsSolid text) :
    trim text = text := by
  rw [trim, skip_blank_solid starts, trim_right_solid ends]

theorem trim_split (text : Text) :
    ∃ lead gap, IsGap lead ∧ IsGap gap ∧ text = lead ++ trim text ++ gap := by
  obtain ⟨lead, leadBlanks, front⟩ := skip_blank_split text
  obtain ⟨gap, gapBlanks, back⟩ := trim_right_split (skipBlank text)
  refine ⟨lead, gap, leadBlanks, gapBlanks, ?_⟩
  rw [List.append_assoc, trim, ← back]
  exact front

/-- A gap before a solid start is passed over, one after a solid end is cut off. -/
theorem trim_gaps {lead text gap : Text} (leadBlanks : IsGap lead) (gapBlanks : IsGap gap)
    (starts : StartsSolid text) (ends : EndsSolid text) : trim (lead ++ text ++ gap) = text := by
  have turned : (text ++ gap).reverse.dropWhile isBlank = text.reverse := by
    rw [List.reverse_append]
    apply skip_blank_gap_solid
    · intro char member
      exact gapBlanks char (List.mem_reverse.1 member)
    · intro char first
      rw [List.head?_reverse] at first
      exact ends char first
  cases text with
  | nil =>
      have blank : IsGap (lead ++ gap) := is_gap_append leadBlanks gapBlanks
      rw [List.append_nil, trim, skip_blank_whole blank]
      rfl
  | cons char rest =>
      have solid : StartsSolid (char :: rest ++ gap) :=
        starts_solid_cons _ (starts char (by simp))
      rw [trim, List.append_assoc, skip_blank_gap_solid leadBlanks solid, trimRight, turned,
        List.reverse_reverse]

end Bibliography.Text
