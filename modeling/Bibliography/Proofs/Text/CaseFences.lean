import Bibliography.Layout
import Bibliography.Proofs.Text.CaseRanges

/-!
Case mapping leaves braces and quotes where they are: none of them has another case,
and no other character is mapped to one of them. Title case maps case word by word, so
it keeps them as well.
-/

namespace Bibliography.Text

def fenceRanges : List (Nat × Nat) := [(34, 34), (123, 123), (125, 125)]

theorem case_avoids_fences : CaseAvoids fenceRanges where
  ascii := by decide +kernel
  runs := by decide +kernel
  expansions := by decide +kernel
  single := by decide +kernel

theorem fence_code {char : Char} (fence : isFence char = true) :
    inRanges fenceRanges char.toNat = true := by
  simp only [isFence, Bool.or_eq_true, beq_iff_eq] at fence
  rcases fence with (rfl | rfl) | rfl <;> decide

theorem fences_outside {text : Text} (outside : ∀ char ∈ text, Outside fenceRanges char) :
    fences text = [] := by
  apply fences_eq_nil
  intro char member
  apply Bool.eq_false_iff.2
  intro fence
  exact Bool.eq_false_iff.1 (outside char member) (fence_code fence)

theorem far_outside {char : Char} (far : ¬ char.toNat < 128) : Outside fenceRanges char := by
  simp only [Outside, inRanges, fenceRanges, List.any_cons, List.any_nil, Bool.or_false,
    Bool.or_eq_false_iff, Bool.and_eq_false_iff, decide_eq_false_iff_not]
  omega

/-- The images of a character beyond ASCII hold no fence, and neither does the character. -/
theorem fences_far {char : Char} {image : Text} (far : ¬ char.toNat < 128)
    (outside : ∀ char ∈ image, Outside fenceRanges char) : fences image = fences [char] := by
  rw [fences_outside outside, fences_outside]
  intro other member
  exact List.mem_singleton.1 member ▸ far_outside far

theorem fences_lower_char (char : Char) : fences (lowerChar char) = fences [char] := by
  by_cases small : char.toNat < 128
  · rw [lowerChar, if_pos small]
    exact beq_iff_eq.1 (ascii_all (fun char => fences [char.toLower] == fences [char])
      (by decide +kernel) small)
  · exact fences_far small (lower_char_outside case_avoids_fences (far_outside small))

theorem fences_upper_char (char : Char) : fences (upperChar char) = fences [char] := by
  by_cases small : char.toNat < 128
  · rw [upperChar, if_pos small]
    exact beq_iff_eq.1 (ascii_all (fun char => fences [char.toUpper] == fences [char])
      (by decide +kernel) small)
  · exact fences_far small (upper_char_outside case_avoids_fences (far_outside small))

theorem fences_lower_after (afterCased : Bool) (text : Text) :
    fences (lowerAfter afterCased text) = fences text := by
  induction text generalizing afterCased with
  | nil => rfl
  | cons char rest induction =>
      rw [lowerAfter, fences_append, induction, fences_cons char rest]
      congr 1
      split
      · next sigma =>
          subst sigma
          split <;> decide
      · exact fences_lower_char char

theorem fences_lower (text : Text) : fences (lower text) = fences text :=
  fences_lower_after false text

end Bibliography.Text

namespace Bibliography.Layout

open Text

theorem fences_title_case (text : Text) : fences (titleCase text) = fences text := by
  induction text using titleCase.induct with
  | case1 => rw [titleCase]
  | case2 char rest word shorter induction =>
      have split : rest.takeWhile (fun next => !isBlank next) ++
          rest.dropWhile (fun next => !isBlank next) = rest := List.takeWhile_append_dropWhile
      rw [titleCase, if_pos word, fences_append, fences_append, fences_upper_char, fences_lower,
        induction, List.append_assoc, ← fences_append, split, ← fences_cons]
  | case3 char rest other induction =>
      rw [titleCase, if_neg other, fences_cons, induction, ← fences_cons]

end Bibliography.Layout
