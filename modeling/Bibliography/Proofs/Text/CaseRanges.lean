import Bibliography.Proofs.Text.Case

/-!
Case mapping keeps text out of a set of characters. The set is given by its ranges and
the tables are checked for it once: no run and no mapping to several characters has an
image in the ranges, and no ASCII character outside them is mapped into them.
-/

namespace Bibliography.Text

def Outside (ranges : List (Nat × Nat)) (char : Char) : Prop :=
  inRanges ranges char.toNat = false

def CaseRun.avoids (ranges : List (Nat × Nat)) (run : CaseRun) : Bool :=
  run.isValid && ranges.all fun range => run.misses range.1 range.2

/-- No character outside the ranges has an image in them. -/
structure CaseAvoids (ranges : List (Nat × Nat)) : Prop where
  ascii : ((List.range 128).all fun code => inRanges ranges (Char.ofNat code).toNat ||
    !inRanges ranges (Char.ofNat code).toLower.toNat &&
      !inRanges ranges (Char.ofNat code).toUpper.toNat) = true
  runs : (lowerRuns ++ upperRuns).all (CaseRun.avoids ranges) = true
  expansions : (upperExpansions.all fun row =>
    row.2.all fun code => !inRanges ranges (Char.ofNat code).toNat) = true
  single : (['i', Char.ofNat 0x307, 'ς', 'σ'].all fun char => !inRanges ranges char.toNat) = true

variable {ranges : List (Nat × Nat)}

theorem ascii_outside (avoids : CaseAvoids ranges) {char : Char} (small : char.toNat < 128)
    (outside : Outside ranges char) :
    Outside ranges char.toLower ∧ Outside ranges char.toUpper := by
  have found := ascii_all (fun char => inRanges ranges char.toNat ||
    !inRanges ranges char.toLower.toNat && !inRanges ranges char.toUpper.toNat) avoids.ascii small
  have same : inRanges ranges char.toNat = false := outside
  simpa [same, Outside] using found

theorem map_runs_outside {runs : List CaseRun} (avoids : ∀ run ∈ runs, run.avoids ranges = true)
    {char : Char} (outside : Outside ranges char) : Outside ranges (mapRuns runs char) := by
  unfold mapRuns
  split
  · next run found =>
      have covered := List.find?_some found
      have checked := avoids run (List.mem_of_find?_eq_some found)
      rw [CaseRun.avoids, Bool.and_eq_true] at checked
      rcases checked with ⟨valid, missed⟩
      rw [Outside, image_code valid covered]
      apply Bool.eq_false_iff.2
      intro inside
      rcases List.any_eq_true.1 inside with ⟨range, listed, within⟩
      simp only [Bool.and_eq_true, decide_eq_true_eq] at within
      exact image_outside covered (List.all_eq_true.1 missed range listed) within
  · exact outside

theorem lower_char_outside (avoids : CaseAvoids ranges) {char : Char}
    (outside : Outside ranges char) : ∀ image ∈ lowerChar char, Outside ranges image := by
  intro image member
  unfold lowerChar at member
  split at member
  · next small =>
      rw [List.mem_singleton.1 member]
      exact (ascii_outside avoids small outside).1
  · split at member
    · have single := avoids.single
      simp only [List.all_cons, List.all_nil, Bool.and_true, Bool.and_eq_true,
        Bool.not_eq_true'] at single
      simp only [List.mem_cons, List.not_mem_nil, or_false] at member
      rcases member with rfl | rfl
      · exact single.1
      · exact single.2.1
    · rw [List.mem_singleton.1 member]
      apply map_runs_outside _ outside
      intro run known
      exact List.all_eq_true.1 avoids.runs run (List.mem_append_left _ known)

theorem expansion_listed {code : Nat} {codes : List Nat}
    (found : upperExpansions.lookup code = some codes) : (code, codes) ∈ upperExpansions := by
  rcases List.lookup_eq_some_iff.1 found with ⟨before, behind, parts, _⟩
  rw [parts]
  simp

theorem upper_char_outside (avoids : CaseAvoids ranges) {char : Char}
    (outside : Outside ranges char) : ∀ image ∈ upperChar char, Outside ranges image := by
  intro image member
  unfold upperChar at member
  split at member
  · next small =>
      rw [List.mem_singleton.1 member]
      exact (ascii_outside avoids small outside).2
  · split at member
    · next codes found =>
        rcases List.mem_map.1 member with ⟨code, listed, rfl⟩
        have row := List.all_eq_true.1 avoids.expansions _ (expansion_listed found)
        have free := List.all_eq_true.1 row code listed
        rwa [Bool.not_eq_true'] at free
    · rw [List.mem_singleton.1 member]
      apply map_runs_outside _ outside
      intro run known
      exact List.all_eq_true.1 avoids.runs run (List.mem_append_right _ known)

theorem lower_after_outside (avoids : CaseAvoids ranges) (afterCased : Bool) {text : Text}
    (outside : ∀ char ∈ text, Outside ranges char) :
    ∀ char ∈ lowerAfter afterCased text, Outside ranges char := by
  induction text generalizing afterCased with
  | nil => simp [lowerAfter]
  | cons first rest induction =>
      intro char member
      rcases List.mem_append.1 member with here | later
      · split at here
        · have single := avoids.single
          simp only [List.all_cons, List.all_nil, Bool.and_true, Bool.and_eq_true,
            Bool.not_eq_true'] at single
          rw [List.mem_singleton.1 here]
          split
          · exact single.2.2.1
          · exact single.2.2.2
        · exact lower_char_outside avoids (outside first (by simp)) char here
      · exact induction _ (fun other known => outside other (by simp [known])) char later

theorem lower_outside (avoids : CaseAvoids ranges) {text : Text}
    (outside : ∀ char ∈ text, Outside ranges char) : ∀ char ∈ lower text, Outside ranges char :=
  lower_after_outside avoids false outside

end Bibliography.Text
