import Bibliography.Proofs.Lists
import Bibliography.Usage
import Mathlib.Data.List.Basic
import Mathlib.Data.List.Induction

/-!
Tallies of a list of values. Each value has one row with the number of times it is listed, and
the rows stand in the order in which the values first appear. Ranked by frequency, the rows are
the same; among equally frequent values the order of first appearance remains.
-/

namespace Bibliography

namespace Tally

theorem count_cons (row : Text × Nat) (rest : Tally) (value : Text) :
    count (row :: rest) value = if row.1 = value then row.2 else count rest value := by
  unfold count
  rw [List.find?_cons]
  by_cases same : row.1 = value
  · simp [same]
  · rw [beq_false_of_ne same, if_neg same]

theorem count_add (tally : Tally) (value other : Text) :
    (tally.add value).count other = tally.count other + if value = other then 1 else 0 := by
  induction tally with
  | nil =>
      rw [add, count_cons]
      split <;> rfl
  | cons row rest induction =>
      unfold add
      by_cases same : row.1 = value
      · rw [if_pos same, count_cons, count_cons, same]
        split
        · rfl
        · rfl
      · rw [if_neg same, count_cons, count_cons, induction]
        by_cases here : row.1 = other
        · have apart : value ≠ other := fun equal => same (here.trans equal.symm)
          rw [if_pos here, if_pos here, if_neg apart, Nat.add_zero]
        · rw [if_neg here, if_neg here]

theorem count_of_list (values : List Text) (value : Text) :
    (ofList values).count value = values.count value := by
  induction values using List.reverseRecOn with
  | nil => rfl
  | append_singleton front last induction =>
      rw [ofList, List.foldl_append, List.foldl_cons, List.foldl_nil, ← ofList, count_add,
        induction, List.count_append, List.count_singleton]
      congr 1
      simp only [beq_iff_eq]

def names (tally : Tally) : List Text := tally.map Prod.fst

/-- The values in the order of their first appearance. -/
structure FirstSeen (values names : List Text) : Prop where
  listed : ∀ value, value ∈ names ↔ value ∈ values
  ordered : names.Pairwise fun left right => values.idxOf left < values.idxOf right

theorem FirstSeen.nodup {values names : List Text} (seen : FirstSeen values names) :
    names.Nodup := by
  apply seen.ordered.imp
  rintro left right before rfl
  exact Nat.lt_irrefl _ before

def total (tally : Tally) : Nat := tally.foldr (fun row sum => row.2 + sum) 0

example : (ofList ["b".toList, "a".toList, "c".toList, "a".toList, "b".toList]).mostFrequent =
    [("b".toList, 2), ("a".toList, 2), ("c".toList, 1)] := by
  cbv

end Tally

end Bibliography
