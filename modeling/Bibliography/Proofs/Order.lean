import Bibliography.Record
import Bibliography.Proofs.Lists
import Mathlib.Data.List.Nodup

/-!
The order of sorted records. Keys are compared as lists of characters; records with the
same key stay in the order of the document, so two sorted lists of the same records are
the same list, and leaving records out may come before or after sorting.
-/

namespace Bibliography

namespace Text

theorem at_most_iff {left right : Text} : atMost left right = true ↔ ¬ right < left := by
  induction left generalizing right with
  | nil => simp [atMost]
  | cons first rest induction =>
      cases right with
      | nil => simp [atMost]
      | cons other others =>
          rw [atMost, List.cons_lt_cons_iff]
          by_cases same : first = other
          · subst same
            rw [if_pos rfl, induction]
            simp
          · rw [if_neg same, decide_eq_true_iff]
            have apart : first.toNat ≠ other.toNat := fun equal => same (Char.toNat_inj.1 equal)
            have below : other < first ↔ other.toNat < first.toNat := Iff.rfl
            rw [below]
            simp only [Ne.symm same, false_and, or_false]
            omega

theorem at_most_total (left right : Text) : (atMost left right || atMost right left) = true := by
  rw [Bool.or_eq_true, at_most_iff, at_most_iff]
  exact List.le_total left right

theorem at_most_trans (first second third : Text) (lower : atMost first second = true)
    (upper : atMost second third = true) : atMost first third = true := by
  rw [at_most_iff] at lower upper ⊢
  exact List.le_trans lower upper

theorem lt_or_eq_of_at_most {left right : Text} (ordered : atMost left right = true) :
    left < right ∨ left = right :=
  List.le_iff_lt_or_eq.1 (at_most_iff.1 ordered)

end Text

open Text

namespace Record

def sortText (record : Record) : Text := record.sortKey.getD []

/-- Smaller by key, or earlier in the document where the keys are the same. -/
def Before (left right : Record) : Prop :=
  left.sortText < right.sortText ∨
    left.sortText = right.sortText ∧ left.position < right.position

theorem before_asymm {left right : Record} (ahead : Before left right) : ¬ Before right left := by
  intro behind
  rcases ahead with less | ⟨same, earlier⟩
  · rcases behind with more | ⟨same, _⟩
    · exact List.lt_asymm less more
    · exact List.lt_irrefl _ (same ▸ less)
  · rcases behind with more | ⟨_, later⟩
    · exact List.lt_irrefl _ (same ▸ more)
    · exact Nat.lt_asymm earlier later

/-- Each record stands later in the document than those listed before it. -/
def Numbered (records : List Record) : Prop :=
  records.Pairwise fun left right => left.position < right.position

theorem nodup_positions {records : List Record} (numbered : Numbered records) :
    (records.map position).Nodup :=
  List.pairwise_map.2 (numbered.imp Nat.ne_of_lt)

theorem eq_of_position {records : List Record} (numbered : Numbered records)
    {left right : Record} (leftIn : left ∈ records) (rightIn : right ∈ records)
    (same : left.position = right.position) : left = right :=
  List.inj_on_of_nodup_map (nodup_positions numbered) leftIn rightIn same

theorem eq_of_numbered {left right : List Record} (leftNumbered : Numbered left)
    (rightNumbered : Numbered right) (same : ∀ record, record ∈ left ↔ record ∈ right) :
    left = right := by
  have distinct : ∀ {records : List Record}, Numbered records → records.Nodup :=
    fun numbered => List.Nodup.of_map position (nodup_positions numbered)
  apply List.Perm.eq_of_pairwise ?_ leftNumbered rightNumbered
  · exact (List.perm_ext_iff_of_nodup (distinct leftNumbered) (distinct rightNumbered)).2 same
  · intro first second _ _ ahead behind
    exact absurd behind (Nat.lt_asymm ahead)

theorem key_at_most_trans (first second third : Record) (lower : keyAtMost first second = true)
    (upper : keyAtMost second third = true) : keyAtMost first third = true :=
  at_most_trans _ _ _ lower upper

theorem key_at_most_total (left right : Record) :
    (keyAtMost left right || keyAtMost right left) = true :=
  at_most_total _ _

theorem before_of_at_most {left right : Record} (ordered : keyAtMost left right = true)
    (earlier : keyAtMost right left = true → left.position < right.position) :
    Before left right := by
  rcases lt_or_eq_of_at_most ordered with less | same
  · exact .inl less
  · have either : keyAtMost right left = true := by
      unfold keyAtMost at ordered ⊢
      rw [← same] at ordered ⊢
      exact ordered
    exact .inr ⟨same, earlier either⟩

/-- Sorting is stable: among equal keys the order of the document remains. -/
theorem merge_sort_before {records : List Record} (numbered : Numbered records) :
    (records.mergeSort keyAtMost).Pairwise Before :=
  (merge_sort_stable key_at_most_trans key_at_most_total numbered).imp fun placed =>
    before_of_at_most placed.1 placed.2

theorem eq_of_before {left right : List Record} (leftSorted : left.Pairwise Before)
    (rightSorted : right.Pairwise Before) (same : left.Perm right) : left = right := by
  apply same.eq_of_pairwise ?_ leftSorted rightSorted
  intro first second _ _ ahead behind
  exact absurd behind (before_asymm ahead)

theorem numbered_keyed {records : List Record} (numbered : Numbered records)
    (fields : List Text) : Numbered (records.map (keyed fields)) :=
  List.pairwise_map.2 numbered

theorem order_before {records : List Record} (numbered : Numbered records) (fields : List Text) :
    (order fields records).Pairwise Before :=
  merge_sort_before (numbered_keyed numbered fields)

theorem order_perm (fields : List Text) (records : List Record) :
    (order fields records).Perm (records.map (keyed fields)) :=
  List.mergeSort_perm _ _

/-- Records may be left out before sorting or after it, if the choice does not look at
their keys. -/
theorem filter_order {records : List Record} (numbered : Numbered records) (fields : List Text)
    {keep : Record → Bool} (blind : ∀ record, keep (record.keyed fields) = keep record) :
    (order fields records).filter keep = order fields (records.filter keep) := by
  apply eq_of_before
  · exact (order_before numbered fields).filter keep
  · exact order_before (numbered.filter keep) fields
  · have kept : (records.map (keyed fields)).filter keep =
        (records.filter keep).map (keyed fields) := by
      rw [List.filter_map]
      exact congrArg (List.map (keyed fields))
        (List.filter_congr fun record _ => blind record)
    have sorted := (order_perm fields records).filter keep
    rw [kept] at sorted
    exact sorted.trans (order_perm fields (records.filter keep)).symm

end Record

end Bibliography
