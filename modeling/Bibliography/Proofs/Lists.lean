import Mathlib.Data.List.Forall2

/-!
Lists, whatever they hold. Where the members of two lists correspond one by one, as entries and
what they are read back as, what two corresponding members share their lists share.

Sorting is stable, for any order: of two members neither of which has to stand first, the one that
stood first before still does. Said of all pairs at once, so that a sorted list is described by
the order and by what was known of the unsorted list. Members none of which has to stand before
another stay as they stood, equal ones included.
-/

namespace Bibliography

section Related

variable {Left Right : Type} {relates : Left → Right → Prop} {lefts : List Left}
  {rights : List Right}

theorem related_of_mem (related : List.Forall₂ relates lefts rights) {left : Left}
    (member : left ∈ lefts) : ∃ right ∈ rights, relates left right := by
  induction related with
  | nil => exact absurd member List.not_mem_nil
  | @cons first second _ _ one _ induction =>
      rcases List.mem_cons.1 member with rfl | later
      · exact ⟨second, List.mem_cons_self, one⟩
      · obtain ⟨right, known, same⟩ := induction later
        exact ⟨right, List.mem_cons_of_mem _ known, same⟩

theorem map_of_related {Part : Type} {leftPart : Left → Part} {rightPart : Right → Part}
    (shared : ∀ left right, relates left right → rightPart right = leftPart left)
    (related : List.Forall₂ relates lefts rights) : rights.map rightPart = lefts.map leftPart := by
  induction related with
  | nil => rfl
  | cons one _ induction => rw [List.map_cons, List.map_cons, shared _ _ one, induction]

end Related

section Stability

variable {Item : Type} {atMost : Item → Item → Bool}
  (trans : ∀ first second third, atMost first second = true → atMost second third = true →
    atMost first third = true)
  (total : ∀ left right, (atMost left right || atMost right left) = true)

include trans total

/-- Sorted pairs are in order; and where the order allows them either way, they stand as they
stood before. -/
theorem merge_sort_stable {ahead : Item → Item → Prop} {items : List Item}
    (listed : items.Pairwise ahead) :
    (items.mergeSort atMost).Pairwise fun left right =>
      atMost left right = true ∧ (atMost right left = true → ahead left right) := by
  induction items with
  | nil => simp
  | cons first rest induction =>
      rcases List.pairwise_cons.1 listed with ⟨infront, others⟩
      have sorted := List.pairwise_mergeSort trans total (first :: rest)
      have sortedRest := induction others
      -- The first item is put in front of all that are not smaller.
      rcases List.mergeSort_cons trans total first rest with ⟨front, back, whole, parts, smaller⟩
      have inRest : ∀ item ∈ back, item ∈ rest := by
        intro item member
        have found : item ∈ rest.mergeSort atMost := by
          rw [parts]
          exact List.mem_append_right _ member
        exact List.mem_mergeSort.1 found
      rw [parts, List.pairwise_append] at sortedRest
      rw [whole, List.pairwise_append, List.pairwise_cons] at sorted
      rw [whole, List.pairwise_append, List.pairwise_cons]
      refine ⟨sortedRest.1, ⟨?_, sortedRest.2.1⟩, ?_⟩
      · intro item member
        exact ⟨sorted.2.1.1 item member, fun _ => infront item (inRest item member)⟩
      · intro item member other inBack
        rcases List.mem_cons.1 inBack with rfl | behind
        · refine ⟨sorted.2.2 item member other List.mem_cons_self, ?_⟩
          intro either
          have less := smaller item member
          rw [either] at less
          exact absurd less (by decide)
        · exact sortedRest.2.2 item member other behind

theorem filter_merge_sort {chosen : Item → Bool}
    (tied : ∀ left right, chosen left = true → chosen right = true → atMost left right = true)
    (items : List Item) : (items.mergeSort atMost).filter chosen = items.filter chosen := by
  have ordered : (items.filter chosen).Pairwise fun left right => atMost left right = true := by
    apply List.pairwise_of_forall_mem_list
    intro left leftIn right rightIn
    exact tied left right (List.mem_filter.1 leftIn).2 (List.mem_filter.1 rightIn).2
  have inside : (items.filter chosen).Sublist (items.mergeSort atMost) :=
    List.sublist_mergeSort trans total ordered List.filter_sublist
  have within := inside.filter chosen
  rw [List.filter_filter] at within
  simp only [Bool.and_self] at within
  have long := ((List.mergeSort_perm items atMost).filter chosen).length_eq
  exact (within.eq_of_length long.symm).symm

end Stability

end Bibliography
