import Bibliography.Proofs.Order
import Bibliography.Proofs.Render
import Bibliography.Proofs.Source.Sound
import Bibliography.Proofs.Text.CaseRanges

/-!
Sorting by a joined key is sorting by its parts. The parts stand with a space between
them and hold nothing at or below the space, so the first part that differs decides, and
a part that is a prefix of the other, an empty one above all, comes first. Words, kinds
and their lower case are above the space; a citation key has to be given so.
-/

namespace Bibliography

namespace Text

def AboveSpace (text : Text) : Prop := ∀ char ∈ text, ' ' < char

def spaceRanges : List (Nat × Nat) := [(0, 32)]

theorem case_avoids_space : CaseAvoids spaceRanges where
  ascii := by decide +kernel
  runs := by decide +kernel
  expansions := by decide +kernel
  single := by decide +kernel

theorem above_iff_outside (char : Char) : ' ' < char ↔ Outside spaceRanges char := by
  have above : ' ' < char ↔ 32 < char.toNat := Iff.rfl
  simp only [above, Outside, inRanges, spaceRanges, List.any_cons, List.any_nil, Bool.or_false,
    Bool.and_eq_false_iff, decide_eq_false_iff_not]
  omega

theorem above_space_lower {text : Text} (above : AboveSpace text) : AboveSpace (lower text) := by
  intro char member
  rw [above_iff_outside]
  apply lower_outside case_avoids_space _ char member
  intro other known
  exact (above_iff_outside other).1 (above other known)

theorem above_of_word {char : Char} (word : isWord char = true) : ' ' < char := by
  rw [above_iff_outside]
  by_cases small : char.toNat < 128
  · have found := ascii_all (fun char => !isWord char || !inRanges spaceRanges char.toNat)
      (by decide +kernel) small
    rwa [word, Bool.not_true, Bool.false_or, Bool.not_eq_true'] at found
  · exact (above_iff_outside char).1 (show 32 < char.toNat by omega)

theorem above_space_wording (text : Text) : AboveSpace (wording text) := by
  apply above_space_lower
  intro char member
  exact above_of_word (List.mem_filter.1 member).2

/-- Before a space a text counts as a whole: what stands behind decides only between
equal texts. -/
theorem spaced_lt_iff {left right : Text} (leftAbove : AboveSpace left)
    (rightAbove : AboveSpace right) (afterLeft afterRight : Text) :
    left ++ ' ' :: afterLeft < right ++ ' ' :: afterRight ↔
      left < right ∨ left = right ∧ afterLeft < afterRight := by
  induction left generalizing right with
  | nil =>
      cases right with
      | nil => simp
      | cons other others =>
          have less : ' ' < other := rightAbove other (by simp)
          simp [List.cons_lt_cons_iff, less]
  | cons first rest induction =>
      have more : ' ' < first := leftAbove first (by simp)
      have restAbove : AboveSpace rest := fun char member => leftAbove char (by simp [member])
      cases right with
      | nil =>
          have apart : first ≠ ' ' := fun same => Char.lt_irrefl ' ' (same ▸ more)
          have notLess : ¬ first < ' ' := Char.lt_asymm more
          simp [List.cons_lt_cons_iff, apart, notLess]
      | cons other others =>
          have othersAbove : AboveSpace others :=
            fun char member => rightAbove char (by simp [member])
          rw [List.cons_append, List.cons_append, List.cons_lt_cons_iff,
            induction restAbove othersAbove, List.cons_lt_cons_iff, List.cons.injEq]
          tauto

theorem joined_lt_iff {lefts rights : List Text} (long : lefts.length = rights.length)
    (leftAbove : ∀ text ∈ lefts, AboveSpace text)
    (rightAbove : ∀ text ∈ rights, AboveSpace text) :
    joinWith [' '] lefts < joinWith [' '] rights ↔ lefts < rights := by
  induction lefts generalizing rights with
  | nil =>
      rw [List.eq_nil_of_length_eq_zero long.symm]
      simp [joinWith]
  | cons left lefts induction =>
      rcases rights with _ | ⟨right, rights⟩
      · simp at long
      have parts := spaced_lt_iff (leftAbove left (by simp)) (rightAbove right (by simp))
      rw [List.cons_lt_cons_iff]
      rcases lefts with _ | ⟨second, others⟩
      · have alone : rights = [] := List.eq_nil_of_length_eq_zero (by simpa using long.symm)
        simp [joinWith, alone]
      · rcases rights with _ | ⟨facing, behind⟩
        · simp at long
        rw [join_with_cons_cons, join_with_cons_cons, List.singleton_append,
          List.singleton_append, parts, induction (by simpa using long)
            (fun text member => leftAbove text (by simp [member]))
            (fun text member => rightAbove text (by simp [member]))]

end Text

open Text

namespace Entry

/-- What an entry needs for its key to be read part by part. -/
structure Sortable (entry : Entry) : Prop where
  kind : Source.KindText entry.kind
  key : AboveSpace entry.key

def sortParts (entry : Entry) (fields : List Text) : List Text := fields.map entry.sortPart

theorem above_space_kind {kind : Text} (kinded : Source.KindText kind) : AboveSpace kind := by
  obtain ⟨first, others, rfl, letter, words⟩ := kinded
  intro char member
  apply above_of_word
  rcases List.mem_cons.1 member with rfl | later
  · exact word_of_letter letter
  · exact words char later

theorem above_space_part {entry : Entry} (sortable : entry.Sortable) (field : Text) :
    AboveSpace (entry.sortPart field) := by
  unfold sortPart
  split
  · exact above_space_lower sortable.key
  · split
    · exact above_space_lower (above_space_kind sortable.kind)
    · unfold wording?
      split
      · simp [AboveSpace]
      · next value _ =>
          have above := above_space_wording value.text
          split
          · simp [AboveSpace]
          · next words => exact above

theorem sort_key_lt_iff {left right : Entry} (leftSortable : left.Sortable)
    (rightSortable : right.Sortable) (fields : List Text) :
    left.sortKey fields < right.sortKey fields ↔
      left.sortParts fields < right.sortParts fields := by
  apply joined_lt_iff
  · simp
  · intro text member
    obtain ⟨field, _, rfl⟩ := List.mem_map.1 member
    exact above_space_part leftSortable field
  · intro text member
    obtain ⟨field, _, rfl⟩ := List.mem_map.1 member
    exact above_space_part rightSortable field

end Entry

namespace Record

/-- Smaller in the first part of the key that differs, or the same in all parts and
earlier in the list. -/
def Precedes (fields : List Text) (left right : Record × Nat) : Prop :=
  left.1.entry.sortParts fields < right.1.entry.sortParts fields ∨
    left.1.entry.sortParts fields = right.1.entry.sortParts fields ∧ left.2 < right.2

def orderPlaces (fields : List Text) (records : List Record) : List (Record × Nat) :=
  (records.map (keyed fields)).zipIdx.mergeSort (List.zipIdxLE keyAtMost)

theorem order_places_records (fields : List Text) (records : List Record) :
    (orderPlaces fields records).map Prod.fst = order fields records :=
  List.mergeSort_zipIdx

theorem order_places_perm (fields : List Text) (records : List Record) :
    (orderPlaces fields records).Perm (records.map (keyed fields)).zipIdx :=
  List.mergeSort_perm _ _

theorem order_places_apart (fields : List Text) (records : List Record) :
    (orderPlaces fields records).Pairwise fun left right => left.2 ≠ right.2 := by
  have places : ((records.map (keyed fields)).zipIdx.map Prod.snd).Nodup := by
    rw [List.zipIdx_map_snd]
    exact List.nodup_range'
  exact List.pairwise_map.1 (((order_places_perm fields records).map Prod.snd).nodup_iff.2 places)

theorem order_places_sorted (fields : List Text) (records : List Record) :
    (orderPlaces fields records).Pairwise fun left right =>
      List.zipIdxLE keyAtMost left right = true :=
  List.pairwise_mergeSort (List.zipIdxLE_trans key_at_most_trans)
    (List.zipIdxLE_total key_at_most_total) _

theorem keyed_of_listed {fields : List Text} {records : List Record} {listed : Record × Nat}
    (member : listed ∈ orderPlaces fields records) :
    ∃ record ∈ records, listed.1 = record.keyed fields := by
  have known := (order_places_perm fields records).subset member
  have inner : listed.1 ∈ records.map (keyed fields) := List.fst_mem_of_mem_zipIdx known
  rcases List.mem_map.1 inner with ⟨record, inRecords, same⟩
  exact ⟨record, inRecords, same.symm⟩

theorem precedes_of_placed {fields : List Text} {left right : Record} {leftPlace rightPlace : Nat}
    (leftSortable : left.entry.Sortable) (rightSortable : right.entry.Sortable)
    (placed : List.zipIdxLE keyAtMost (left.keyed fields, leftPlace)
      (right.keyed fields, rightPlace) = true) (apart : leftPlace ≠ rightPlace) :
    Precedes fields (left.keyed fields, leftPlace) (right.keyed fields, rightPlace) := by
  have ahead := Entry.sort_key_lt_iff leftSortable rightSortable fields
  have behind := Entry.sort_key_lt_iff rightSortable leftSortable fields
  by_cases less : left.entry.sortParts fields < right.entry.sortParts fields
  · exact .inl less
  · have swapped : keyAtMost (right.keyed fields) (left.keyed fields) = true :=
      at_most_iff.2 (mt ahead.1 less)
    rw [List.zipIdxLE] at placed
    split at placed
    · next straight =>
        have notMore : ¬ right.entry.sortParts fields < left.entry.sortParts fields :=
          mt behind.2 (at_most_iff.1 straight)
        have earlier : leftPlace ≤ rightPlace := by simpa [swapped] using placed
        refine .inr ⟨?_, by omega⟩
        exact List.le_antisymm notMore less
    · simp at placed

theorem order_places_precedes {fields : List Text} {records : List Record}
    (sortable : ∀ record ∈ records, record.entry.Sortable) :
    (orderPlaces fields records).Pairwise (Precedes fields) := by
  apply ((order_places_sorted fields records).and (order_places_apart fields records)).imp_of_mem
  rintro ⟨left, leftPlace⟩ ⟨right, rightPlace⟩ leftIn rightIn ⟨placed, apart⟩
  obtain ⟨earlier, inLeft, rfl⟩ := keyed_of_listed leftIn
  obtain ⟨later, inRight, rfl⟩ := keyed_of_listed rightIn
  exact precedes_of_placed (sortable earlier inLeft) (sortable later inRight) placed apart

/-- Two keys compare as their lists of parts do, part by part; so records are listed by the
first field, then by the second, and last by their places in the given list. -/
theorem sorted_by_parts (fields : List Text) :
    (∀ left right : Entry, left.Sortable → right.Sortable →
      (atMost (left.sortKey fields) (right.sortKey fields) = true ↔
        left.sortParts fields < right.sortParts fields ∨
          left.sortParts fields = right.sortParts fields)) ∧
    ∀ records : List Record, (∀ record ∈ records, record.entry.Sortable) →
      ∃ listed : List (Record × Nat), listed.Perm (records.map (keyed fields)).zipIdx ∧
        listed.map Prod.fst = order fields records ∧ listed.Pairwise (Precedes fields) := by
  constructor
  · intro left right leftSortable rightSortable
    rw [at_most_iff, Entry.sort_key_lt_iff rightSortable leftSortable]
    exact List.le_iff_lt_or_eq
  · intro records sortable
    refine ⟨orderPlaces fields records, ?_, ?_, ?_⟩
    · exact order_places_perm fields records
    · exact order_places_records fields records
    · exact order_places_precedes sortable

/-- The year of the first book goes on where the year of the second one ends, and the third
book has none. -/
def shelf : List Record :=
  let book : String → List (String × String) → Entry := fun key fields =>
    { kind := "book".toList, key := key.toList,
      fields := .ofList (fields.map fun field => (field.1.toList, ⟨field.2.toList, .braces⟩)) }
  Record.ofEntries [book "Ab" [("year", "1-9 9")], book "b" [("year", "19")], book "a" []]

theorem shelf_sortable : ∀ record ∈ shelf, record.entry.Sortable := by
  have checked : (shelf.all fun record => record.entry.kind == "book".toList &&
      record.entry.key.all fun char => !inRanges spaceRanges char.toNat) = true := by
    decide +kernel
  intro record member
  have passed := List.all_eq_true.1 checked record member
  simp only [Bool.and_eq_true, beq_iff_eq, List.all_eq_true, Bool.not_eq_true'] at passed
  refine ⟨⟨'b', "ook".toList, passed.1, by decide, List.all_eq_true.1 (by decide)⟩, ?_⟩
  intro char inside
  exact (above_iff_outside char).2 (passed.2 char inside)

theorem shelf_sorted_by_parts :
    let fields := ["year".toList, "id".toList]
    (∀ record ∈ shelf, record.entry.Sortable) ∧
      (shelf.map fun record => String.ofList (record.entry.sortKey fields)) =
        ["199 ab", "19 b", " a"] ∧
      (∀ left ∈ shelf, ∀ right ∈ shelf,
        atMost (left.entry.sortKey fields) (right.entry.sortKey fields) = true ↔
          left.entry.sortParts fields < right.entry.sortParts fields ∨
            left.entry.sortParts fields = right.entry.sortParts fields) ∧
      ∃ listed : List (Record × Nat), listed.Perm (shelf.map (keyed fields)).zipIdx ∧
        listed.map Prod.fst = order fields shelf ∧ listed.Pairwise (Precedes fields) := by
  intro fields
  refine ⟨shelf_sortable, by decide +kernel, ?_, ?_⟩
  · intro left inLeft right inRight
    exact (sorted_by_parts fields).1 left.entry right.entry (shelf_sortable left inLeft)
      (shelf_sortable right inRight)
  · exact (sorted_by_parts fields).2 shelf shelf_sortable

end Record

end Bibliography
