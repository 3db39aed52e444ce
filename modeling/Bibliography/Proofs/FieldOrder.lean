import Bibliography.Proofs.Render
import Bibliography.Proofs.Lists
import Mathlib.Data.List.Nodup

/-!
The order of sorted fields. Sorting by place is collecting: the known names come one after the
other, each with all its items, and what has an unknown name follows as it stood. So sorting the
fields of an entry moves its lines and changes none of them. Names count as they are written: a
known name in upper case is an unknown one.
-/

namespace Bibliography

open Text Source

/-- The items of every name of the list in turn, and behind them the items of other names. -/
def arranged {Item : Type} (order : List Text) (name : Item → Text) (items : List Item) :
    List Item :=
  order.flatMap (fun known => items.filter fun item => name item == known) ++
    items.filter fun item => !order.contains (name item)

section

variable {Item : Type} {name : Item → Text} {order : List Text}

theorem eq_filter_append_filter {chosen : Item → Bool} {items : List Item}
    (infront : items.Pairwise fun left right => chosen right = true → chosen left = true) :
    items = items.filter chosen ++ items.filter fun item => !chosen item := by
  induction items with
  | nil => rfl
  | cons first rest induction =>
      rcases List.pairwise_cons.1 infront with ⟨ahead, others⟩
      by_cases front : chosen first = true
      · rw [List.filter_cons_of_pos front, List.filter_cons_of_neg (by simp [front]),
          List.cons_append, ← induction others]
      · have none : ∀ item ∈ first :: rest, ¬ chosen item = true := by
          intro item member
          rcases List.mem_cons.1 member with rfl | later
          · exact front
          · exact fun late => front (ahead item later late)
        have empty := List.filter_eq_nil_iff.2 none
        have all : (first :: rest).filter (fun item => !chosen item) = first :: rest :=
          List.filter_eq_self.2 fun item member => by simpa using none item member
        rw [empty, all, List.nil_append]

theorem arranged_cons {known : Text} {rest : List Text} (absent : known ∉ rest)
    (items : List Item) :
    arranged (known :: rest) name items = (items.filter fun item => name item == known) ++
      arranged rest name (items.filter fun item => !(name item == known)) := by
  have inRest : ∀ field ∈ rest, (items.filter fun item => name item == field) =
      (items.filter fun item => !(name item == known)).filter fun item => name item == field := by
    intro field member
    rw [List.filter_filter]
    apply List.filter_congr
    intro item _
    by_cases same : name item = field
    · have different : field ≠ known := fun equal => absent (equal ▸ member)
      simp [same, different]
    · simp [same]
  have unknown : (items.filter fun item => !(known :: rest).contains (name item)) =
      (items.filter fun item => !(name item == known)).filter fun item =>
        !rest.contains (name item) := by
    rw [List.filter_filter]
    apply List.filter_congr
    intro item _
    rw [List.contains_cons, Bool.not_or, Bool.and_comm]
  unfold arranged
  rw [List.flatMap_cons, List.flatMap_congr inRest, unknown, List.append_assoc]

/-- What stands in the order of the list is arranged already. The induction is on the list: the
items of its first name stand in front, and the others are in the order of what is left. -/
theorem eq_arranged {items : List Item} (distinct : order.Nodup)
    (placed : items.Pairwise fun left right =>
      order.idxOf (name left) ≤ order.idxOf (name right)) :
    items = arranged order name items := by
  induction order generalizing items with
  | nil => simp [arranged]
  | cons known rest induction =>
      rcases List.nodup_cons.1 distinct with ⟨absent, distinctRest⟩
      have front : items = (items.filter fun item => name item == known) ++
          items.filter fun item => !(name item == known) := by
        apply eq_filter_append_filter
        apply placed.imp
        intro left right ordered first
        by_contra later
        rw [List.idxOf_cons_eq rest (beq_iff_eq.1 first).symm,
          List.idxOf_cons_ne rest fun same => later (beq_iff_eq.2 same.symm)] at ordered
        omega
      have others : (items.filter fun item => !(name item == known)).Pairwise fun left right =>
          rest.idxOf (name left) ≤ rest.idxOf (name right) := by
        have later : ∀ item ∈ items.filter (fun item => !(name item == known)),
            known ≠ name item := by
          intro item member same
          have kept := (List.mem_filter.1 member).2
          simp [same] at kept
        apply (placed.filter _).imp_of_mem
        intro left right leftIn rightIn ordered
        rw [List.idxOf_cons_ne rest (later left leftIn),
          List.idxOf_cons_ne rest (later right rightIn)] at ordered
        omega
      calc
        items = (items.filter fun item => name item == known) ++
            items.filter fun item => !(name item == known) := front
        _ = (items.filter fun item => name item == known) ++
            arranged rest name (items.filter fun item => !(name item == known)) := by
          rw [← induction distinctRest others]
        _ = arranged (known :: rest) name items := (arranged_cons absent items).symm

theorem map_arranged {Part : Type} (part : Item → Part) (name : Part → Text) (items : List Item) :
    (arranged order (fun item => name (part item)) items).map part =
      arranged order name (items.map part) := by
  simp only [arranged, List.map_append, List.map_flatMap, List.filter_map]
  rfl

end

section

variable {Item : Type}

def placedBy (name : Item → Text) (left right : Item) : Bool :=
  decide (fieldRank (name left) ≤ fieldRank (name right))

variable {name : Item → Text}

theorem placed_by_trans (first second third : Item) (lower : placedBy name first second = true)
    (upper : placedBy name second third = true) : placedBy name first third = true :=
  decide_eq_true (Nat.le_trans (of_decide_eq_true lower) (of_decide_eq_true upper))

theorem placed_by_total (left right : Item) :
    (placedBy name left right || placedBy name right left) = true := by
  simp only [placedBy, Bool.or_eq_true, decide_eq_true_eq]
  exact Nat.le_total _ _

theorem field_rank_unknown {name : Text} (unknown : (!fieldOrder.contains name) = true) :
    fieldRank name = fieldOrder.length := by
  apply List.idxOf_of_notMem
  simpa using unknown

theorem sort_by_place (name : Item → Text) (items : List Item) :
    items.mergeSort (placedBy name) = arranged fieldOrder name items := by
  have distinct : fieldOrder.Nodup := by decide
  have placed : (items.mergeSort (placedBy name)).Pairwise fun left right =>
      fieldOrder.idxOf (name left) ≤ fieldOrder.idxOf (name right) :=
    (List.pairwise_mergeSort placed_by_trans placed_by_total items).imp of_decide_eq_true
  have known : ∀ field, ((items.mergeSort (placedBy name)).filter fun item =>
      name item == field) = items.filter fun item => name item == field := by
    intro field
    apply filter_merge_sort placed_by_trans placed_by_total
    intro left right here there
    rw [placedBy, beq_iff_eq.1 here, beq_iff_eq.1 there]
    exact decide_eq_true (Nat.le_refl _)
  have unknown : ((items.mergeSort (placedBy name)).filter fun item =>
      !fieldOrder.contains (name item)) =
      items.filter fun item => !fieldOrder.contains (name item) := by
    apply filter_merge_sort placed_by_trans placed_by_total
    intro left right here there
    rw [placedBy, field_rank_unknown here, field_rank_unknown there]
    exact decide_eq_true (Nat.le_refl _)
  rw [eq_arranged distinct placed]
  unfold arranged
  simp only [known, unknown]

theorem arranged_perm (name : Item → Text) (items : List Item) :
    (arranged fieldOrder name items).Perm items := by
  rw [← sort_by_place]
  exact List.mergeSort_perm _ _

theorem order_names_eq (names : List Text) : orderNames names = arranged fieldOrder id names :=
  sort_by_place id names

theorem order_names_again (names : List Text) :
    orderNames (orderNames names) = orderNames names := by
  have placed : (orderNames names).Pairwise fun left right => placedBy id left right = true :=
    List.pairwise_mergeSort placed_by_trans placed_by_total names
  exact List.mergeSort_of_pairwise placed

end

namespace Entry

def around (entry : Entry) (lines : List Text) : Text :=
  renderComments entry.comments ++
    '@' :: (lower entry.kind ++ '{' :: (entry.key ++ ",\n".toList ++
      joinWith ",\n".toList lines ++ "\n\x7d".toList))

end Entry

namespace Options

def keptFields (options : Options) (entry : Entry) : List Field :=
  entry.fields.toList.filter fun field => !options.omitted.contains field.1

def fieldLine (options : Options) (field : Field) : Text :=
  options.renderField field.1 field.2

variable {options : Options}

theorem names_kept_fields (options : Options) (entry : Entry) :
    Field.names (options.keptFields entry) =
      entry.fields.names.filter fun name => !options.omitted.contains name := by
  unfold keptFields Fields.names Field.names
  rw [List.filter_map]
  rfl

theorem nodup_kept_names (options : Options) (entry : Entry) :
    (Field.names (options.keptFields entry)).Nodup := by
  rw [names_kept_fields]
  exact List.Nodup.filter _ entry.fields.nodup

theorem written_fields_of_names {entry : Entry} {fields : List Field}
    (within : ∀ field ∈ fields, field ∈ entry.fields.toList)
    (names : options.writtenNames entry = Field.names fields) :
    options.writtenFields entry = fields := by
  have found : ∀ field ∈ fields,
      ((entry.get? field.1).map fun value => (field.1, value)) = some field := by
    intro field member
    rw [Entry.get?, (Fields.get_eq_some_iff _ _ _).2 (within field member)]
    rfl
  unfold writtenFields
  rw [names, Field.names, List.filterMap_map]
  exact (List.filterMap_congr found).trans List.filterMap_some

theorem written_fields_unsorted (options : Options) (entry : Entry) :
    { options with sortFields := false }.writtenFields entry = options.keptFields entry := by
  apply written_fields_of_names
  · exact fun field member => (List.mem_filter.1 member).1
  · rw [names_kept_fields]
    rfl

theorem names_arranged (fields : List Field) :
    Field.names (arranged fieldOrder Prod.fst fields) = orderNames (Field.names fields) := by
  rw [order_names_eq]
  exact map_arranged Prod.fst id fields

theorem written_fields_sorted (options : Options) (entry : Entry) :
    { options with sortFields := true }.writtenFields entry =
      arranged fieldOrder Prod.fst (options.keptFields entry) := by
  apply written_fields_of_names
  · intro field member
    exact (List.mem_filter.1 ((arranged_perm _ _).subset member)).1
  · rw [names_arranged, names_kept_fields]
    rfl

theorem render_entry_around {entry : Entry} {fields : List Field}
    (written : options.writtenFields entry = fields) :
    options.renderEntry entry = entry.around (fields.map options.fieldLine) := by
  rw [renderEntry, render_fields_eq, written]
  rfl

theorem read_field_line {field : Field} (named : NameText field.1) :
    readAssignment? ((options.fieldLine field).drop options.indent.length) =
      some (field.1, skipBlank (' ' :: options.renderValue field.1 field.2)) := by
  have parts : options.fieldLine field = options.indent ++
      (field.1 ++ List.replicate (fieldWidth - field.1.length) ' ' ++
        '=' :: ' ' :: options.renderValue field.1 field.2) := by
    simp [fieldLine, renderField, padRight]
  rw [parts, List.drop_left]
  exact read_assignment_at_equals named (is_gap_spaces _) _

theorem nodup_field_lines {fields : List Field} (distinct : (Field.names fields).Nodup)
    (named : ∀ field ∈ fields, NameText field.1) : (fields.map options.fieldLine).Nodup := by
  let nameOf : Text → Option Text := fun line =>
    (readAssignment? (line.drop options.indent.length)).map Prod.fst
  have read : (fields.map options.fieldLine).map nameOf = (Field.names fields).map some := by
    rw [Field.names, List.map_map, List.map_map]
    apply List.map_congr_left
    intro field member
    simp only [nameOf, Function.comp, read_field_line (named field member), Option.map_some]
  apply List.Nodup.of_map nameOf
  rw [read]
  exact distinct.map fun _ _ same => Option.some.inj same

/-- Sorted names are the known ones in turn, each as often as it was listed, and then the unknown
ones as they stood; to sort them again changes nothing. An entry with sorted fields is written
with the lines it has without sorting, one for each field that is not omitted, in that order. No
line stands there twice if the names are such as a source can give. -/
theorem fields_written_in_order :
    (∀ names : List Text, orderNames names = arranged fieldOrder id names ∧
      (orderNames names).Perm names ∧ orderNames (orderNames names) = orderNames names) ∧
    ∀ (options : Options) (entry : Entry),
      let fields := options.keptFields entry
      let sorted := arranged fieldOrder Prod.fst fields
      { options with sortFields := false }.renderEntry entry =
          entry.around (fields.map options.fieldLine) ∧
        { options with sortFields := true }.renderEntry entry =
          entry.around (sorted.map options.fieldLine) ∧
        Field.names sorted = orderNames (Field.names fields) ∧
        (Field.names fields).Nodup ∧
        (sorted.map options.fieldLine).Perm (fields.map options.fieldLine) ∧
        ((∀ field ∈ fields, NameText field.1) → (sorted.map options.fieldLine).Nodup) := by
  constructor
  · intro names
    exact ⟨order_names_eq names, order_names_perm names, order_names_again names⟩
  · intro options entry fields sorted
    have moved : (sorted.map options.fieldLine).Perm (fields.map options.fieldLine) :=
      (arranged_perm Prod.fst fields).map options.fieldLine
    refine ⟨?_, ?_, names_arranged fields, nodup_kept_names options entry, moved, ?_⟩
    · exact render_entry_around (written_fields_unsorted options entry)
    · exact render_entry_around (written_fields_sorted options entry)
    · intro named
      exact moved.nodup_iff.2 (nodup_field_lines (nodup_kept_names options entry) named)

/-- Two fields with unknown names stand around known ones; the note is to be omitted. -/
def fieldNotes : Entry where
  kind := "Misc".toList
  key := "walk".toList
  fields := .ofList [("zone".toList, ⟨"north".toList, .quotes⟩),
    ("year".toList, ⟨"1999".toList, .bare⟩), ("note".toList, ⟨"lost".toList, .braces⟩),
    ("abstract".toList, ⟨"wet".toList, .braces⟩), ("title".toList, ⟨"Walks".toList, .braces⟩)]

theorem field_notes_written_in_order :
    let options : Options := { omitted := ["note".toList] }
    let fields := options.keptFields fieldNotes
    let sorted := arranged fieldOrder Prod.fst fields
    (∀ field ∈ fields, NameText field.1) ∧
      orderNames (Field.names fields) =
        ["title".toList, "year".toList, "zone".toList, "abstract".toList] ∧
      { options with sortFields := true }.renderEntry fieldNotes =
        fieldNotes.around (sorted.map options.fieldLine) ∧
      (sorted.map options.fieldLine).Nodup := by
  intro options fields sorted
  have checked : (fields.all fun field => !field.1.isEmpty && field.1.all isNameChar) = true := by
    decide
  have named : ∀ field ∈ fields, NameText field.1 := by
    intro field member
    have passed := List.all_eq_true.1 checked field member
    simpa [NameText] using passed
  obtain ⟨_, written, _, _, _, apart⟩ := fields_written_in_order.2 options fieldNotes
  exact ⟨named, (fields_written_in_order.1 _).1.trans (by decide), written, apart named⟩

end Options

end Bibliography
