import Bibliography.Document
import Mathlib.Data.List.Induction

/-!
Fields as a finite map with an order. Looking up a name and listing the names
determine the fields, and inserting a list of fields in order leaves each name at
its first place with its last value.
-/

namespace Bibliography

namespace Field

def find? (fields : List Field) (name : Text) : Option Value :=
  (fields.find? fun field => field.1 == name).map Prod.snd

theorem find_nil (name : Text) : find? [] name = none := rfl

theorem find_cons (field : Field) (rest : List Field) (name : Text) :
    find? (field :: rest) name = if field.1 = name then some field.2 else find? rest name := by
  unfold find?
  rw [List.find?_cons]
  by_cases same : field.1 = name
  · simp [same]
  · rw [beq_false_of_ne same, if_neg same]

theorem find_put (name : Text) (value : Value) (fields : List Field) (other : Text) :
    find? (put name value fields) other =
      if name = other then some value else find? fields other := by
  induction fields with
  | nil => rw [put, find_cons]
  | cons field rest induction =>
      unfold put
      by_cases known : field.1 = name
      · rw [if_pos known, find_cons, find_cons, known]
        by_cases same : name = other
        · rw [if_pos same, if_pos same]
        · rw [if_neg same, if_neg same, if_neg same]
      · rw [if_neg known, find_cons, induction, find_cons]
        by_cases here : field.1 = other
        · have apart : ¬ name = other := fun same => known (here.trans same.symm)
          rw [if_pos here, if_pos here, if_neg apart]
        · rw [if_neg here, if_neg here]

theorem find_eq_some_iff {fields : List Field} (distinct : (names fields).Nodup) (name : Text)
    (value : Value) : find? fields name = some value ↔ (name, value) ∈ fields := by
  induction fields with
  | nil => simp [find_nil]
  | cons field rest induction =>
      obtain ⟨absent, others⟩ := List.nodup_cons.1 distinct
      rw [find_cons, List.mem_cons]
      by_cases same : field.1 = name
      · rw [if_pos same]
        constructor
        · intro found
          exact .inl (Prod.ext same.symm (Option.some.inj found).symm)
        · intro found
          rcases found with rfl | member
          · rfl
          · exact absurd (List.mem_map_of_mem (f := Prod.fst) member) (same ▸ absent)
      · rw [if_neg same, induction others]
        constructor
        · exact .inr
        · intro found
          rcases found with rfl | member
          · exact absurd rfl same
          · exact member

theorem find_eq_none_iff (fields : List Field) (name : Text) :
    find? fields name = none ↔ name ∉ names fields := by
  induction fields with
  | nil => simp [find_nil, names]
  | cons field rest induction =>
      rw [find_cons, names, List.map_cons, List.mem_cons]
      by_cases same : field.1 = name
      · simp [same]
      · rw [if_neg same, induction]
        simp [names, Ne.symm same]

theorem put_absent {name : Text} (value : Value) {fields : List Field}
    (absent : name ∉ names fields) :
    put name value fields = fields ++ [(name, value)] := by
  induction fields with
  | nil => rfl
  | cons field rest induction =>
      obtain ⟨different, others⟩ := not_or.1 (fun either => absent (List.mem_cons.2 either))
      unfold put
      rw [if_neg (Ne.symm different), induction others]
      rfl

/-- Distinct names in order and their values determine a list of fields. -/
theorem ext_find {left right : List Field} (distinct : (names left).Nodup)
    (sameNames : names left = names right)
    (sameValues : ∀ name, find? left name = find? right name) : left = right := by
  induction left generalizing right with
  | nil => exact (List.map_eq_nil_iff.1 sameNames.symm).symm
  | cons field rest induction =>
      cases right with
      | nil => exact absurd sameNames (by simp [names])
      | cons other others =>
          obtain ⟨absent, distinctRest⟩ := List.nodup_cons.1 distinct
          obtain ⟨sameName, sameRest⟩ := List.cons.inj sameNames
          have first := sameValues field.1
          rw [find_cons, find_cons, if_pos rfl, if_pos sameName.symm] at first
          have tails : ∀ name, find? rest name = find? others name := by
            intro name
            by_cases same : field.1 = name
            · have left := (find_eq_none_iff rest name).2 (same ▸ absent)
              have right := (find_eq_none_iff others name).2 (by
                rw [← same, show names others = names rest from sameRest.symm]
                exact absent)
              rw [left, right]
            · have whole := sameValues name
              rw [find_cons, find_cons, if_neg same, if_neg (sameName ▸ same)] at whole
              exact whole
          rw [induction distinctRest sameRest tails]
          exact congrArg (· :: others) (Prod.ext sameName (Option.some.inj first))

end Field

namespace Fields

theorem get_eq_find (fields : Fields) (name : Text) :
    fields.get? name = Field.find? fields.toList name := rfl

theorem get_insert (fields : Fields) (name : Text) (value : Value) (other : Text) :
    (fields.insert name value).get? other =
      if name = other then some value else fields.get? other :=
  Field.find_put name value fields.toList other

theorem names_insert (fields : Fields) (name : Text) (value : Value) :
    (fields.insert name value).names =
      if name ∈ fields.names then fields.names else fields.names ++ [name] :=
  Field.names_put name value fields.toList

theorem get_eq_some_iff (fields : Fields) (name : Text) (value : Value) :
    fields.get? name = some value ↔ (name, value) ∈ fields.toList :=
  Field.find_eq_some_iff fields.nodup name value

theorem get_insert_new_of_some {fields : Fields} {other : Text} {kept : Value}
    (known : fields.get? other = some kept) (name : Text) (value : Value) :
    (fields.insertNew name value).get? other = some kept := by
  unfold insertNew
  by_cases present : fields.contains name = true
  · rw [if_pos present]
    exact known
  · rw [if_neg present, get_insert]
    have different : name ≠ other := by
      intro same
      rw [contains, same, known] at present
      exact present rfl
    rw [if_neg different]
    exact known

theorem get_fill_from_of_some {fields : Fields} {name : Text} {value : Value}
    (known : fields.get? name = some value) (others : Fields) :
    (fields.fillFrom others).get? name = some value := by
  unfold fillFrom
  generalize others.toList = listed
  induction listed generalizing fields with
  | nil => exact known
  | cons field rest induction => exact induction (get_insert_new_of_some known field.1 field.2)

theorem get_erase {name other : Text} (different : name ≠ other) (fields : Fields) :
    (fields.erase name).get? other = fields.get? other := by
  have apart : (fun field : Field => decide ((field.1 != name) = true ∧
      (field.1 == other) = true)) = fun field => field.1 == other := by
    funext field
    by_cases here : field.1 = other
    · simp [here, different.symm]
    · simp [here]
  unfold get? erase
  dsimp only
  rw [List.find?_filter, apart]

theorem ext_get {left right : Fields} (sameNames : left.names = right.names)
    (sameValues : ∀ name, left.get? name = right.get? name) : left = right := by
  obtain ⟨leftList, distinct⟩ := left
  obtain ⟨rightList, _⟩ := right
  have same : leftList = rightList := Field.ext_find distinct sameNames sameValues
  subst same
  rfl

theorem of_list_append (front : List Field) (field : Field) :
    ofList (front ++ [field]) = (ofList front).insert field.1 field.2 := by
  simp [ofList]

theorem of_list_distinct {listed : List Field} (distinct : (Field.names listed).Nodup) :
    (ofList listed).toList = listed := by
  induction listed using List.reverseRecOn with
  | nil => rfl
  | append_singleton front field induction =>
      have split : Field.names (front ++ [field]) = Field.names front ++ [field.1] := by
        simp [Field.names]
      rw [split, List.nodup_append] at distinct
      obtain ⟨frontDistinct, _, apart⟩ := distinct
      have same := induction frontDistinct
      rw [of_list_append]
      unfold insert
      dsimp only
      rw [same]
      apply Field.put_absent
      intro member
      exact apart _ member _ (by simp) rfl

end Fields

/-- What is left of fields inserted in order: each name where it first stood, with
the value it was last given. -/
structure Inserted (listed : List Field) (fields : Fields) : Prop where
  names : fields.names = (Field.names listed).eraseDups
  values : ∀ name, fields.get? name = Field.find? listed.reverse name

theorem inserted_of_list (listed : List Field) : Inserted listed (Fields.ofList listed) := by
  induction listed using List.reverseRecOn with
  | nil => exact ⟨rfl, fun name => rfl⟩
  | append_singleton front field induction =>
      rw [Fields.of_list_append]
      constructor
      · have split : Field.names (front ++ [field]) = Field.names front ++ [field.1] := by
          simp [Field.names]
        rw [Fields.names_insert, induction.names, split, List.eraseDups_append]
        by_cases known : field.1 ∈ Field.names front
        · rw [if_pos (List.mem_eraseDups.2 known)]
          simp [known, List.removeAll]
        · rw [if_neg (fun again => known (List.mem_eraseDups.1 again))]
          simp [known, List.removeAll, List.eraseDups_cons]
      · intro name
        rw [Fields.get_insert, induction.values, List.reverse_append, List.reverse_singleton,
          List.singleton_append, Field.find_cons]

theorem inserted_iff (listed : List Field) (fields : Fields) :
    Inserted listed fields ↔ fields = Fields.ofList listed := by
  have built := inserted_of_list listed
  constructor
  · intro inserted
    apply Fields.ext_get
    · rw [inserted.names, built.names]
    · intro name
      rw [inserted.values, built.values]
  · intro same
    subst same
    exact built

end Bibliography
