import Bibliography.Proofs.Assembly

/-!
What entries share with the entries that are read back for them. With no field left out
and none reordered, both have the same names, and under each name the value that is read is
written as the other one was rendered. Nothing is claimed about which texts are read back.
-/

namespace Bibliography

open Text Source

theorem mem_names_of_get {entry : Entry} {name : Text} {value : Value}
    (found : entry.get? name = some value) : name ∈ entry.fields.names :=
  List.mem_map_of_mem ((Fields.get_eq_some_iff entry.fields name value).1 found)

theorem sound_of_get {entry : Entry} {name : Text} {value : Value} (sound : SoundEntry entry)
    (found : entry.get? name = some value) : SoundValue value :=
  (sound.fields (name, value) ((Fields.get_eq_some_iff entry.fields name value).1 found)).valued

theorem rendered_value {options : Options} {entry again : Entry}
    (reads : ReadsBack options entry again) {name : Text} {other : Value}
    (found : again.get? name = some other) :
    ∃ value, entry.get? name = some value ∧ other.written = options.renderValue name value := by
  have same := reads.values name (mem_names_of_get found)
  rw [found, Option.map_some] at same
  obtain ⟨value, known, written⟩ := Option.map_eq_some_iff.1 same.symm
  exact ⟨value, known, written.symm⟩

section InPlace

variable {options : Options} {entry again : Entry} (omitted : options.omitted = [])
  (sortFields : options.sortFields = false) (reads : ReadsBack options entry again)

include omitted sortFields reads

theorem names_of_reads_back : again.fields.names = entry.fields.names := by
  rw [reads.names, Options.written_names_all omitted sortFields]

theorem reread_value {name : Text} {value : Value} (found : entry.get? name = some value) :
    ∃ other, again.get? name = some other ∧ other.written = options.renderValue name value := by
  have member : name ∈ again.fields.names := by
    rw [names_of_reads_back omitted sortFields reads]
    exact mem_names_of_get found
  have same := reads.values name member
  rw [found, Option.map_some] at same
  exact Option.map_eq_some_iff.1 same

theorem readable_of_reads_back (sound : SoundEntry again) {field : Field}
    (member : field ∈ entry.fields.toList) : options.Readable field := by
  have found := (Fields.get_eq_some_iff entry.fields field.1 field.2).2 member
  obtain ⟨other, known, written⟩ := reread_value omitted sortFields reads found
  have valued := sound_of_get sound known
  unfold SoundValue at valued
  rw [written] at valued
  exact ⟨other, valued⟩

end InPlace

end Bibliography
