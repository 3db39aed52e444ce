import Bibliography.Proofs.Assembly

/-!
Documents with a value that gets stuck. Such a value ends the reading of its field, and
nothing behind it can make up for that, so a document that is read has none. This is
claimed for rendered fields that are either written values or stuck.
-/

namespace Bibliography

open Text Source

namespace Options

variable {options : Options}

/-- The rendered form of the field is a written value, or stuck where no field ends. -/
structure Settles (options : Options) (field : Field) : Prop where
  solid : StartsSolid (options.renderValue field.1 field.2)
  either : options.Readable field ∨
    Spot.StuckIn ⟨.vacant, false⟩ (options.renderValue field.1 field.2)

theorem stuck_nonempty {spot : Spot} {text : Text} (stuck : spot.StuckIn text) : text ≠ [] := by
  rcases stuck with ⟨front, char, back, _, rfl, _⟩
  simp

theorem not_stuck_of_read {enclosure : Enclosure} {field : Field} (named : NameText field.1)
    (solid : StartsSolid (options.renderValue field.1 field.2)) {key opening lead tail : Text}
    (blanks : IsGap lead) {found : List Field × Text}
    (read : readFields enclosure.closer key opening
      (lead ++ (options.renderField field.1 field.2 ++ tail)) = .ok found) :
    ¬ Spot.StuckIn ⟨.vacant, false⟩ (options.renderValue field.1 field.2) := by
  intro stuck
  generalize valueText : options.renderValue field.1 field.2 = value at solid stuck
  have padding := is_gap_spaces (fieldWidth - field.1.length)
  have start : skipBlank (lead ++ (options.renderField field.1 field.2 ++ tail)) =
      field.1 ++ List.replicate (fieldWidth - field.1.length) ' ' ++
        '=' :: (' ' :: (value ++ tail)) := by
    have parts : lead ++ (options.renderField field.1 field.2 ++ tail) =
        (lead ++ options.indent) ++ (field.1 ++
          List.replicate (fieldWidth - field.1.length) ' ' ++ '=' :: (' ' :: (value ++ tail))) := by
      simp [renderField, padRight, valueText]
    rw [parts, skip_blank_gap_solid (is_gap_append blanks (is_gap_indent options))]
    rw [List.append_assoc]
    exact name_starts_solid named _
  have going : after? enclosure.closer (skipBlank
      (lead ++ (options.renderField field.1 field.2 ++ tail))) = none := by
    rw [start, List.append_assoc]
    exact after_name_eq_none (closer_is_mark enclosure) named _
  have assigned : readAssignment? (skipBlank
      (lead ++ (options.renderField field.1 field.2 ++ tail))) = some (field.1, value ++ tail) := by
    have further : StartsSolid (value ++ tail) := by
      cases value with
      | nil => exact absurd rfl (stuck_nonempty stuck)
      | cons char rest => exact starts_solid_cons _ (solid char (by simp))
    rw [start]
    exact read_assignment_complete named padding (is_gap_spaces 1) further
  rcases value_of_read_fields going assigned read with
    ⟨_, _, _, _, valued, separated⟩
  exact stuck_not_read stuck valued separated

/-- A field that is read is readable, and what stands behind its comma is read too. -/
theorem read_past_field {field : Field} (named : NameText field.1)
    (settles : options.Settles field) {key opening lead tail : Text} (blanks : IsGap lead)
    {found : List Field × Text}
    (read : readFields Enclosure.braces.closer key opening
      (lead ++ (options.renderField field.1 field.2 ++ ',' :: tail)) = .ok found) :
    options.Readable field ∧
      ∃ more, readFields Enclosure.braces.closer key opening tail = .ok more := by
  have readable := settles.either.resolve_right
    (not_stuck_of_read named settles.solid blanks read)
  refine ⟨readable, ?_⟩
  rcases readable with ⟨value, valued⟩
  have rereads : options.Rereads field (field.1, value) := ⟨rfl, valued⟩
  rcases assigned_render named rereads is_gap_nil with ⟨text, parts, assigned⟩
  have comma : ',' ∈ [',', Enclosure.braces.closer] := by simp
  have step := read_field_complete key opening tail assigned
    (is_gap_append blanks (is_gap_indent options)) comma
  rw [List.append_nil] at parts
  rw [if_pos rfl, List.append_assoc lead, ← parts, List.append_assoc, read] at step
  cases behind : readFields Enclosure.braces.closer key opening tail with
  | error fault => simp [behind, Except.map] at step
  | ok more => exact ⟨more, rfl⟩

theorem readable_of_read_fields {fields : List Field}
    (named : ∀ field ∈ fields, NameText field.1)
    (settles : ∀ field ∈ fields, options.Settles field) {key opening lead rest : Text}
    (blanks : IsGap lead) {found : List Field × Text}
    (read : readFields Enclosure.braces.closer key opening
      (lead ++ (joinWith ",\n".toList
        (fields.map fun field => options.renderField field.1 field.2) ++ rest)) = .ok found) :
    ∀ field ∈ fields, options.Readable field := by
  induction fields generalizing lead found with
  | nil => simp
  | cons field others induction =>
      have name := named field (by simp)
      have settled := settles field (by simp)
      cases others with
      | nil =>
          intro other member
          rw [List.mem_singleton.1 member]
          have alone : readFields Enclosure.braces.closer key opening
              (lead ++ (options.renderField field.1 field.2 ++ rest)) = .ok found := by
            simpa [joinWith, List.intercalate] using read
          exact settled.either.resolve_right (not_stuck_of_read name settled.solid blanks alone)
      | cons next more =>
          rw [List.map_cons, List.map_cons, join_with_cons_cons, List.append_assoc,
            List.append_assoc] at read
          rcases read_past_field name settled blanks read with ⟨readable, remaining, behind⟩
          have feed : IsGap ['\n'] := is_gap_cons.2 ⟨by decide, is_gap_nil⟩
          have following := induction (fun other member => named other (by simp [member]))
            (fun other member => settles other (by simp [member])) feed behind
          intro other member
          rcases List.mem_cons.1 member with rfl | inside
          · exact readable
          · exact following other inside

theorem readable_of_read_entry {entry : Entry} (sound : SoundEntry entry)
    (settles : ∀ field ∈ options.writtenFields entry, options.Settles field)
    {kind opening rest : Text} {found : Entry × Text}
    (read : readEntry kind .braces opening (options.renderBody entry ++ rest) = .ok found) :
    ∀ field ∈ options.writtenFields entry, options.Readable field := by
  have named : ∀ field ∈ options.writtenFields entry, NameText field.1 := fun field member =>
    (sound.fields field (mem_written_fields member)).named
  have feed : IsGap ['\n'] := is_gap_cons.2 ⟨by decide, is_gap_nil⟩
  generalize body : joinWith ",\n".toList ((options.writtenFields entry).map fun field =>
    options.renderField field.1 field.2) ++ ("\n\x7d".toList ++ rest) = fields
  have parts : options.renderBody entry ++ rest =
      [] ++ entry.key ++ [] ++ ',' :: (['\n'] ++ fields) := by
    rw [← body, renderBody, render_fields_eq]
    simp
  have keyed : readKey? ([] ++ entry.key ++ [] ++ ',' :: (['\n'] ++ fields)) = _ :=
    read_key_before_mark is_gap_nil sound.keyed is_gap_nil (by decide)
  have comma : ',' ∈ [',', Enclosure.braces.closer] := by simp
  have separated := expect_complete (afterKey entry.key) (['\n'] ++ fields) is_gap_nil
    (show isBlank ',' = false by decide) comma
  rw [parts] at read
  unfold readEntry at read
  rw [keyed] at read
  dsimp only at read
  rw [List.nil_append] at separated
  rw [separated] at read
  dsimp only at read
  rw [if_pos rfl] at read
  split at read
  · simp at read
  · next listed =>
      rw [← body] at listed
      exact readable_of_read_fields named settles feed listed

theorem readable_of_gives_entry {seen : Bool} {entry : Entry} (sound : SoundEntry entry)
    (ascii : AsciiKind entry.kind)
    (settles : ∀ field ∈ options.writtenFields entry, options.Settles field) {rest : Text}
    {items : List Item} (given : Gives seen (options.renderEntry entry ++ rest) items) :
    ∀ field ∈ options.writtenFields entry, options.Readable field := by
  have ordinary : lower (lower entry.kind) ∉ blockKinds := by
    rw [lower_lower]
    exact sound.ordinary
  rw [render_entry_eq, List.append_assoc, leads_comments seen sound.comments] at given
  rcases given with ⟨more, block, _⟩
  rw [List.cons_append, List.append_assoc, List.cons_append] at block
  rcases block_of_gives (kind_text_lower sound.kind ascii) block with ⟨found, read⟩
  rw [read_block_entry ordinary] at read
  rcases except_map_ok read with ⟨inner, entryRead, _⟩
  exact readable_of_read_entry sound settles entryRead

theorem readable_of_gives {seen : Bool} {entries : List Entry}
    (sound : ∀ entry ∈ entries, SoundEntry entry) (ascii : ∀ entry ∈ entries, AsciiKind entry.kind)
    (settles : ∀ entry ∈ entries, ∀ field ∈ options.writtenFields entry, options.Settles field)
    {rest : Text} {items : List Item}
    (given : Gives seen (options.renderEntries entries ++ rest) items) :
    ∀ entry ∈ entries, ∀ field ∈ options.writtenFields entry, options.Readable field := by
  rw [render_entries_eq] at given
  induction entries generalizing items with
  | nil => simp
  | cons entry others induction =>
      rw [List.flatMap_cons, List.append_assoc] at given
      have own := given
      rw [List.append_assoc] at own
      have readable := readable_of_gives_entry (sound entry (by simp)) (ascii entry (by simp))
        (settles entry (by simp)) own
      -- A readable entry can be read past, so the entries behind it are read as well.
      rcases rereads_of_readable readable with ⟨again, rereads⟩
      rw [leads_render_entry seen (sound entry (by simp)) (ascii entry (by simp)) rereads] at given
      rcases given with ⟨more, later, _⟩
      have following := induction (fun other member => sound other (by simp [member]))
        (fun other member => ascii other (by simp [member]))
        (fun other member => settles other (by simp [member])) later
      intro other member
      rcases List.mem_cons.1 member with rfl | inside
      · exact readable
      · exact following other inside

end Options

/-- A document with a stuck value is not read, whatever stands behind the value. -/
theorem readable_of_assembled {options : Options} {document again : Document}
    {entries : List Entry} (sound : SoundDocument document)
    (entriesSound : ∀ entry ∈ entries, SoundEntry entry)
    (ascii : ∀ entry ∈ entries, AsciiKind entry.kind)
    (settles : ∀ entry ∈ entries, ∀ field ∈ options.writtenFields entry, options.Settles field)
    (parsed : Document.parse (options.assemble document entries) = .ok again) :
    ∀ entry ∈ entries, ∀ field ∈ options.writtenFields entry, options.Readable field := by
  rcases parse_ok_iff.1 parsed with ⟨items, given, _⟩
  have text : options.assemble document entries =
      renderHead document ++ (options.renderEntries entries ++
        renderComments document.commentsAfter) := by
    rw [Options.assemble, renderHead, List.append_assoc, List.append_assoc, List.append_assoc]
  rw [text, leads_render_head sound] at given
  rcases given with ⟨more, given, _⟩
  exact Options.readable_of_gives entriesSound ascii settles given

end Bibliography
