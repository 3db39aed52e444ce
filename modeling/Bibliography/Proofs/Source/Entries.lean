import Bibliography.Proofs.Fields
import Bibliography.Proofs.Source.Values
import Bibliography.Source.Cursor

/-!
Entries are read exactly as they are written. The main statement follows a cursor
from behind the opener of an entry: it stops at a place if and only if the text up
to there is a body of the grammar, and what it adds is the entry that the body
names, its fields inserted one after the other.
-/

namespace Bibliography.Source

open Text

theorem expect_sound {allowed context text rest : Text} {char : Char}
    (read : expect allowed context text = .ok (char, rest)) :
    ∃ gap, IsGap gap ∧ text = gap ++ char :: rest ∧ char ∈ allowed := by
  obtain ⟨gap, blanks, parts⟩ := skip_blank_split text
  unfold expect at read
  split at read
  · simp at read
  · next first others start =>
      split at read
      · next member =>
          obtain ⟨rfl, rfl⟩ := Prod.mk.inj (Except.ok.inj read)
          exact ⟨gap, blanks, by rw [← start]; exact parts, by simpa using member⟩
      · simp at read

theorem expect_complete {allowed : Text} (context : Text) {gap : Text} (rest : Text) {char : Char}
    (blanks : IsGap gap) (solid : isBlank char = false) (member : char ∈ allowed) :
    expect allowed context (gap ++ char :: rest) = .ok (char, rest) := by
  unfold expect
  rw [skip_blank_gap_solid blanks (starts_solid_cons rest solid)]
  exact if_pos (by simpa using member)

theorem read_assignment_sound {text name rest : Text}
    (read : readAssignment? text = some (name, rest)) :
    ∃ before behind, NameText name ∧ IsGap before ∧ IsGap behind ∧
      text = name ++ before ++ '=' :: (behind ++ rest) := by
  unfold readAssignment? at read
  split at read
  · simp at read
  · next nonempty =>
      obtain ⟨last, equals, same⟩ := Option.map_eq_some_iff.1 read
      obtain ⟨rfl, rfl⟩ := Prod.mk.inj same
      obtain ⟨before, beforeBlanks, middle⟩ := skip_blank_split (text.dropWhile isNameChar)
      obtain ⟨behind, behindBlanks, tail⟩ := skip_blank_split last
      refine ⟨before, behind, ⟨nonempty, ?_⟩, beforeBlanks, behindBlanks, ?_⟩
      · intro char member
        exact List.mem_takeWhile_imp member
      · rw [← tail, List.append_assoc, ← after_suffix equals, ← middle]
        exact List.takeWhile_append_dropWhile.symm

theorem name_ends_before_gap {gap : Text} (blanks : IsGap gap) (rest : Text) :
    ∀ char ∈ (gap ++ '=' :: rest).head?, isNameChar char = false := by
  intro char first
  cases gap with
  | nil =>
      obtain rfl : '=' = char := Option.some.inj first
      decide
  | cons blank others =>
      obtain rfl : blank = char := Option.some.inj first
      simp [isNameChar, isKeyChar, not_bare_of_blank (blanks blank (by simp))]

theorem read_assignment_at_equals {name before : Text} (named : NameText name)
    (blanks : IsGap before) (rest : Text) :
    readAssignment? (name ++ before ++ '=' :: rest) = some (name, skipBlank rest) := by
  have ending := name_ends_before_gap blanks rest
  have equals := skip_blank_gap_solid blanks
    (starts_solid_cons rest (show isBlank '=' = false by decide))
  rw [List.append_assoc]
  simp only [readAssignment?, take_while_exact named.2 ending, drop_while_exact named.2 ending,
    equals, after_cons, Option.map_some]
  cases name with
  | nil => exact absurd rfl named.1
  | cons => rfl

theorem read_assignment_complete {name before behind rest : Text} (named : NameText name)
    (beforeBlanks : IsGap before) (behindBlanks : IsGap behind) (solid : StartsSolid rest) :
    readAssignment? (name ++ before ++ '=' :: (behind ++ rest)) = some (name, rest) := by
  rw [read_assignment_at_equals named beforeBlanks, skip_blank_gap_solid behindBlanks solid]

theorem read_key_sound {text key rest : Text} (read : readKey? text = some (key, rest)) :
    ∃ lead gap, IsGap lead ∧ KeyText key ∧ IsGap gap ∧ text = lead ++ key ++ gap ++ rest := by
  obtain ⟨lead, leadBlanks, start⟩ := skip_blank_split text
  simp only [readKey?] at read
  split at read
  · simp at read
  · next nonempty =>
      obtain ⟨rfl, rfl⟩ := Prod.mk.inj (Option.some.inj read)
      obtain ⟨gap, gapBlanks, tail⟩ := skip_blank_split ((skipBlank text).dropWhile isKeyChar)
      refine ⟨lead, gap, leadBlanks, ⟨nonempty, ?_⟩, gapBlanks, ?_⟩
      · intro char member
        exact List.mem_takeWhile_imp member
      · rw [List.append_assoc, ← tail, List.append_assoc, List.takeWhile_append_dropWhile]
        exact start

theorem key_starts_solid {key : Text} (keyed : KeyText key) (rest : Text) :
    StartsSolid (key ++ rest) := by
  cases key with
  | nil => exact absurd rfl keyed.1
  | cons char others =>
      have bare := ((is_key_char_iff char).1 (keyed.2 char (by simp))).1
      exact starts_solid_cons _ ((is_bare_char_iff char).1 bare).1

theorem key_ends_before_gap {gap rest : Text} (blanks : IsGap gap)
    (ending : ∀ char ∈ rest.head?, isKeyChar char = false) :
    ∀ char ∈ (gap ++ rest).head?, isKeyChar char = false := by
  intro char first
  cases gap with
  | nil => exact ending char first
  | cons blank others =>
      obtain rfl : blank = char := Option.some.inj first
      simp [isKeyChar, not_bare_of_blank (blanks blank (by simp))]

theorem read_key_complete {lead key gap rest : Text} (before : IsGap lead) (keyed : KeyText key)
    (behind : IsGap gap) (ending : ∀ char ∈ rest.head?, isKeyChar char = false)
    (solid : StartsSolid rest) :
    readKey? (lead ++ key ++ gap ++ rest) = some (key, rest) := by
  have stop := key_ends_before_gap behind ending
  have start : skipBlank (lead ++ key ++ gap ++ rest) = key ++ (gap ++ rest) := by
    rw [List.append_assoc, List.append_assoc]
    exact skip_blank_gap_solid before (key_starts_solid keyed _)
  simp only [readKey?, start, take_while_exact keyed.2 stop, drop_while_exact keyed.2 stop,
    skip_blank_gap_solid behind solid]
  cases key with
  | nil => exact absurd rfl keyed.1
  | cons => rfl

def lowered (field : Field) : Field := (lower field.1, field.2)

theorem closer_is_mark (enclosure : Enclosure) : isMark enclosure.closer = true := by
  cases enclosure <;> decide

theorem read_fields_closed {closer : Char} {key opening text rest : Text}
    (closed : after? closer (skipBlank text) = some rest) :
    readFields closer key opening text = .ok ([], rest) := by
  rw [readFields]
  split
  · next last again =>
      rw [Option.some.inj (closed.symm.trans again)]
  · next going => simp [closed] at going

theorem read_fields_step {closer separator : Char} {key opening text name assigned rest last : Text}
    {value : Value} (going : after? closer (skipBlank text) = none)
    (named : readAssignment? (skipBlank text) = some (name, assigned))
    (valued : readValue assigned = .ok (value, rest))
    (separated : expect [',', closer] (afterField name key) rest = .ok (separator, last)) :
    readFields closer key opening text =
      if separator = ',' then
        (readFields closer key opening last).map fun read =>
          (lowered (name, value) :: read.1, read.2)
      else .ok ([lowered (name, value)], last) := by
  rw [readFields]
  split
  · next closed => simp [going] at closed
  · split
    · next missing => simp [named] at missing
    · next again =>
        obtain ⟨rfl, rfl⟩ := Prod.mk.inj (Option.some.inj (named.symm.trans again))
        split
        · next failed => simp [valued] at failed
        · next again =>
            obtain ⟨rfl, rfl⟩ := Prod.mk.inj (Except.ok.inj (valued.symm.trans again))
            split
            · next failed => simp [separated] at failed
            · next again =>
                obtain ⟨rfl, rfl⟩ := Prod.mk.inj (Except.ok.inj (separated.symm.trans again))
                split
                · cases readFields closer key opening last <;> rfl
                · rfl

/-- When fields are read from a name on, its value is read, and a separator behind it. -/
theorem value_of_read_fields {closer : Char} {key opening text name assigned : Text}
    {found : List Field × Text} (going : after? closer (skipBlank text) = none)
    (named : readAssignment? (skipBlank text) = some (name, assigned))
    (read : readFields closer key opening text = .ok found) :
    ∃ value rest separator last, readValue assigned = .ok (value, rest) ∧
      expect [',', closer] (afterField name key) rest = .ok (separator, last) := by
  rw [readFields] at read
  split at read
  · next closed => simp [going] at closed
  · split at read
    · simp at read
    · next again =>
        rcases Prod.mk.inj (Option.some.inj (named.symm.trans again)) with ⟨rfl, rfl⟩
        split at read
        · simp at read
        · next valued =>
            split at read
            · simp at read
            · next separated => exact ⟨_, _, _, _, valued, separated⟩

theorem assigned_of_reads {text name assigned rest last context allowed : Text} {value : Value}
    {separator : Char} (named : readAssignment? (skipBlank text) = some (name, assigned))
    (valued : readValue assigned = .ok (value, rest))
    (separated : expect allowed context rest = .ok (separator, last)) :
    ∃ lead body, IsGap lead ∧ AssignedText body (name, value) ∧ separator ∈ allowed ∧
      text = lead ++ body ++ separator :: last := by
  rcases skip_blank_split text with ⟨lead, blanks, parts⟩
  rcases read_assignment_sound named with
    ⟨before, behind, nameText, beforeBlanks, behindBlanks, start⟩
  rcases read_value_sound valued with ⟨extra, body, extraBlanks, valueText, written⟩
  rcases expect_sound separated with ⟨gap, gapBlanks, ending, member⟩
  have field := AssignedText.mk nameText beforeBlanks
    (is_gap_append behindBlanks extraBlanks) valueText gapBlanks
  refine ⟨lead, _, blanks, field, member, ?_⟩
  rw [start, written, ending] at parts
  rw [parts]
  simp

theorem read_fields_sound {closer : Char} {key opening text rest : Text} {fields : List Field}
    (read : readFields closer key opening text = .ok (fields, rest)) :
    ∃ lead body listed, IsGap lead ∧ FieldsText closer body listed ∧
      fields = listed.map lowered ∧ text = lead ++ body ++ rest := by
  fun_induction readFields closer key opening text generalizing fields rest with
  | case1 text last closed =>
      obtain ⟨rfl, rfl⟩ := Prod.mk.inj (Except.ok.inj read)
      obtain ⟨lead, blanks, parts⟩ := skip_blank_split text
      rw [after_suffix closed] at parts
      exact ⟨lead, [closer], [], blanks, .closed, rfl, by rw [parts]; simp⟩
  | case2 => simp at read
  | case3 => simp at read
  | case4 => simp at read
  | case5 => simp at read
  | case6 text _ name assigned named value middle valued last fields final later separated
      field induction =>
      obtain ⟨rfl, rfl⟩ := Prod.mk.inj (Except.ok.inj read)
      rcases assigned_of_reads named valued separated with ⟨lead, body, blanks, field, _, parts⟩
      rcases induction later with ⟨next, others, listed, nextBlanks, rest, same, tail⟩
      refine ⟨lead, _, (name, value) :: listed, blanks, .more field nextBlanks rest, ?_, ?_⟩
      · rw [same]
        rfl
      · rw [parts, tail]
        simp
  | case7 text _ name assigned named value middle valued separator last separated different =>
      obtain ⟨rfl, rfl⟩ := Prod.mk.inj (Except.ok.inj read)
      rcases assigned_of_reads named valued separated with
        ⟨lead, body, blanks, field, allowed, parts⟩
      have closing : separator = closer := by
        rcases List.mem_cons.1 allowed with comma | others
        · exact absurd comma different
        · exact List.mem_singleton.1 others
      refine ⟨lead, _, [(name, value)], blanks, .last field, rfl, ?_⟩
      rw [parts, closing]
      simp

theorem ends_value_gap {gap : Text} (blanks : IsGap gap) {char : Char} (rest : Text)
    (mark : isMark char = true) (noSign : char ≠ '#') : EndsValue (gap ++ char :: rest) := by
  refine ⟨ends_token_gap blanks (not_bare_of_mark mark) rest, ?_⟩
  rw [skip_blank_gap_solid blanks (starts_solid_cons rest (not_blank_of_mark mark))]
  exact if_neg noSign

theorem name_starts_solid {name : Text} (named : NameText name) (rest : Text) :
    StartsSolid (name ++ rest) := by
  have keyed : KeyText name :=
    ⟨named.1, fun char member => ((is_name_char_iff char).1 (named.2 char member)).1⟩
  exact key_starts_solid keyed rest

theorem not_name_of_mark {char : Char} (mark : isMark char = true) : isNameChar char = false := by
  simp [isNameChar, isKeyChar, not_bare_of_mark mark]

theorem after_name_eq_none {mark : Char} (marked : isMark mark = true) {name : Text}
    (named : NameText name) (rest : Text) : after? mark (name ++ rest) = none := by
  cases name with
  | nil => exact absurd rfl named.1
  | cons char others =>
      have different : char ≠ mark := by
        intro same
        have named := named.2 char (by simp)
        rw [same, not_name_of_mark marked] at named
        exact absurd named (by simp)
      exact if_neg different

theorem read_field_complete {enclosure : Enclosure} {lead text : Text} {field : Field}
    {separator : Char} (key opening rest : Text) (assigned : AssignedText text field)
    (blanks : IsGap lead) (allowed : separator ∈ [',', enclosure.closer]) :
    readFields enclosure.closer key opening (lead ++ text ++ separator :: rest) =
      if separator = ',' then
        (readFields enclosure.closer key opening rest).map fun read =>
          (lowered field :: read.1, read.2)
      else .ok ([lowered field], rest) := by
  cases assigned with
  | @mk name before behind body gap value named beforeBlanks behindBlanks valued gapBlanks =>
      have mark : isMark separator = true := by
        rcases List.mem_cons.1 allowed with rfl | others
        · decide
        · rw [List.mem_singleton.1 others]
          exact closer_is_mark enclosure
      have noSign : separator ≠ '#' := by
        intro same
        subst same
        cases enclosure <;> exact absurd allowed (by decide)
      have start : skipBlank (lead ++ (name ++ before ++ '=' :: (behind ++ body ++ gap)) ++
          separator :: rest) =
          name ++ before ++ '=' :: (behind ++ (body ++ (gap ++ separator :: rest))) := by
        rw [List.append_assoc, skip_blank_gap_solid blanks]
        · simp
        · rw [List.append_assoc, List.append_assoc]
          exact name_starts_solid named _
      apply read_fields_step
      · rw [start, List.append_assoc]
        exact after_name_eq_none (closer_is_mark enclosure) named _
      · rw [start]
        exact read_assignment_complete named beforeBlanks behindBlanks (value_starts_solid valued _)
      · have ending := ends_value_gap gapBlanks rest mark noSign
        have read := read_value_complete valued is_gap_nil ending
        rw [List.nil_append] at read
        exact read
      · exact expect_complete _ rest gapBlanks (not_blank_of_mark mark) allowed

theorem read_fields_complete {enclosure : Enclosure} {lead body : Text} {listed : List Field}
    (key opening rest : Text) (written : FieldsText enclosure.closer body listed)
    (blanks : IsGap lead) :
    readFields enclosure.closer key opening (lead ++ body ++ rest) =
      .ok (listed.map lowered, rest) := by
  induction written generalizing lead with
  | closed =>
      have solid := not_blank_of_mark (closer_is_mark enclosure)
      apply read_fields_closed
      rw [List.append_assoc, List.singleton_append,
        skip_blank_gap_solid blanks (starts_solid_cons rest solid), after_cons]
  | last assigned =>
      have different : enclosure.closer ≠ ',' := by cases enclosure <;> decide
      have read := read_field_complete key opening rest assigned blanks
        (List.mem_cons_of_mem _ (List.mem_singleton_self enclosure.closer))
      rw [if_neg different] at read
      rw [← List.append_assoc, List.append_assoc (lead ++ _), List.singleton_append, read]
      rfl
  | @more text next more field fields assigned nextBlanks others induction =>
      have read := read_field_complete key opening (next ++ more ++ rest) assigned blanks
        (show ',' ∈ [',', enclosure.closer] by simp)
      rw [if_pos rfl, induction nextBlanks] at read
      have parts : lead ++ (text ++ ',' :: (next ++ more)) ++ rest =
          lead ++ text ++ ',' :: (next ++ more ++ rest) := by simp
      rw [parts, read]
      rfl

/-- The entry that a body of the grammar names. -/
def entryOf (kind key : Text) (listed : List Field) : Entry :=
  ⟨kind, key, Fields.ofList (listed.map lowered), []⟩

theorem not_key_of_mark {char : Char} (mark : isMark char = true) : isKeyChar char = false := by
  simp [isKeyChar, not_bare_of_mark mark]

theorem read_key_before_mark {lead key gap rest : Text} {mark : Char} (before : IsGap lead)
    (keyed : KeyText key) (behind : IsGap gap) (marked : isMark mark = true) :
    readKey? (lead ++ key ++ gap ++ mark :: rest) = some (key, mark :: rest) := by
  apply read_key_complete before keyed behind
  · intro char first
    obtain rfl : mark = char := Option.some.inj first
    exact not_key_of_mark marked
  · exact starts_solid_cons rest (not_blank_of_mark marked)

theorem entry_text_nonempty {closer : Char} {body key : Text} {listed : List Field}
    (written : EntryText closer body key listed) : body ≠ [] := by
  cases written with
  | closed => simp
  | listed => simp

theorem read_entry_sound {kind opening text rest : Text} {enclosure : Enclosure} {entry : Entry}
    (read : readEntry kind enclosure opening text = .ok (entry, rest)) :
    ∃ body key listed, EntryText enclosure.closer body key listed ∧ text = body ++ rest ∧
      entry = entryOf kind key listed := by
  unfold readEntry at read
  split at read
  · simp at read
  · next key afterwards keyed =>
      obtain ⟨lead, gap, leadBlanks, keyText, gapBlanks, start⟩ := read_key_sound keyed
      split at read
      · simp at read
      · next separator last separated =>
          obtain ⟨extra, extraBlanks, ending, allowed⟩ := expect_sound separated
          have blanks := is_gap_append gapBlanks extraBlanks
          split at read
          · next comma =>
              split at read
              · simp at read
              · next fields final others =>
                  obtain ⟨rfl, rfl⟩ := Prod.mk.inj (Except.ok.inj read)
                  obtain ⟨next, body, listed, nextBlanks, written, rfl, tail⟩ :=
                    read_fields_sound others
                  refine ⟨_, key, listed, .listed leadBlanks keyText blanks nextBlanks written,
                    ?_, rfl⟩
                  rw [start, ending, comma, tail]
                  simp
          · next different =>
              obtain ⟨rfl, rfl⟩ := Prod.mk.inj (Except.ok.inj read)
              have closing : separator = enclosure.closer := by
                rcases List.mem_cons.1 allowed with comma | others
                · exact absurd comma different
                · exact List.mem_singleton.1 others
              refine ⟨_, key, [], .closed leadBlanks keyText blanks, ?_, rfl⟩
              rw [start, ending, closing]
              simp

theorem read_entry_complete {enclosure : Enclosure} {body key : Text} {listed : List Field}
    (kind opening rest : Text) (written : EntryText enclosure.closer body key listed) :
    readEntry kind enclosure opening (body ++ rest) = .ok (entryOf kind key listed, rest) := by
  have allowed : ∀ mark ∈ [',', enclosure.closer], isMark mark = true := by
    cases enclosure <;> exact List.all_eq_true.1 (by decide)
  have separated : ∀ mark ∈ [',', enclosure.closer], ∀ tail,
      expect [',', enclosure.closer] (afterKey key) (mark :: tail) = .ok (mark, tail) := by
    intro mark member tail
    exact expect_complete _ tail is_gap_nil (not_blank_of_mark (allowed mark member)) member
  cases written with
  | @closed lead key gap before keyed behind =>
      have member : enclosure.closer ∈ [',', enclosure.closer] := by simp
      have different : enclosure.closer ≠ ',' := by cases enclosure <;> decide
      have read : readKey? (lead ++ key ++ gap ++ enclosure.closer :: rest) = _ :=
        read_key_before_mark before keyed behind (allowed _ member)
      simp only [readEntry, List.append_assoc, List.singleton_append] at read ⊢
      simp only [read, separated _ member, if_neg different]
      rfl
  | @listed lead key gap next more listed before keyed behind space others =>
      have member : ',' ∈ [',', enclosure.closer] := by simp
      have read : readKey? (lead ++ key ++ gap ++ ',' :: (next ++ more ++ rest)) = _ :=
        read_key_before_mark before keyed behind (allowed _ member)
      have fields := read_fields_complete key opening rest others space
      simp only [readEntry, List.append_assoc, List.cons_append] at read fields ⊢
      simp only [read, separated _ member, if_true, fields]
      rfl

theorem run_block_iff {Result : Type} (cursor after : Cursor)
    (reader : Text → Except Fault (Result × Text)) (items : Result → List Item) :
    cursor.runBlock reader items = (after, .ok ()) ↔
      ∃ result rest, reader cursor.remaining = .ok (result, rest) ∧
        after = { cursor.moveTo rest with draft := cursor.draft.addAll (items result) } := by
  unfold Cursor.runBlock Cursor.run
  cases reader cursor.remaining with
  | error fault => simp [Cursor.fail]
  | ok read =>
      obtain ⟨result, rest⟩ := read
      constructor
      · intro ran
        exact ⟨result, rest, rfl, (Prod.mk.inj ran).1.symm⟩
      · intro found
        rcases found with ⟨_, _, same, rfl⟩
        obtain ⟨rfl, rfl⟩ := Prod.mk.inj (Except.ok.inj same)
        rfl

theorem remaining_extract {cursor : Cursor} {stop : Nat} (order : cursor.position ≤ stop) :
    cursor.remaining =
      cursor.text.extract cursor.position stop ++ cursor.text.drop stop := by
  have parts := List.take_append_drop (stop - cursor.position) cursor.remaining
  rw [Cursor.remaining, List.drop_drop, Nat.add_sub_cancel' order] at parts
  rw [List.extract_eq_take_drop, parts, Cursor.remaining]

/-- Reading an entry succeeds exactly on the bodies of the grammar, and stops right
behind them. The entry takes the waiting comments and has its fields inserted in
order, under names in lower case. -/
theorem entry_read_iff_written (cursor : Cursor) (kind : Text) (enclosure : Enclosure)
    (opening : Nat) (after : Cursor) :
    cursor.readEntry kind enclosure opening = (after, .ok ()) ↔
      ∃ key listed fields,
        cursor.position ≤ after.position ∧ after.position ≤ cursor.text.length ∧
        EntryText enclosure.closer (cursor.text.extract cursor.position after.position)
          key listed ∧
        Inserted (listed.map lowered) fields ∧
        after = ⟨cursor.text, after.position, ⟨[], { cursor.draft.document with
          entries := cursor.draft.document.entries ++
            [⟨kind, key, fields, cursor.draft.waiting⟩] }⟩⟩ := by
  unfold Cursor.readEntry
  rw [run_block_iff]
  constructor
  · intro found
    rcases found with ⟨entry, rest, read, moved⟩
    obtain ⟨body, key, listed, written, parts, rfl⟩ := read_entry_sound read
    have place : after.position = cursor.position + body.length := by
      rw [moved, Cursor.moveTo, parts]
      simp
    have inside : after.position ≤ cursor.text.length := by
      have size := congrArg List.length parts
      have positive : 0 < body.length := List.length_pos_iff.2 (entry_text_nonempty written)
      rw [Cursor.remaining, List.length_drop, List.length_append] at size
      omega
    have order : cursor.position ≤ after.position := by omega
    have slice : cursor.text.extract cursor.position after.position = body := by
      rw [List.extract_eq_take_drop, place, Nat.add_sub_cancel_left]
      rw [Cursor.remaining] at parts
      rw [parts, List.take_left]
    refine ⟨key, listed, _, order, inside, slice ▸ written, inserted_of_list _, ?_⟩
    rw [moved]
    rfl
  · intro found
    rcases found with ⟨key, listed, fields, order, inside, written, inserted, moved⟩
    rw [inserted_iff] at inserted
    have parts := remaining_extract order
    refine ⟨entryOf kind key listed, cursor.text.drop after.position, ?_, ?_⟩
    · rw [parts]
      exact read_entry_complete kind _ _ written
    · have place : cursor.position +
          (cursor.remaining.length - (cursor.text.drop after.position).length) =
          after.position := by
        rw [Cursor.remaining, List.length_drop, List.length_drop]
        omega
      rw [moved, inserted, Cursor.moveTo, place]
      rfl

end Bibliography.Source
