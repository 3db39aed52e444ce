import Bibliography.Proofs.Layout
import Bibliography.Render
import Mathlib.Data.List.Basic

/-!
Rendered entries in terms of the grammar. With the options that rewrite the words of
a value off, every value is rendered as a written value; whenever all values of an
entry are, its fields are the body of an entry that names them in written order.
-/

namespace Bibliography

theorem Text.join_with_cons_cons (separator first second : Text) (others : List Text) :
    joinWith separator (first :: second :: others) =
      first ++ (separator ++ joinWith separator (second :: others)) := by
  simp [joinWith, List.intercalate]

open Text Source

namespace Source

theorem value_text_cases {text : Text} {value : Value} (valued : ValueText text value) :
    PartText text value ∨
      value.delimiter = .bare ∧ Spot.Completes ⟨.vacant, false⟩ text true := by
  cases valued with
  | single part => exact .inl part
  | joined parts => exact .inr ⟨rfl, by simpa using Spot.parts_complete false parts⟩

theorem part_text_delimited {text : Text} {value : Value} (part : PartText text value) :
    match value.delimiter with
    | .braces => Balanced value.text
    | .quotes => Quotable value.text
    | .bare => value.text ≠ [] ∧ ∀ char ∈ value.text, isBareChar char = true := by
  cases part with
  | braced balanced => exact balanced
  | quoted quotable => exact quotable
  | token nonempty bare => exact ⟨nonempty, bare⟩

theorem sound_braces_iff (text : Text) : SoundValue ⟨text, .braces⟩ ↔ Balanced text := by
  constructor
  · intro sound
    rcases value_text_cases sound with part | ⟨bare, _⟩
    · exact part_text_delimited part
    · simp at bare
  · intro balanced
    exact .single (.braced balanced)

theorem sound_quotes_iff (text : Text) : SoundValue ⟨text, .quotes⟩ ↔ Quotable text := by
  constructor
  · intro sound
    rcases value_text_cases sound with part | ⟨bare, _⟩
    · exact part_text_delimited part
    · simp at bare
  · intro quotable
    exact .single (.quoted quotable)

/-- A bare value is a token, or the walk over it passes a number sign. -/
theorem sound_bare_cases {text : Text} (sound : SoundValue ⟨text, .bare⟩) :
    (text ≠ [] ∧ ∀ char ∈ text, isBareChar char = true) ∨
      Spot.Completes ⟨.vacant, false⟩ text true := by
  rcases value_text_cases sound with part | ⟨_, several⟩
  · exact .inl (part_text_delimited part)
  · exact .inr several

theorem value_text_unique {text : Text} {left right : Value} (first : ValueText text left)
    (second : ValueText text right) : left = right := by
  have ends : EndsValue [] := ⟨by simp [EndsToken], rfl⟩
  have one := read_value_complete first is_gap_nil ends
  have two := read_value_complete second is_gap_nil ends
  exact (Prod.mk.inj (Except.ok.inj (one.symm.trans two))).1

end Source

theorem order_names_perm (names : List Text) : (orderNames names).Perm names :=
  List.mergeSort_perm _ _

namespace Options

/-- The options that rewrite the words or the delimiters of values are off. -/
structure IsPlain (options : Options) : Prop where
  curly : options.curly = false
  stripBraces : options.stripBraces = false
  dropCaps : options.dropCaps = false
  escape : options.escape = false

variable {options : Options}

theorem tidy_text_plain (plain : options.IsPlain) (name text : Text) :
    options.tidyText name text =
      if name = "pages".toList then Layout.pageRange (Layout.joinLines text)
      else Layout.joinLines text := by
  simp [tidyText, plain.stripBraces, plain.dropCaps, plain.escape]

theorem joined_tidy_text (plain : options.IsPlain) (name text : Text) :
    Layout.Joined (options.tidyText name text) := by
  rw [tidy_text_plain plain]
  split
  · exact Layout.joined_page_range (Layout.joined_join_lines text)
  · exact Layout.joined_join_lines text

theorem fences_tidy_text (plain : options.IsPlain) (name text : Text) :
    fences (options.tidyText name text) = fences text := by
  rw [tidy_text_plain plain]
  split
  · rw [Layout.fences_page_range, Layout.fences_join_lines]
  · exact Layout.fences_join_lines text

theorem completes_join_lines {text : Text} {several : Bool}
    (completes : Spot.Completes ⟨.vacant, false⟩ text several) :
    Spot.Completes ⟨.vacant, false⟩ (Layout.joinLines text) several := by
  obtain ⟨place, walked, ended⟩ := completes
  have again : Spot.Completes ⟨.vacant, false⟩ (Layout.joinLinesAfter [] text) several := by
    refine ⟨place, ?_, ended⟩
    rw [Layout.walk_join_lines_after _ is_gap_nil]
    exact walked
  obtain ⟨lead, body, gap, values, parts, leadBlanks, gapBlanks, written, count⟩ :=
    Spot.parts_of_completes again
  have starts := parts_start_solid written []
  rw [List.append_nil] at starts
  rw [Layout.joinLines, parts, trim_gaps leadBlanks gapBlanks starts (parts_end_solid written),
    count]
  exact Spot.parts_complete false written

theorem completes_tidy_text (plain : options.IsPlain) (name : Text) {text : Text} {several : Bool}
    (completes : Spot.Completes ⟨.vacant, false⟩ text several) :
    Spot.Completes ⟨.vacant, false⟩ (options.tidyText name text) several := by
  have joined := completes_join_lines completes
  rw [tidy_text_plain plain]
  split
  · obtain ⟨place, walked, ended⟩ := joined
    exact ⟨place, (Layout.widens_page_range _).walks _ _ walked, ended⟩
  · exact joined

theorem joined_of_bare {text : Text} (bare : ∀ char ∈ text, isBareChar char = true) :
    Layout.Joined text := by
  have solid : ∀ char ∈ text, isBlank char = false := fun char member =>
    ((is_bare_char_iff char).1 (bare char member)).1
  refine ⟨?_, fun char first => solid char (List.mem_of_mem_head? first),
    fun char last => solid char (List.mem_of_getLast? last)⟩
  intro feed
  exact absurd (solid '\n' feed) (by decide)

theorem bare_tidy_text (plain : options.IsPlain) (name : Text) {text : Text}
    (nonempty : text ≠ []) (bare : ∀ char ∈ text, isBareChar char = true) :
    options.tidyText name text ≠ [] ∧
      ∀ char ∈ options.tidyText name text, isBareChar char = true := by
  rw [tidy_text_plain plain, Layout.join_lines_of_joined (joined_of_bare bare)]
  split
  · refine ⟨?_, fun char member => bare char (Layout.mem_page_range text char member)⟩
    intro empty
    have head := (Layout.widens_page_range text).head
    rw [empty] at head
    exact nonempty (List.head?_eq_none_iff.1 head.symm)
  · exact ⟨nonempty, bare⟩

theorem sound_tidy_text (plain : options.IsPlain) (name : Text) {value : Value}
    (sound : SoundValue value) :
    SoundValue ⟨options.tidyText name value.text, value.delimiter⟩ := by
  obtain ⟨text, delimiter⟩ := value
  have same := (fences_tidy_text plain name text).symm
  cases delimiter with
  | braces =>
      rw [sound_braces_iff] at sound ⊢
      exact balanced_of_same_fences same sound
  | quotes =>
      rw [sound_quotes_iff] at sound ⊢
      exact quotable_of_same_fences same sound
  | bare =>
      rcases sound_bare_cases sound with ⟨nonempty, bare⟩ | several
      · obtain ⟨some, chars⟩ := bare_tidy_text plain name nonempty bare
        exact .single (.token some chars)
      · have joined := joined_tidy_text plain name text
        obtain ⟨value, valued, isBare⟩ :=
          Spot.value_of_completes (completes_tidy_text plain name several)
        rw [isBare rfl, trim_solid joined.starts joined.ends] at valued
        exact valued

theorem bare_of_ascii_digit {char : Char} (digit : isAsciiDigit char = true) :
    isBareChar char = true := by
  apply bare_of_digit
  simp only [isAsciiDigit, Bool.and_eq_true, decide_eq_true_eq, Char.le_def,
    UInt32.le_iff_toNat_le] at digit
  have first : 48 ≤ char.toNat ∧ char.toNat ≤ 57 := digit
  simp [isDigit, inRanges, digitRanges, first]

theorem bare_form_token {name text bare : Text}
    (found : options.bareForm? name text = some bare) : PartText bare ⟨bare, .bare⟩ := by
  unfold bareForm? at found
  split at found
  · split at found
    · next numeral =>
        have same := Option.some.inj found
        subst same
        simp only [isNumeral, Bool.and_eq_true, List.all_eq_true] at numeral
        unfold dropLeadingZeros
        split
        · exact .token (by simp) (List.all_eq_true.1 (by decide))
        · next nonempty =>
            refine .token nonempty ?_
            intro char member
            exact bare_of_ascii_digit
              (numeral.2 char ((List.dropWhile_suffix _).subset member))
    · have months : (monthNames.all fun short =>
          !short.isEmpty && short.all isBareChar) = true := by
        decide
      simp only [monthName?] at found
      split at found
      · next month =>
          have same := Option.some.inj found
          subst same
          have passed := List.all_eq_true.1 months _ month.2
          rw [Bool.and_eq_true, Bool.not_eq_true', List.isEmpty_eq_false_iff] at passed
          exact .token passed.1 (List.all_eq_true.1 passed.2)
      · simp at found
  · simp at found

def Readable (options : Options) (field : Field) : Prop :=
  ∃ value, ValueText (options.renderValue field.1 field.2) value

theorem readable_plain (plain : options.IsPlain) {field : Field} (sound : SoundValue field.2) :
    options.Readable field := by
  unfold Readable renderValue
  simp only [plain.curly, Bool.false_eq_true, if_false]
  split
  · next bare found => exact ⟨_, .single (bare_form_token found)⟩
  · exact ⟨_, sound_tidy_text plain field.1 sound⟩

/-- A field that is read where the other one was rendered. -/
structure Rereads (options : Options) (field again : Field) : Prop where
  named : again.1 = field.1
  valued : ValueText (options.renderValue field.1 field.2) again.2

def writtenFields (options : Options) (entry : Entry) : List Field :=
  (options.writtenNames entry).filterMap fun name =>
    (entry.get? name).map fun value => (name, value)

theorem render_fields_eq (options : Options) (entry : Entry) :
    options.renderFields entry =
      (options.writtenFields entry).map fun field => options.renderField field.1 field.2 := by
  unfold renderFields writtenFields
  rw [List.map_filterMap]
  congr 1
  funext name
  cases entry.get? name <;> rfl

theorem mem_written_names_iff {entry : Entry} {name : Text} :
    name ∈ options.writtenNames entry ↔ name ∈ entry.fields.names ∧ name ∉ options.omitted := by
  unfold writtenNames
  dsimp only
  split
  · rw [(order_names_perm _).mem_iff]
    simp
  · simp

theorem mem_written_names {entry : Entry} {name : Text}
    (member : name ∈ options.writtenNames entry) : name ∈ entry.fields.names :=
  (mem_written_names_iff.1 member).1

theorem nodup_written_names (options : Options) (entry : Entry) :
    (options.writtenNames entry).Nodup := by
  have distinct : entry.fields.names.Nodup := entry.fields.nodup
  unfold writtenNames
  simp only
  split
  · exact (order_names_perm _).nodup_iff.2 (distinct.filter _)
  · exact distinct.filter _

theorem written_names_all (omitted : options.omitted = []) (sortFields : options.sortFields = false)
    (entry : Entry) : options.writtenNames entry = entry.fields.names := by
  simp [writtenNames, omitted, sortFields]

theorem get_of_mem_names {entry : Entry} {name : Text} (member : name ∈ entry.fields.names) :
    ∃ value, entry.get? name = some value := by
  cases found : entry.get? name with
  | some value => exact ⟨value, rfl⟩
  | none => exact absurd member ((Field.find_eq_none_iff _ _).1 found)

theorem names_written_fields (options : Options) (entry : Entry) :
    Field.names (options.writtenFields entry) = options.writtenNames entry := by
  unfold Field.names writtenFields
  rw [List.map_filterMap]
  have known : ∀ name ∈ options.writtenNames entry,
      ((entry.get? name).map fun value => (name, value)).map Prod.fst = some name := by
    intro name member
    obtain ⟨value, found⟩ := get_of_mem_names (mem_written_names member)
    rw [found]
    rfl
  rw [List.filterMap_congr known, List.filterMap_some]

theorem mem_written_fields {entry : Entry} {field : Field}
    (member : field ∈ options.writtenFields entry) : field ∈ entry.fields.toList := by
  obtain ⟨name, _, found⟩ := List.mem_filterMap.1 member
  obtain ⟨value, got, rfl⟩ := Option.map_eq_some_iff.1 found
  exact (Fields.get_eq_some_iff entry.fields name value).1 got

theorem mem_written_fields_all (omitted : options.omitted = [])
    (sortFields : options.sortFields = false) {entry : Entry} {field : Field}
    (member : field ∈ entry.fields.toList) : field ∈ options.writtenFields entry := by
  have found := (Fields.get_eq_some_iff entry.fields field.1 field.2).2 member
  apply List.mem_filterMap.2
  refine ⟨field.1, ?_, ?_⟩
  · rw [written_names_all omitted sortFields]
    exact List.mem_map_of_mem member
  · rw [Entry.get?, found]
    rfl

theorem is_gap_indent (options : Options) : IsGap options.indent := by
  unfold indent
  split
  · intro char member
    rw [List.mem_singleton.1 member]
    decide
  · intro char member
    rw [(List.mem_replicate.1 member).2]
    decide

theorem is_gap_spaces (count : Nat) : IsGap (List.replicate count ' ') := by
  intro char member
  rw [(List.mem_replicate.1 member).2]
  decide

/-- A rendered field behind its indent, with a gap before the separator. -/
theorem assigned_render {field again : Field} (named : NameText field.1)
    (rereads : options.Rereads field again) {gap : Text} (blanks : IsGap gap) :
    ∃ text, options.renderField field.1 field.2 ++ gap = options.indent ++ text ∧
      AssignedText text again := by
  obtain ⟨name, value⟩ := again
  obtain ⟨rfl, valued⟩ := rereads
  have space : IsGap [' '] := is_gap_spaces 1
  refine ⟨_, ?_, .mk named (is_gap_spaces (fieldWidth - field.1.length)) space valued blanks⟩
  simp [renderField, padRight]

theorem fields_text_render {fields again : List Field}
    (named : ∀ field ∈ fields, NameText field.1)
    (rereads : List.Forall₂ options.Rereads fields again) :
    ∃ lead rest, IsGap lead ∧ FieldsText '}' rest again ∧
      joinWith ",\n".toList (fields.map fun field => options.renderField field.1 field.2) ++
        "\n\x7d".toList = lead ++ rest := by
  have feed : IsGap ['\n'] := is_gap_cons.2 ⟨by decide, is_gap_nil⟩
  induction rereads with
  | nil => exact ⟨['\n'], ['}'], feed, .closed, rfl⟩
  | @cons field first fields others read rest induction =>
      have name := named field (by simp)
      cases rest with
      | nil =>
          obtain ⟨text, parts, assigned⟩ := assigned_render name read feed
          refine ⟨options.indent, text ++ ['}'], is_gap_indent options, .last assigned, ?_⟩
          rw [← List.append_assoc, ← parts]
          simp [joinWith, List.intercalate]
      | @cons next second fields others readNext readRest =>
          obtain ⟨lead, tail, leadBlanks, written, same⟩ :=
            induction fun other member => named other (by simp [member])
          obtain ⟨text, parts, assigned⟩ := assigned_render name read is_gap_nil
          refine ⟨options.indent, text ++ ',' :: (('\n' :: lead) ++ tail), is_gap_indent options,
            .more assigned (is_gap_append feed leadBlanks) written, ?_⟩
          rw [List.append_nil] at parts
          rw [List.map_cons] at same
          rw [List.map_cons, List.map_cons, join_with_cons_cons, List.append_assoc,
            List.append_assoc, same, parts]
          simp

def renderBody (options : Options) (entry : Entry) : Text :=
  entry.key ++ ",\n".toList ++ joinWith ",\n".toList (options.renderFields entry) ++
    "\n\x7d".toList

theorem render_entry_eq (options : Options) (entry : Entry) :
    options.renderEntry entry = renderComments entry.comments ++
      '@' :: (lower entry.kind ++ '{' :: options.renderBody entry) := by
  simp [renderEntry, renderBody]

theorem entry_text_render {entry : Entry} (sound : SoundEntry entry) {again : List Field}
    (rereads : List.Forall₂ options.Rereads (options.writtenFields entry) again) :
    EntryText '}' (options.renderBody entry) entry.key again := by
  have named : ∀ field ∈ options.writtenFields entry, NameText field.1 := by
    intro field member
    exact (sound.fields field (mem_written_fields member)).named
  obtain ⟨lead, rest, leadBlanks, written, same⟩ := fields_text_render named rereads
  have body : options.renderBody entry =
      [] ++ entry.key ++ [] ++ ',' :: (('\n' :: lead) ++ rest) := by
    rw [renderBody, render_fields_eq, List.append_assoc, same]
    simp
  rw [body]
  exact .listed is_gap_nil sound.keyed is_gap_nil
    (is_gap_append (is_gap_cons.2 ⟨by decide, is_gap_nil⟩) leadBlanks) written

end Options

end Bibliography
