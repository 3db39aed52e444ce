import Bibliography.Proofs.Source.Entries
import Bibliography.Proofs.Text.Case
import Bibliography.Source.Reading

/-!
What every document that has been read looks like. Values are kept with the very
text they were written with, names are in lower case, comments fit on a line, and
comments at the front stand before a preamble or an abbreviation. Later stages rely
on this and do not look at the source again.
-/

namespace Bibliography.Source

open Text

/-- A text that a line of its own gives back: it is on one line and ends solid. -/
def CommentText (comment : Text) : Prop := '\n' ∉ comment ∧ EndsSolid comment

/-- A letter or an underscore, and word characters after it. -/
def KindText (kind : Text) : Prop :=
  ∃ first others, kind = first :: others ∧ (first.isAlpha || first == '_') = true ∧
    ∀ char ∈ others, isWord char = true

/-- The value is written as it was read. -/
def SoundValue (value : Value) : Prop := ValueText value.written value

structure SoundField (field : Field) : Prop where
  named : NameText field.1
  lowered : lower field.1 = field.1
  valued : SoundValue field.2

structure SoundAbbreviation (abbreviation : Abbreviation) : Prop where
  named : NameText abbreviation.name
  valued : SoundValue abbreviation.value

def blockKinds : List Text := ["comment".toList, "preamble".toList, "string".toList]

structure SoundEntry (entry : Entry) : Prop where
  kind : KindText entry.kind
  ordinary : lower entry.kind ∉ blockKinds
  keyed : KeyText entry.key
  fields : ∀ field ∈ entry.fields.toList, SoundField field
  comments : ∀ comment ∈ entry.comments, CommentText comment

structure SoundDocument (document : Document) : Prop where
  preamble : ∀ value ∈ document.preamble, SoundValue value
  abbreviations : ∀ abbreviation ∈ document.abbreviations, SoundAbbreviation abbreviation
  commentsBefore : ∀ comment ∈ document.commentsBefore, CommentText comment
  commentsAfter : ∀ comment ∈ document.commentsAfter, CommentText comment
  entries : ∀ entry ∈ document.entries, SoundEntry entry
  anchored : document.commentsBefore = [] ∨ document.preamble.isSome ∨ document.abbreviations ≠ []

def SoundItem : Item → Prop
  | .comment text => CommentText text
  | .preamble value => SoundValue value
  | .abbreviation abbreviation => SoundAbbreviation abbreviation
  | .entry entry => SoundEntry entry

theorem sound_of_value_text {text : Text} {value : Value} (valued : ValueText text value) :
    SoundValue value := by
  unfold SoundValue
  rw [value_text_written valued]
  exact valued

theorem sound_of_read {text rest : Text} {value : Value}
    (read : readValue text = .ok (value, rest)) : SoundValue value := by
  obtain ⟨lead, body, _, valued, _⟩ := read_value_sound read
  exact sound_of_value_text valued

theorem comment_text_trim {text : Text} (line : '\n' ∉ text) : CommentText (trim text) := by
  refine ⟨?_, ends_solid_trim text⟩
  intro member
  obtain ⟨lead, gap, _, _, parts⟩ := trim_split text
  rw [parts] at line
  exact line (by simp [member])

theorem line_of_take_while (text : Text) : '\n' ∉ text.takeWhile fun char => char != '\n' := by
  intro member
  have different := List.mem_takeWhile_imp member
  simp at different

theorem comment_text_tail {char : Char} {comment : Text} (line : CommentText (char :: comment)) :
    CommentText comment := by
  refine ⟨fun member => line.1 (by simp [member]), ?_⟩
  intro last final
  apply line.2
  cases comment with
  | nil => simp at final
  | cons first others => rw [List.getLast?_cons_cons]; exact final

theorem line_of_find_header {text before start : Text} {header : Header}
    (found : findHeader? text = some (before, start, header)) : '\n' ∉ before := by
  induction text generalizing before with
  | nil => simp [findHeader?] at found
  | cons char others induction =>
      simp only [findHeader?] at found
      split at found
      · simp at found
      · next different =>
          split at found
          · obtain ⟨rfl, _⟩ := Prod.mk.inj (Option.some.inj found)
            simp
          · obtain ⟨⟨inner, tail⟩, cut, same⟩ := Option.map_eq_some_iff.1 found
            obtain ⟨rfl, rfl⟩ := Prod.mk.inj same
            simp only [List.mem_cons, not_or]
            exact ⟨fun same => different same.symm, induction cut⟩

theorem line_of_split {text line : Text} (member : line ∈ lines text) : '\n' ∉ line := by
  unfold lines at member
  induction text generalizing line with
  | nil =>
      have same := List.mem_singleton.1 member
      subst same
      simp
  | cons char rest induction =>
      unfold split at member
      by_cases feed : char = '\n'
      · rw [if_pos feed] at member
        rcases List.mem_cons.1 member with rfl | later
        · simp
        · exact induction later
      · rw [if_neg feed] at member
        cases pieces : split '\n' rest with
        | nil =>
            rw [pieces] at member
            have same := List.mem_singleton.1 member
            subst same
            simpa using Ne.symm feed
        | cons first others =>
            rw [pieces] at member induction
            rcases List.mem_cons.1 member with rfl | later
            · simp only [List.mem_cons, not_or]
              exact ⟨Ne.symm feed, induction (by simp)⟩
            · exact induction (by simp [later])

theorem comment_lines_sound {body comment : Text} (member : comment ∈ commentLines body) :
    CommentText comment := by
  obtain ⟨line, known, rfl⟩ := List.mem_map.1 (List.mem_filter.1 member).1
  exact comment_text_trim (line_of_split known)

theorem read_header_kind {text : Text} {header : Header} (read : readHeader? text = some header) :
    KindText header.kind := by
  unfold readHeader? at read
  split at read
  · simp at read
  · split at read
    · simp at read
    · next first others start =>
        split at read
        · next letter =>
            obtain ⟨opened, _, rfl⟩ := Option.map_eq_some_iff.1 read
            refine ⟨first, _, rfl, letter, ?_⟩
            intro char member
            exact List.mem_takeWhile_imp member
        · simp at read

theorem assigned_text_sound {text : Text} {field : Field} (assigned : AssignedText text field) :
    SoundField (lowered field) := by
  cases assigned with
  | mk named _ _ valued _ =>
      exact ⟨name_text_lower named, lower_lower _, sound_of_value_text valued⟩

theorem fields_text_sound {closer : Char} {text : Text} {listed : List Field}
    (written : FieldsText closer text listed) :
    ∀ field ∈ listed.map lowered, SoundField field := by
  induction written with
  | closed => simp
  | last assigned =>
      intro field member
      have same := List.mem_singleton.1 member
      subst same
      exact assigned_text_sound assigned
  | more assigned _ _ induction =>
      intro field member
      rcases List.mem_cons.1 member with rfl | later
      · exact assigned_text_sound assigned
      · exact induction field later

theorem entry_text_sound {closer : Char} {text key : Text} {listed : List Field}
    (written : EntryText closer text key listed) :
    KeyText key ∧ ∀ field ∈ listed.map lowered, SoundField field := by
  cases written with
  | closed _ keyed _ => exact ⟨keyed, by simp⟩
  | listed _ keyed _ _ others => exact ⟨keyed, fields_text_sound others⟩

theorem mem_put {name : Text} {value : Value} {fields : List Field} {field : Field}
    (member : field ∈ Field.put name value fields) : field = (name, value) ∨ field ∈ fields := by
  induction fields with
  | nil => exact .inl (List.mem_singleton.1 member)
  | cons first rest induction =>
      unfold Field.put at member
      split at member
      · rcases List.mem_cons.1 member with same | later
        · exact .inl same
        · exact .inr (List.mem_cons_of_mem _ later)
      · rcases List.mem_cons.1 member with same | later
        · exact .inr (same ▸ List.mem_cons_self)
        · rcases induction later with same | known
          · exact .inl same
          · exact .inr (List.mem_cons_of_mem _ known)

theorem mem_insert {fields : Fields} {name : Text} {value : Value} {field : Field}
    (member : field ∈ (fields.insert name value).toList) :
    field = (name, value) ∨ field ∈ fields.toList := mem_put member

theorem mem_of_list {listed : List Field} {field : Field}
    (member : field ∈ (Fields.ofList listed).toList) : field ∈ listed := by
  induction listed using List.reverseRecOn with
  | nil => exact absurd member (by simp [Fields.ofList, Fields.empty])
  | append_singleton front last induction =>
      rw [Fields.of_list_append] at member
      rcases mem_insert member with same | earlier
      · exact List.mem_append_right _ (List.mem_singleton.2 same)
      · exact List.mem_append_left _ (induction earlier)

theorem read_entry_sound_entry {kind opening text rest : Text} {enclosure : Enclosure}
    {entry : Entry} (kinded : KindText kind) (ordinary : lower kind ∉ blockKinds)
    (read : readEntry kind enclosure opening text = .ok (entry, rest)) : SoundEntry entry := by
  obtain ⟨body, key, listed, written, _, rfl⟩ := read_entry_sound read
  obtain ⟨keyed, fields⟩ := entry_text_sound written
  exact ⟨kinded, ordinary, keyed, fun field member => fields field (mem_of_list member), by
    simp [entryOf]⟩

theorem read_abbreviation_value {enclosure : Enclosure} {text rest : Text}
    {abbreviation : Abbreviation}
    (read : readAbbreviation enclosure text = .ok (abbreviation, rest)) :
    ∃ assigned last, readAssignment? (skipBlank text) = some (abbreviation.name, assigned) ∧
      readValue assigned = .ok (abbreviation.value, last) := by
  simp only [readAbbreviation] at read
  split at read
  · simp at read
  · next assigned named =>
      split at read
      · simp at read
      · next last valued =>
          split at read
          · simp at read
          · obtain ⟨rfl, rfl⟩ := Prod.mk.inj (Except.ok.inj read)
            exact ⟨assigned, last, named, valued⟩

theorem read_abbreviation_sound {enclosure : Enclosure} {text rest : Text}
    {abbreviation : Abbreviation}
    (read : readAbbreviation enclosure text = .ok (abbreviation, rest)) :
    SoundAbbreviation abbreviation := by
  obtain ⟨assigned, last, named, valued⟩ := read_abbreviation_value read
  obtain ⟨before, behind, nameText, _⟩ := read_assignment_sound named
  exact ⟨nameText, sound_of_read valued⟩

theorem read_preamble_value {enclosure : Enclosure} {text rest : Text} {value : Value}
    (read : readPreamble enclosure text = .ok (value, rest)) :
    ∃ last, readValue text = .ok (value, last) := by
  unfold readPreamble at read
  split at read
  · simp at read
  · next last valued =>
      split at read
      · simp at read
      · obtain ⟨rfl, rfl⟩ := Prod.mk.inj (Except.ok.inj read)
        exact ⟨last, valued⟩

theorem read_preamble_sound {enclosure : Enclosure} {text rest : Text} {value : Value}
    (read : readPreamble enclosure text = .ok (value, rest)) : SoundValue value := by
  obtain ⟨last, valued⟩ := read_preamble_value read
  exact sound_of_read valued

theorem read_comment_sound {enclosure : Enclosure} {text rest : Text} {comments : List Text}
    (read : readComment enclosure text = .ok (comments, rest)) :
    ∀ comment ∈ comments, CommentText comment := by
  cases enclosure with
  | braces =>
      obtain ⟨⟨body, last⟩, _, same⟩ := except_map_ok read
      obtain ⟨rfl, rfl⟩ := Prod.mk.inj same
      intro comment member
      exact comment_lines_sound member
  | parens =>
      simp only [readComment] at read
      split at read
      · obtain ⟨rfl, rfl⟩ := Prod.mk.inj (Except.ok.inj read)
        intro comment member
        exact comment_lines_sound member
      · simp at read

/-- Where a comment block starts: a braced one is read with its opening brace. -/
def Header.commentStart (header : Header) : Text :=
  match header.enclosure with
  | .braces => '{' :: header.body
  | .parens => header.body

/-- What a block is read as, by its kind. -/
inductive BlockRead (hasPreamble : Bool) (opening : Text) (header : Header) :
    List Item → Text → Prop
  | comment {comments : List Text} {rest : Text} (kind : lower header.kind = "comment".toList)
      (read : readComment header.enclosure header.commentStart = .ok (comments, rest)) :
      BlockRead hasPreamble opening header (comments.map .comment) rest
  | preamble {value : Value} {rest : Text} (kind : lower header.kind = "preamble".toList)
      (unseen : hasPreamble = false)
      (read : readPreamble header.enclosure header.body = .ok (value, rest)) :
      BlockRead hasPreamble opening header [.preamble value] rest
  | abbreviation {abbreviation : Abbreviation} {rest : Text}
      (kind : lower header.kind = "string".toList)
      (read : readAbbreviation header.enclosure header.body = .ok (abbreviation, rest)) :
      BlockRead hasPreamble opening header [.abbreviation abbreviation] rest
  | entry {entry : Entry} {rest : Text} (ordinary : lower header.kind ∉ blockKinds)
      (read : readEntry header.kind header.enclosure opening header.body = .ok (entry, rest)) :
      BlockRead hasPreamble opening header [.entry entry] rest

theorem not_mem_block_kinds {kind : Text} :
    kind ∉ blockKinds ↔
      kind ≠ "comment".toList ∧ kind ≠ "preamble".toList ∧ kind ≠ "string".toList := by
  simp only [blockKinds, List.mem_cons, List.not_mem_nil, or_false, not_or, ne_eq]

theorem read_block_iff {hasPreamble : Bool} {opening rest : Text} {header : Header}
    {items : List Item} :
    readBlock hasPreamble opening header = .ok (items, rest) ↔
      BlockRead hasPreamble opening header items rest := by
  constructor
  · intro read
    simp only [readBlock] at read
    split at read
    · next comment =>
        obtain ⟨⟨comments, last⟩, inner, same⟩ := except_map_ok read
        obtain ⟨rfl, rfl⟩ := Prod.mk.inj same
        exact .comment comment inner
    · next noComment =>
        split at read
        · next preamble =>
            split at read
            · simp at read
            · next unseen =>
                obtain ⟨⟨value, last⟩, inner, same⟩ := except_map_ok read
                obtain ⟨rfl, rfl⟩ := Prod.mk.inj same
                exact .preamble preamble (Bool.eq_false_iff.2 unseen) inner
        · next noPreamble =>
            split at read
            · next string =>
                obtain ⟨⟨abbreviation, last⟩, inner, same⟩ := except_map_ok read
                obtain ⟨rfl, rfl⟩ := Prod.mk.inj same
                exact .abbreviation string inner
            · next noString =>
                obtain ⟨⟨entry, last⟩, inner, same⟩ := except_map_ok read
                obtain ⟨rfl, rfl⟩ := Prod.mk.inj same
                exact .entry (not_mem_block_kinds.2 ⟨noComment, noPreamble, noString⟩) inner
  · intro read
    unfold readBlock
    dsimp only
    cases read with
    | comment kind read =>
        rw [if_pos kind]
        exact congrArg (Except.map _) read
    | preamble kind unseen read =>
        rw [kind, if_neg (by decide), if_pos rfl, unseen, read]
        rfl
    | abbreviation kind read =>
        rw [kind, if_neg (by decide), if_neg (by decide), if_pos rfl, read]
        rfl
    | entry ordinary read =>
        obtain ⟨noComment, noPreamble, noString⟩ := not_mem_block_kinds.1 ordinary
        rw [if_neg noComment, if_neg noPreamble, if_neg noString, read]
        rfl

theorem read_block_sound {hasPreamble : Bool} {opening rest : Text} {header : Header}
    {items : List Item} (kinded : KindText header.kind)
    (read : readBlock hasPreamble opening header = .ok (items, rest)) :
    ∀ item ∈ items, SoundItem item := by
  intro item member
  cases read_block_iff.1 read with
  | comment _ inner =>
      obtain ⟨comment, known, rfl⟩ := List.mem_map.1 member
      exact read_comment_sound inner comment known
  | preamble _ _ inner =>
      rw [List.mem_singleton.1 member]
      exact read_preamble_sound inner
  | abbreviation _ inner =>
      rw [List.mem_singleton.1 member]
      exact read_abbreviation_sound inner
  | entry ordinary inner =>
      rw [List.mem_singleton.1 member]
      exact read_entry_sound_entry kinded ordinary inner

theorem loose_comment_sound {text : Text} (comment : CommentText text) :
    ∀ item ∈ looseComment text, SoundItem item := by
  intro item member
  unfold looseComment at member
  split at member
  · simp at member
  · have same := List.mem_singleton.1 member
    subst same
    exact comment

/-- Each step finds sound items only, whether or not it succeeds. -/
theorem step_sound (hasPreamble : Bool) (text : Text) :
    ∀ item ∈ (step hasPreamble text).items, SoundItem item := by
  have line := comment_text_trim (line_of_take_while text)
  have loose : ∀ {before opening : Text} {header : Header},
      findHeader? text = some (before, opening, header) →
        ∀ item ∈ looseComment (trim before), SoundItem item :=
    fun found => loose_comment_sound (comment_text_trim (line_of_find_header found))
  have took := step_takes hasPreamble text
  generalize step hasPreamble text = outcome at took ⊢
  intro item member
  cases took with
  | blank => simp [lineStep] at member
  | percent marked =>
      have same := List.mem_singleton.1 member
      subst same
      rw [after_suffix marked] at line
      exact comment_text_tail line
  | loose =>
      have same := List.mem_singleton.1 member
      subst same
      exact line
  | faulty _ _ found => exact loose found item member
  | block _ _ found read =>
      obtain ⟨_, opened⟩ := find_header_start found
      rcases List.mem_append.1 member with early | inside
      · exact loose found item early
      · exact read_block_sound (read_header_kind opened) read item inside

theorem read_items_sound (hasPreamble : Bool) (text : Text) :
    ∀ item ∈ (readItems hasPreamble text).1, SoundItem item := by
  fun_induction readItems hasPreamble text with
  | case1 => simp
  | case2 => exact step_sound _ _
  | case3 => exact step_sound _ _
  | case4 seen text empty outcome rest stepped shorter going later induction =>
      intro item member
      rcases List.mem_append.1 member with here | behind
      · exact step_sound seen text item here
      · exact induction item behind

structure SoundDraft (draft : Draft) : Prop where
  waiting : ∀ comment ∈ draft.waiting, CommentText comment
  document : SoundDocument draft.document

theorem sound_draft_empty : SoundDraft {} := by
  constructor
  · simp
  · constructor <;> simp

theorem mem_append_sound {Part : Type} {holds : Part → Prop} {front back : List Part}
    (first : ∀ part ∈ front, holds part) (second : ∀ part ∈ back, holds part) :
    ∀ part ∈ front ++ back, holds part := by
  intro part member
  rcases List.mem_append.1 member with early | late
  · exact first part early
  · exact second part late

theorem add_sound {draft : Draft} {item : Item} (sound : SoundDraft draft)
    (itemSound : SoundItem item) : SoundDraft (draft.add item) := by
  obtain ⟨waiting, document⟩ := sound
  have flushed := mem_append_sound document.commentsBefore waiting
  cases item with
  | comment text =>
      refine ⟨mem_append_sound waiting ?_, document⟩
      intro comment member
      exact List.mem_singleton.1 member ▸ itemSound
  | preamble value =>
      refine ⟨by simp [Draft.add, Draft.settle], ?_, document.abbreviations, flushed,
        document.commentsAfter, document.entries, .inr (.inl rfl)⟩
      intro other same
      exact Option.some.inj same ▸ itemSound
  | abbreviation abbreviation =>
      refine ⟨by simp [Draft.add, Draft.settle], document.preamble, ?_, flushed,
        document.commentsAfter, document.entries, .inr (.inr ?_)⟩
      · apply mem_append_sound document.abbreviations
        intro other member
        exact List.mem_singleton.1 member ▸ itemSound
      · exact List.append_ne_nil_of_right_ne_nil _ (by simp)
  | entry entry =>
      refine ⟨by simp [Draft.add, Draft.addEntry], document.preamble, document.abbreviations,
        document.commentsBefore, document.commentsAfter, ?_, document.anchored⟩
      apply mem_append_sound document.entries
      intro other member
      rw [List.mem_singleton.1 member]
      exact ⟨itemSound.kind, itemSound.ordinary, itemSound.keyed, itemSound.fields, waiting⟩

theorem add_all_sound {draft : Draft} {items : List Item} (sound : SoundDraft draft)
    (itemsSound : ∀ item ∈ items, SoundItem item) : SoundDraft (draft.addAll items) := by
  induction items generalizing draft with
  | nil => exact sound
  | cons item rest induction =>
      exact induction (add_sound sound (itemsSound item (by simp)))
        fun other member => itemsSound other (by simp [member])

theorem finish_sound {draft : Draft} (sound : SoundDraft draft) :
    SoundDocument draft.finish.document := by
  obtain ⟨waiting, document⟩ := sound
  exact ⟨document.preamble, document.abbreviations, document.commentsBefore,
    mem_append_sound document.commentsAfter waiting, document.entries, document.anchored⟩

theorem parse_sound {text : Text} {document : Document}
    (parsed : Document.parse text = .ok document) : SoundDocument document := by
  unfold Document.parse at parsed
  split at parsed
  · next items overrun read =>
      rw [← Except.ok.inj parsed]
      apply finish_sound
      apply add_all_sound sound_draft_empty
      have sound := read_items_sound false text
      rw [read] at sound
      exact sound
  · simp at parsed

end Bibliography.Source
