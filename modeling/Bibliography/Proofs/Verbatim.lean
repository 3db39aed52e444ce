import Bibliography.Proofs.Source.Concatenation
import Bibliography.Proofs.Source.Within
import Bibliography.Proofs.Render

/-!
What a document keeps of its source. Every value stands in the source as it is written,
and wherever its written form stands before a separator it is read as the same value
again. Keys, names, kinds and comments stay in the classes that they were read by.
Nothing is claimed about the order in which values stand in the source.
-/

namespace Bibliography

open Text Source

namespace Entry

def values (entry : Entry) : List Value := entry.fields.toList.map Prod.snd

end Entry

namespace Document

def values (document : Document) : List Value :=
  document.preamble.toList ++ document.abbreviations.map Abbreviation.value ++
    document.entries.flatMap Entry.values

end Document

namespace Source

def Item.values : Item → List Value
  | .comment _ => []
  | .preamble value => [value]
  | .abbreviation found => [found.value]
  | .entry found => found.values

/-- The value stands in the text as it is written. -/
def Holds (text : Text) (value : Value) : Prop := value.written <:+: text

namespace Holds

theorem longer {text whole : Text} {value : Value} (held : Holds text value)
    (inside : text <:+: whole) : Holds whole value :=
  held.trans inside

theorem before {text : Text} {value : Value} (held : Holds text value) (back : Text) :
    Holds (text ++ back) value :=
  held.longer (List.prefix_append text back).isInfix

theorem behind {text : Text} {value : Value} (held : Holds text value) (front : Text) :
    Holds (front ++ text) value :=
  held.longer (List.suffix_append front text).isInfix

theorem of_value_text {text : Text} {value : Value} (valued : ValueText text value) :
    Holds text value := by
  obtain rfl := value_text_written valued
  exact List.infix_rfl

end Holds

theorem read_value_holds {text rest : Text} {value : Value}
    (read : readValue text = .ok (value, rest)) : Holds text value := by
  rcases read_value_sound read with ⟨lead, body, _, valued, rfl⟩
  exact ((Holds.of_value_text valued).behind lead).before rest

theorem assigned_text_holds {text : Text} {field : Field} (assigned : AssignedText text field) :
    Holds text field.2 := by
  cases assigned with
  | @mk name before behind body gap value _ _ _ valued _ =>
      have held := ((Holds.of_value_text valued).behind behind).before gap
      exact (held.behind ['=']).behind (name ++ before)

theorem fields_text_holds {closer : Char} {text : Text} {listed : List Field}
    (written : FieldsText closer text listed) : ∀ field ∈ listed, Holds text field.2 := by
  induction written with
  | closed => simp
  | last assigned =>
      intro field member
      rw [List.mem_singleton.1 member]
      exact (assigned_text_holds assigned).before [closer]
  | @more text lead rest first fields assigned _ _ induction =>
      intro field member
      rcases List.mem_cons.1 member with rfl | later
      · exact (assigned_text_holds assigned).before _
      · exact ((induction field later).behind (',' :: lead)).behind text

theorem entry_text_holds {closer : Char} {text key : Text} {listed : List Field}
    (written : EntryText closer text key listed) : ∀ field ∈ listed, Holds text field.2 := by
  cases written with
  | closed => simp
  | @listed lead key gap next rest _ _ _ _ _ others =>
      intro field member
      exact ((fields_text_holds others field member).behind (',' :: next)).behind
        (lead ++ key ++ gap)

theorem entry_of_values {kind key : Text} {listed : List Field} {value : Value}
    (member : value ∈ (entryOf kind key listed).values) : ∃ field ∈ listed, field.2 = value := by
  rcases List.mem_map.1 member with ⟨kept, inside, rfl⟩
  rcases List.mem_map.1 (mem_of_list inside) with ⟨field, known, rfl⟩
  exact ⟨field, known, rfl⟩

theorem read_entry_holds {kind opening text rest : Text} {enclosure : Enclosure} {entry : Entry}
    (read : readEntry kind enclosure opening text = .ok (entry, rest)) :
    ∀ value ∈ entry.values, Holds text value := by
  rcases read_entry_sound read with ⟨body, key, listed, written, rfl, rfl⟩
  intro value member
  rcases entry_of_values member with ⟨field, known, rfl⟩
  exact (entry_text_holds written field known).before rest

theorem read_preamble_holds {enclosure : Enclosure} {text rest : Text} {value : Value}
    (read : readPreamble enclosure text = .ok (value, rest)) : Holds text value := by
  obtain ⟨last, valued⟩ := read_preamble_value read
  exact read_value_holds valued

theorem read_abbreviation_holds {enclosure : Enclosure} {text rest : Text}
    {abbreviation : Abbreviation}
    (read : readAbbreviation enclosure text = .ok (abbreviation, rest)) :
    Holds text abbreviation.value := by
  obtain ⟨assigned, last, named, valued⟩ := read_abbreviation_value read
  have inside : assigned <:+ text := (read_assignment_suffix named).trans (skip_blank_suffix text)
  exact (read_value_holds valued).longer inside.isInfix

theorem read_block_holds {seen : Bool} {opening rest : Text} {header : Header}
    {items : List Item} (read : readBlock seen opening header = .ok (items, rest)) :
    ∀ item ∈ items, ∀ value ∈ item.values, Holds header.body value := by
  cases read_block_iff.1 read with
  | comment =>
      intro item member
      obtain ⟨comment, _, rfl⟩ := List.mem_map.1 member
      simp [Item.values]
  | preamble _ _ inner => simpa [Item.values] using read_preamble_holds inner
  | abbreviation _ inner => simpa [Item.values] using read_abbreviation_holds inner
  | entry _ inner => simpa [Item.values] using read_entry_holds inner

/-- The step: only a block gives values, and they stand in its body. -/
theorem stepped_holds {seen : Bool} {text rest : Text} {items : List Item}
    (stepped : Stepped seen text items rest) :
    ∀ item ∈ items, ∀ value ∈ item.values, Holds text value := by
  cases stepped with
  | blank => simp
  | percent => simp [Item.values]
  | loose => simp [Item.values]
  | @block _ _ before opening _ header _ _ _ _ found read =>
      intro item member value known
      rcases List.mem_append.1 member with early | inside
      · unfold looseComment at early
        split at early
        · simp at early
        · rw [List.mem_singleton.1 early] at known
          simp [Item.values] at known
      · rcases find_header_start found with ⟨parts, opened⟩
        have body := (List.suffix_cons _ header.body).trans (read_header_suffix opened)
        rw [parts]
        exact ((read_block_holds read item inside value known).longer body.isInfix).behind before

theorem trace_holds {seen : Bool} {text : Text} {items : List Item}
    (trace : Trace seen text items) : ∀ item ∈ items, ∀ value ∈ item.values, Holds text value := by
  induction trace with
  | done => simp
  | @onward seen text rest found items nonempty stepped later induction =>
      intro item member value known
      rcases List.mem_append.1 member with here | behind
      · exact stepped_holds stepped item here value known
      · exact (induction item behind value known).longer (stepped_suffix stepped).isInfix

namespace Draft

theorem values_add {draft : Draft} {item : Item} {value : Value}
    (member : value ∈ (draft.add item).document.values) :
    value ∈ draft.document.values ∨ value ∈ item.values := by
  cases item with
  | comment text => exact .inl member
  | preamble other =>
      simp only [add, setPreamble, settle, Document.values, Option.toList_some, List.mem_append,
        List.mem_singleton] at member
      simp only [Document.values, List.mem_append, Item.values, List.mem_singleton]
      tauto
  | abbreviation other =>
      simp only [add, addAbbreviation, settle, Document.values, List.map_append, List.map_cons,
        List.map_nil, List.mem_append, List.mem_singleton] at member
      simp only [Document.values, List.mem_append, Item.values, List.mem_singleton]
      tauto
  | entry other =>
      simp only [add, addEntry, Document.values, List.flatMap_append, List.flatMap_singleton,
        List.mem_append] at member
      simp only [Document.values, List.mem_append, Item.values]
      exact or_assoc.2 member

theorem values_add_all {draft : Draft} {items : List Item} {value : Value}
    (member : value ∈ (draft.addAll items).document.values) :
    value ∈ draft.document.values ∨ ∃ item ∈ items, value ∈ item.values := by
  induction items generalizing draft with
  | nil => exact .inl member
  | cons item rest induction =>
      rcases induction member with known | ⟨other, listed, found⟩
      · rcases values_add known with early | here
        · exact .inl early
        · exact .inr ⟨item, List.mem_cons_self, here⟩
      · exact .inr ⟨other, List.mem_cons_of_mem _ listed, found⟩

end Draft

theorem parse_holds {text : Text} {document : Document}
    (parsed : Document.parse text = .ok document) :
    ∀ value ∈ document.values, Holds text value := by
  rcases parse_ok_iff.1 parsed with ⟨items, given, rfl⟩
  intro value member
  have split : value ∈ ({} : Draft).document.values ∨ ∃ item ∈ items, value ∈ item.values :=
    Draft.values_add_all member
  rcases split with none | ⟨item, listed, found⟩
  · simp [Document.values] at none
  · exact trace_holds (trace_of_gives given) item listed value found

theorem values_sound {document : Document} (sound : SoundDocument document) :
    ∀ value ∈ document.values, SoundValue value := by
  intro value member
  rcases List.mem_append.1 member with outside | field
  · rcases List.mem_append.1 outside with preamble | abbreviation
    · exact sound.preamble value (Option.mem_toList.1 preamble)
    · rcases List.mem_map.1 abbreviation with ⟨known, listed, rfl⟩
      exact (sound.abbreviations known listed).valued
  · rcases List.mem_flatMap.1 field with ⟨entry, listed, inside⟩
    rcases List.mem_map.1 inside with ⟨known, found, rfl⟩
    exact ((sound.entries entry listed).fields known found).valued

theorem comments_sound {document : Document} (sound : SoundDocument document) :
    ∀ comment ∈ document.comments, CommentText comment := by
  intro comment member
  rcases List.mem_append.1 member with early | after
  · rcases List.mem_append.1 early with before | inside
    · exact sound.commentsBefore comment before
    · rcases List.mem_flatMap.1 inside with ⟨entry, listed, found⟩
      exact (sound.entries entry listed).comments comment found
  · exact sound.commentsAfter comment after

/-- What may follow a value inside a block. -/
def separators : Text := [',', '}', ')']

theorem ends_value_separator {char : Char} (separator : char ∈ separators) (rest : Text) :
    EndsValue (char :: rest) := by
  have checked : (separators.all fun char => isMark char && char != '#') = true := by
    decide
  have found := List.all_eq_true.1 checked char separator
  rw [Bool.and_eq_true, bne_iff_ne] at found
  exact ends_value_gap is_gap_nil rest found.1 found.2

/-- A value as it is kept: its written form can be read again before any separator, and
its text is one that its delimiter can hold. -/
structure Kept (value : Value) : Prop where
  again : ∀ char ∈ separators, ∀ rest,
    readValue (value.written ++ char :: rest) = .ok (value, char :: rest)
  braced : value.delimiter = .braces → Balanced value.text
  quoted : value.delimiter = .quotes → Quotable value.text
  bare : value.delimiter = .bare →
    trim value.text = value.text ∧
      (PartText value.text value ∨
        ∃ first second others, PartsText value.text (first :: second :: others))

theorem kept_of_sound {value : Value} (sound : SoundValue value) : Kept value where
  again := by
    intro char separator rest
    have read := read_value_complete sound is_gap_nil (ends_value_separator separator rest)
    rwa [List.nil_append] at read
  braced := by
    intro same
    rcases value with ⟨text, delimiter⟩
    subst same
    exact (sound_braces_iff text).1 sound
  quoted := by
    intro same
    rcases value with ⟨text, delimiter⟩
    subst same
    exact (sound_quotes_iff text).1 sound
  bare := by
    intro same
    rcases value with ⟨text, delimiter⟩
    subst same
    rcases value_text_parts sound with ⟨values, parts⟩
    have starts := parts_start_solid parts []
    rw [List.append_nil] at starts
    refine ⟨trim_solid starts (parts_end_solid parts), ?_⟩
    cases sound with
    | single part => exact .inl part
    | joined several => exact .inr ⟨_, _, _, several⟩

end Source

/-- A document that represents a source. -/
structure Represents (source : Text) (document : Document) : Prop where
  kept : ∀ value ∈ document.values, Kept value
  held : ∀ value ∈ document.values, Holds source value
  keyed : ∀ entry ∈ document.entries, KeyText entry.key
  named : ∀ abbreviation ∈ document.abbreviations, NameText abbreviation.name
  kind : ∀ entry ∈ document.entries, KindText entry.kind ∧ lower entry.kind ∉ blockKinds
  comments : ∀ comment ∈ document.comments, CommentText comment
  anchored : document.commentsBefore ≠ [] →
    document.preamble.isSome ∨ document.abbreviations ≠ []

/-- What has been read represents its source. -/
theorem parse_represents {text : Text} {document : Document}
    (parsed : Document.parse text = .ok document) : Represents text document := by
  have sound := parse_sound parsed
  exact {
    kept := fun value member => kept_of_sound (values_sound sound value member)
    held := parse_holds parsed
    keyed := fun entry member => (sound.entries entry member).keyed
    named := fun abbreviation member => (sound.abbreviations abbreviation member).named
    kind := fun entry member =>
      ⟨(sound.entries entry member).kind, (sound.entries entry member).ordinary⟩
    comments := comments_sound sound
    anchored := fun nonempty => sound.anchored.resolve_left nonempty }

def notice : Text :=
  "% head\n@preamble\x7b\"a\" # b\x7d\n@a\x7bkey, c = \"\x7dx\"\x7d\ntail".toList

theorem notice_represented : ∃ document, Document.parse notice = .ok document ∧
    document.values = [⟨"\"a\" # b".toList, .bare⟩, ⟨"\x7dx".toList, .quotes⟩] ∧
    document.comments = [" head".toList, "tail".toList] ∧ Represents notice document := by
  have passed : passes (Document.parse notice) (fun document =>
      decide (document.values = [⟨"\"a\" # b".toList, .bare⟩, ⟨"\x7dx".toList, .quotes⟩] ∧
        document.comments = [" head".toList, "tail".toList])) = true := by
    decide +kernel
  rcases ok_of_passes passed with ⟨document, parsed, found⟩
  have values := of_decide_eq_true found
  exact ⟨document, parsed, values.1, values.2, parse_represents parsed⟩

end Bibliography
