import Bibliography.Proofs.Rereading
import Bibliography.Proofs.RoundTrip

/-!
Tidying twice. Without the spelling of special characters every step of a run reaches
its fixed point at once, except that only the first page range of a value is widened.
So the second run gives the same text exactly if the first one has left no page range
to widen.
-/

namespace Bibliography

open Text Source

namespace Options

def unescaped : Options := { escape := false }

theorem unescaped_plain : unescaped.IsPlain := ⟨rfl, rfl, rfl, rfl⟩

theorem render_value_unescaped (name : Text) (value : Value) :
    unescaped.renderValue name value =
      (⟨unescaped.tidyText name value.text, value.delimiter⟩ : Value).written := rfl

theorem value_of_rendered {name : Text} {value other : Value} (sound : SoundValue value)
    (otherSound : SoundValue other) (same : other.written = unescaped.renderValue name value) :
    other = ⟨unescaped.tidyText name value.text, value.delimiter⟩ := by
  have rendered := sound_tidy_text unescaped_plain name sound
  unfold SoundValue at rendered otherSound
  rw [← render_value_unescaped, ← same] at rendered
  exact value_text_unique otherSound rendered

theorem enclose_injective {delimiter : Delimiter} {left right : Text}
    (same : delimiter.enclose left = delimiter.enclose right) : left = right := by
  cases delimiter with
  | braces => exact List.append_cancel_right (List.cons.inj same).2
  | quotes => exact List.append_cancel_right (List.cons.inj same).2
  | bare => exact same

/-- What is left to widen in the page range of a value after one run. -/
def HasSecondRange (value : Value) : Prop :=
  Layout.HasRange (Layout.pageRange (Layout.joinLines value.text))

instance (value : Value) : Decidable (HasSecondRange value) :=
  inferInstanceAs (Decidable (Layout.HasRange _))

theorem tidy_text_twice_iff (name : Text) (value : Value) :
    unescaped.tidyText name (unescaped.tidyText name value.text) =
        unescaped.tidyText name value.text ↔
      (name = "pages".toList → ¬ HasSecondRange value) := by
  have joined := joined_tidy_text unescaped_plain name value.text
  rw [tidy_text_plain unescaped_plain name (unescaped.tidyText name value.text),
    Layout.join_lines_of_joined joined]
  rw [tidy_text_plain unescaped_plain]
  by_cases pages : name = "pages".toList
  · rw [if_pos pages, if_pos pages, Layout.page_range_eq_self_iff]
    exact ⟨fun settled _ => settled, fun settled => settled pages⟩
  · rw [if_neg pages, if_neg pages]
    exact ⟨fun _ same => absurd same pages, fun _ => rfl⟩

theorem rendered_twice_iff {name : Text} {value other : Value} (sound : SoundValue value)
    (otherSound : SoundValue other) (same : other.written = unescaped.renderValue name value) :
    unescaped.renderValue name other = other.written ↔
      (name = "pages".toList → ¬ HasSecondRange value) := by
  rw [← tidy_text_twice_iff, value_of_rendered sound otherSound same]
  constructor
  · intro settled
    exact enclose_injective settled
  · intro settled
    rw [render_value_unescaped]
    dsimp only
    rw [settled]

/-- An entry whose values have settled is rendered as the one it was read from. -/
theorem render_entry_of_reads_back {entry again : Entry} (reads : ReadsBack unescaped entry again)
    (settled : ∀ name ∈ again.fields.names,
      (again.get? name).map (unescaped.renderValue name) = (again.get? name).map Value.written) :
    unescaped.renderEntry again = unescaped.renderEntry entry := by
  have names : unescaped.writtenNames again = unescaped.writtenNames entry := by
    rw [written_names_all rfl rfl, reads.names]
  have fields : unescaped.renderFields again = unescaped.renderFields entry := by
    unfold renderFields
    rw [names]
    apply List.filterMap_congr
    intro name member
    rw [← reads.names] at member
    have value : (again.get? name).map (unescaped.renderValue name) =
        (entry.get? name).map (unescaped.renderValue name) := by
      rw [settled name member, reads.values name member]
    have line : unescaped.renderField name =
        (fun text => unescaped.indent ++ padRight fieldWidth name ++ "= ".toList ++ text) ∘
          unescaped.renderValue name := rfl
    rw [line, ← Option.map_map, ← Option.map_map, value]
  rw [render_entry_eq, render_entry_eq, renderBody, renderBody, reads.comments, reads.kind,
    reads.key, fields, lower_lower]

end Options

theorem flat_map_of_reads_back {options : Options} {entries again : List Entry}
    (reads : List.Forall₂ (ReadsBack options) entries again) (write : Entry → Text)
    (same : ∀ entry ∈ entries, ∀ other ∈ again, ReadsBack options entry other →
      write other = write entry) : again.flatMap write = entries.flatMap write := by
  induction reads with
  | nil => rfl
  | @cons first other _ _ read _ induction =>
      rw [List.flatMap_cons, List.flatMap_cons, same first (by simp) other (by simp) read]
      rw [induction fun entry member found known =>
        same entry (by simp [member]) found (by simp [known])]

theorem ascii_of_reads_back {options : Options} {entries again : List Entry}
    (ascii : ∀ entry ∈ entries, AsciiKind entry.kind)
    (reads : List.Forall₂ (ReadsBack options) entries again) :
    ∀ other ∈ again, AsciiKind other.kind := by
  induction reads with
  | nil => simp
  | @cons first other _ _ read _ induction =>
      intro found member
      rcases List.mem_cons.1 member with rfl | later
      · rw [read.kind]
        exact ascii_lower (ascii first (by simp))
      · exact induction (fun entry known => ascii entry (by simp [known])) found later

theorem settled_of_no_range {entry again : Entry} (sound : SoundEntry entry)
    (againSound : SoundEntry again) (reads : ReadsBack Options.unescaped entry again)
    (settled : ∀ value, entry.get? "pages".toList = some value → ¬ Options.HasSecondRange value) :
    Options.unescaped.renderEntry again = Options.unescaped.renderEntry entry := by
  apply Options.render_entry_of_reads_back reads
  intro name _
  cases found : again.get? name with
  | none => rfl
  | some other =>
      obtain ⟨value, known, same⟩ := rendered_value reads found
      rw [Option.map_some, Option.map_some,
        (Options.rendered_twice_iff (sound_of_get sound known) (sound_of_get againSound found)
          same).2]
      intro same
      subst same
      exact settled value known

theorem no_range_of_settled {entry again : Entry} (sound : SoundEntry entry)
    (againSound : SoundEntry again) (reads : ReadsBack Options.unescaped entry again)
    (twice : ReadsBack Options.unescaped again again) {value : Value}
    (found : entry.get? "pages".toList = some value) : ¬ Options.HasSecondRange value := by
  obtain ⟨other, known, same⟩ := reread_value rfl rfl reads found
  obtain ⟨third, again, written⟩ := reread_value rfl rfl twice known
  have same := Option.some.inj (known.symm.trans again)
  subst same
  exact (Options.rendered_twice_iff (sound_of_get sound found) (sound_of_get againSound known)
    same).1 written.symm rfl

/-- A second run gives the same text if and only if the first one has left no page
range to widen. -/
theorem tidied_twice_iff {text : Text} {document : Document}
    (parsed : Document.parse text = .ok document)
    (ascii : ∀ entry ∈ document.entries, AsciiKind entry.kind) :
    (∃ again, Document.parse (Options.unescaped.tidy document).text = .ok again ∧
        (Options.unescaped.tidy again).text = (Options.unescaped.tidy document).text) ↔
      ∀ entry ∈ document.entries, ∀ value,
        entry.get? "pages".toList = some value → ¬ Options.HasSecondRange value := by
  have readable : ∀ {entries : List Entry}, (∀ entry ∈ entries, SoundEntry entry) →
      ∀ entry ∈ entries, ∀ field ∈ Options.unescaped.writtenFields entry,
        Options.unescaped.Readable field := by
    intro entries sound entry member field written
    exact Options.readable_plain Options.unescaped_plain
      ((sound entry member).fields field (Options.mem_written_fields written)).valued
  have once : ∀ document, (Options.unescaped.tidy document).text =
      Options.unescaped.assemble document document.entries :=
    fun document => Options.tidied_text document rfl rfl rfl
  have sound := parse_sound parsed
  obtain ⟨entries, read, reads⟩ := assembled_read sound sound.entries ascii (readable sound.entries)
  rw [← once] at read
  have againSound := parse_sound read
  constructor
  · intro given entry member value found
    rcases given with ⟨again, readAgain, same⟩
    have same := Except.ok.inj (read.symm.trans readAgain)
    subst same
    have asciiAgain : ∀ entry ∈ entries, AsciiKind entry.kind :=
      ascii_of_reads_back ascii reads
    -- The second run is read into the document that the first run is read into.
    obtain ⟨third, readThird, twice⟩ := assembled_read againSound againSound.entries asciiAgain
      (readable againSound.entries)
    rw [← once { document with entries }, same, read] at readThird
    have stays : entries = third := congrArg Document.entries (Except.ok.inj readThird)
    rw [← stays] at twice
    obtain ⟨other, known, readsOther⟩ := related_of_mem reads member
    exact no_range_of_settled (sound.entries entry member) (againSound.entries other known)
      readsOther (List.forall₂_same.1 twice other known) found
  · intro settled
    refine ⟨{ document with entries }, read, ?_⟩
    have written : Options.unescaped.renderEntries entries =
        Options.unescaped.renderEntries document.entries := by
      rw [Options.render_entries_eq, Options.render_entries_eq]
      apply flat_map_of_reads_back reads
      intro entry member other known readsOther
      rw [settled_of_no_range (sound.entries entry member) (againSound.entries other known)
        readsOther (settled entry member)]
    rw [once, once, Options.assemble, Options.assemble, written]

def hasSettledPages (document : Document) : Bool :=
  hasAsciiEntries 2 document && document.entries.all fun entry =>
    match entry.get? "pages".toList with
    | none => true
    | some value => decide (¬ Options.HasSecondRange value)

theorem library_settles :
    ∃ document again, Document.parse library = .ok document ∧
      Document.parse (Options.unescaped.tidy document).text = .ok again ∧
      (Options.unescaped.tidy again).text = (Options.unescaped.tidy document).text := by
  have passed : passes (Document.parse library) hasSettledPages = true := by
    decide +kernel
  obtain ⟨document, parsed, checked⟩ := ok_of_passes passed
  unfold hasSettledPages at checked
  rw [Bool.and_eq_true] at checked
  obtain ⟨_, ascii⟩ := ascii_of_check checked.1
  have settled : ∀ entry ∈ document.entries, ∀ value,
      entry.get? "pages".toList = some value → ¬ Options.HasSecondRange value := by
    intro entry member value found
    have passed := List.all_eq_true.1 checked.2 entry member
    rw [found] at passed
    exact of_decide_eq_true passed
  obtain ⟨again, read, same⟩ := (tidied_twice_iff parsed ascii).2 settled
  exact ⟨document, again, parsed, read, same⟩

def changesAgain (document : Document) : Bool :=
  hasAsciiEntries 1 document &&
    passes (Document.parse (Options.unescaped.tidy document).text) fun again =>
      decide ((Options.unescaped.tidy again).text ≠ (Options.unescaped.tidy document).text)

/-- The second range of a value is widened by the second run only. -/
theorem second_range_widened_later :
    ∃ document again,
      Document.parse "@article{key, pages = {1-2, 3-4}}".toList = .ok document ∧
      (∀ entry ∈ document.entries, AsciiKind entry.kind) ∧
      Document.parse (Options.unescaped.tidy document).text = .ok again ∧
      (Options.unescaped.tidy again).text ≠ (Options.unescaped.tidy document).text := by
  have passed : passes (Document.parse "@article{key, pages = {1-2, 3-4}}".toList)
      changesAgain = true := by
    decide +kernel
  obtain ⟨document, parsed, checked⟩ := ok_of_passes passed
  unfold changesAgain at checked
  rw [Bool.and_eq_true] at checked
  obtain ⟨again, read, changed⟩ := ok_of_passes checked.2
  exact ⟨document, again, parsed, (ascii_of_check checked.1).2, read, of_decide_eq_true changed⟩

end Bibliography
