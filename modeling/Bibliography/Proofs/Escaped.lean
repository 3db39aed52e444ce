import Bibliography.Proofs.Latex.Depth
import Bibliography.Proofs.Latex.Range
import Bibliography.Proofs.Rereading
import Bibliography.Proofs.RoundTrip
import Bibliography.Proofs.Stuck

/-!
What a run with the default options writes. Special characters are spelled out whatever
the delimiter of their value is, and the text is read back exactly if each value bears
that: values in braces always do, values in quotes if no spelled quote can end them, and
values without delimiters if the spelled text is a value again.
-/

namespace Bibliography

open Text Source

theorem Latex.spell_out_enclose (delimiter : Delimiter) (text : Text) :
    Latex.spellOut (delimiter.enclose text) = delimiter.enclose (Latex.spellOut text) := by
  have closed : ∀ opener : Char, opener.isAlpha = false → opener.toNat < 128 →
      ∀ closer : Char, closer.toNat < 128 → Latex.spellOut (opener :: (text ++ [closer])) =
        opener :: (Latex.spellOut text ++ [closer]) := by
    intro opener other small closer final
    rw [Latex.spell_out_ascii other small, Latex.spell_out_snoc final]
  cases delimiter with
  | braces => exact closed '{' (by decide) (by decide) '}' (by decide)
  | quotes => exact closed '"' (by decide) (by decide) '"' (by decide)
  | bare => rfl

namespace Options

theorem sound_join_lines {value : Value} (sound : SoundValue value) :
    SoundValue ⟨Layout.joinLines value.text, value.delimiter⟩ := by
  have plain : IsPlain { escape := false } := ⟨rfl, rfl, rfl, rfl⟩
  have joined := sound_tidy_text plain [] sound
  rw [tidy_text_plain plain, if_neg (by decide)] at joined
  exact joined

theorem tidy_text_default (name text : Text) :
    ({} : Options).tidyText name text =
      if name = "pages".toList then Layout.pageRange (Latex.spellOut (Layout.joinLines text))
      else Latex.spellOut (Layout.joinLines text) := by
  simp [tidyText, Latex.escape_eq_spell_out]

theorem render_value_default (name : Text) (value : Value) :
    ({} : Options).renderValue name value =
      value.delimiter.enclose (({} : Options).tidyText name value.text) := rfl

theorem fences_tidy_default (name text : Text) :
    fences (({} : Options).tidyText name text) =
      fences (Latex.spellOut (Layout.joinLines text)) := by
  rw [tidy_text_default]
  split
  · exact Layout.fences_page_range _
  · rfl

theorem tidy_text_spelled (name text : Text) :
    ∃ wider, ({} : Options).tidyText name text = Latex.spellOut wider ∧
      Layout.Widens (Layout.joinLines text) wider := by
  rw [tidy_text_default]
  split
  · exact Latex.page_range_spell_out _
  · exact ⟨_, rfl, Layout.widens_self _⟩

theorem completes_widened {delimiter : Delimiter} {text wider : Text} {several : Bool}
    (widens : Layout.Widens text wider)
    (completes : Spot.Completes ⟨.vacant, false⟩ (delimiter.enclose text) several) :
    Spot.Completes ⟨.vacant, false⟩ (delimiter.enclose wider) several := by
  rcases completes with ⟨place, walked, ended⟩
  have between : ∀ opener closer : Char,
      Spot.walk ⟨.vacant, false⟩ (opener :: (text ++ [closer])) = some ⟨place, several⟩ →
      Spot.walk ⟨.vacant, false⟩ (opener :: (wider ++ [closer])) = some ⟨place, several⟩ := by
    intro opener closer through
    rw [Spot.walk_cons] at through ⊢
    rcases Option.bind_eq_some_iff.1 through with ⟨inside, step, later⟩
    rw [Spot.walk_append] at later
    rcases Option.bind_eq_some_iff.1 later with ⟨behind, middle, last⟩
    rw [step, Option.bind_some, Spot.walk_append, widens.walks inside behind middle]
    exact last
  refine ⟨place, ?_, ended⟩
  cases delimiter with
  | braces => exact between '{' '}' walked
  | quotes => exact between '"' '"' walked
  | bare => exact widens.walks _ _ walked

theorem completes_sound {value : Value} (sound : SoundValue value) :
    ∃ several, (several = true → value.delimiter = .bare) ∧
      Spot.Completes ⟨.vacant, false⟩ value.written several := by
  rcases value_text_cases sound with part | ⟨bare, completes⟩
  · exact ⟨false, by simp, Spot.part_completes false part⟩
  · exact ⟨true, fun _ => bare, completes⟩

/-- A rendered value is a written value again, or it is stuck. -/
theorem rendered_completes_or_stuck (name : Text) {value : Value} (sound : SoundValue value) :
    ∃ several, (several = true → value.delimiter = .bare) ∧
      (Spot.Completes ⟨.vacant, false⟩ (({} : Options).renderValue name value) several ∨
        Spot.StuckIn ⟨.vacant, false⟩ (({} : Options).renderValue name value)) := by
  rcases tidy_text_spelled name value.text with ⟨wider, spelled, widens⟩
  rcases completes_sound (sound_join_lines sound) with ⟨several, bare, completes⟩
  refine ⟨several, bare, ?_⟩
  rw [render_value_default, spelled, ← Latex.spell_out_enclose]
  exact Spot.completes_spell_out (completes_widened widens completes)

theorem rendered_solid (name : Text) {value : Value} (sound : SoundValue value) :
    StartsSolid (({} : Options).renderValue name value) ∧
      EndsSolid (({} : Options).renderValue name value) := by
  rcases value with ⟨text, delimiter⟩
  have joined := Layout.joined_join_lines text
  rcases tidy_text_spelled name text with ⟨wider, spelled, widens⟩
  have starts : StartsSolid wider := fun char first => joined.starts char (widens.head ▸ first)
  have ends : EndsSolid wider := fun char last => joined.ends char (widens.last ▸ last)
  rw [render_value_default]
  dsimp only
  rw [spelled]
  cases delimiter with
  | braces =>
      exact ⟨starts_solid_cons _ (by decide),
        ends_solid_append ('{' :: _) (ends_solid_singleton (by decide)) (by simp)⟩
  | quotes =>
      exact ⟨starts_solid_cons _ (by decide),
        ends_solid_append ('"' :: _) (ends_solid_singleton (by decide)) (by simp)⟩
  | bare => exact ⟨Latex.starts_solid_spell_out starts, Latex.ends_solid_spell_out ends⟩

/-- The value of the field bears it that its special characters are spelled out. -/
def BearsSpelling (field : Field) : Prop :=
  match field.2.delimiter with
  | .braces => True
  | .quotes => Latex.QuotesInside 0 (Layout.joinLines field.2.text)
  | .bare => ∃ parts, PartsText (({} : Options).tidyText field.1 field.2.text) parts

theorem readable_of_bears {field : Field} (sound : SoundValue field.2)
    (bears : BearsSpelling field) : ({} : Options).Readable field := by
  rcases field with ⟨name, ⟨text, delimiter⟩⟩
  have joined := sound_join_lines sound
  have same := fences_tidy_default name text
  unfold Readable
  cases delimiter with
  | braces =>
      have balanced := (sound_braces_iff _).1 joined
      rw [balanced_iff_from] at balanced
      have spelled := (balanced_iff_from _).2 (Latex.balanced_from_spell_out balanced)
      exact ⟨_, .single (.braced (balanced_of_same_fences same.symm spelled))⟩
  | quotes =>
      have quotable := (sound_quotes_iff _).1 joined
      rw [quotable_iff_from] at quotable
      have spelled := (quotable_iff_from _).2
        ((Latex.quotable_from_spell_out 0 _).2 ⟨quotable, bears⟩)
      exact ⟨_, .single (.quoted (quotable_of_same_fences same.symm spelled))⟩
  | bare =>
      rcases bears with ⟨parts, written⟩
      exact value_text_of_parts written

theorem bears_of_completes {field : Field} {several : Bool} (sound : SoundValue field.2)
    (bare : several = true → field.2.delimiter = .bare)
    (completes : Spot.Completes ⟨.vacant, false⟩
      (({} : Options).renderValue field.1 field.2) several) : BearsSpelling field := by
  rcases rendered_solid field.1 sound with ⟨starts, ends⟩
  rcases Spot.parts_of_completes completes with
    ⟨lead, body, gap, values, parts, leadBlanks, gapBlanks, written, count⟩
  have whole := trim_solid starts ends
  have bodyStarts := parts_start_solid written []
  rw [List.append_nil] at bodyStarts
  rw [parts, trim_gaps leadBlanks gapBlanks bodyStarts (parts_end_solid written), ← parts] at whole
  subst whole
  rcases field with ⟨name, ⟨text, delimiter⟩⟩
  cases delimiter with
  | braces => trivial
  | quotes =>
      have single : several = false := Bool.eq_false_iff.2 fun joined =>
        absurd (bare joined) (by simp)
      have quotable : Quotable (({} : Options).tidyText name text) := by
        generalize rendered : ({} : Options).renderValue name ⟨text, .quotes⟩ = body at written
        cases written with
        | single part =>
            rw [← rendered] at part
            exact quotable_of_part part
        | joined _ _ _ others =>
            rcases parts_values_cons others with ⟨second, rest, rfl⟩
            rw [single] at count
            simp at count
      have spelled := quotable_of_same_fences (fences_tidy_default name text) quotable
      rw [quotable_iff_from] at spelled
      exact ((Latex.quotable_from_spell_out 0 _).1 spelled).2
  | bare => exact ⟨values, written⟩

theorem readable_iff_bears {field : Field} (sound : SoundValue field.2) :
    ({} : Options).Readable field ↔ BearsSpelling field := by
  constructor
  · intro found
    rcases found with ⟨value, valued⟩
    rcases value_text_parts valued with ⟨values, written⟩
    rcases rendered_completes_or_stuck field.1 sound with ⟨several, bare, completes | stuck⟩
    · exact bears_of_completes sound bare completes
    · exact absurd stuck (Spot.not_stuck_of_completes (Spot.parts_complete false written))
  · exact readable_of_bears sound

theorem settles_default {field : Field} (sound : SoundValue field.2) :
    ({} : Options).Settles field := by
  refine ⟨(rendered_solid field.1 sound).1, ?_⟩
  rcases rendered_completes_or_stuck field.1 sound with ⟨several, bare, completes | stuck⟩
  · exact .inl (readable_of_bears sound (bears_of_completes sound bare completes))
  · exact .inr stuck

end Options

def Entry.shape (entry : Entry) : Text × Text × List Text :=
  (lower entry.kind, entry.key, entry.fields.names)

theorem shape_of_reads_back {options : Options} (omitted : options.omitted = [])
    (sortFields : options.sortFields = false) {entry again : Entry}
    (reads : ReadsBack options entry again) : again.shape = entry.shape := by
  unfold Entry.shape
  rw [reads.kind, lower_lower, reads.key, names_of_reads_back omitted sortFields reads]

theorem shapes_of_reads_back {options : Options} (omitted : options.omitted = [])
    (sortFields : options.sortFields = false) {entries again : List Entry}
    (reads : List.Forall₂ (ReadsBack options) entries again) :
    again.map Entry.shape = entries.map Entry.shape :=
  map_of_related (fun _ _ read => shape_of_reads_back omitted sortFields read) reads

/-- Under the default options the written text is read back, with the same entries, exactly
if every value bears its spelling. -/
theorem spelled_text_reads_back_iff {text : Text} {document : Document}
    (parsed : Document.parse text = .ok document)
    (ascii : ∀ entry ∈ document.entries, AsciiKind entry.kind) :
    (∃ again, Document.parse (({} : Options).tidy document).text = .ok again ∧
        again.entries.map Entry.shape = document.entries.map Entry.shape) ↔
      ∀ entry ∈ document.entries, ∀ field ∈ entry.fields.toList,
        Options.BearsSpelling field := by
  have sound := parse_sound parsed
  have valued : ∀ entry ∈ document.entries, ∀ field ∈ entry.fields.toList,
      SoundValue field.2 := fun entry member field inside =>
    ((sound.entries entry member).fields field inside).valued
  rw [Options.tidied_text document rfl rfl rfl]
  constructor
  · intro found entry member field inside
    rcases found with ⟨again, read, _⟩
    have settles : ∀ entry ∈ document.entries, ∀ field ∈ ({} : Options).writtenFields entry,
        ({} : Options).Settles field := fun entry member field written =>
      Options.settles_default (valued entry member field (Options.mem_written_fields written))
    have readable := readable_of_assembled sound sound.entries ascii settles read entry member
      field (Options.mem_written_fields_all rfl rfl inside)
    exact (Options.readable_iff_bears (valued entry member field inside)).1 readable
  · intro bears
    have readable : ∀ entry ∈ document.entries, ∀ field ∈ ({} : Options).writtenFields entry,
        ({} : Options).Readable field := by
      intro entry member field written
      have inside := Options.mem_written_fields written
      exact Options.readable_of_bears (valued entry member field inside)
        (bears entry member field inside)
    rcases assembled_read sound sound.entries ascii readable with ⟨again, read, reads⟩
    exact ⟨_, read, shapes_of_reads_back rfl rfl reads⟩

/-- An umlaut in a bare token: its group would have to stand inside the token. -/
def umlaut : Text := "@a\x7bb, c = aü\x7d".toList

def losesText (document : Document) : Bool :=
  hasAsciiEntries 1 document &&
    !passes (Document.parse (({} : Options).tidy document).text) fun _ => true

theorem umlaut_not_read_back :
    ∃ document, Document.parse umlaut = .ok document ∧
      (¬ ∃ again, Document.parse (({} : Options).tidy document).text = .ok again ∧
        again.entries.map Entry.shape = document.entries.map Entry.shape) ∧
      ¬ ∀ entry ∈ document.entries, ∀ field ∈ entry.fields.toList,
        Options.BearsSpelling field := by
  have passed : passes (Document.parse umlaut) losesText = true := by
    decide +kernel
  rcases ok_of_passes passed with ⟨document, parsed, lost⟩
  rw [losesText, Bool.and_eq_true, Bool.not_eq_true'] at lost
  have unread : ¬ ∃ again, Document.parse (({} : Options).tidy document).text = .ok again ∧
      again.entries.map Entry.shape = document.entries.map Entry.shape := by
    intro found
    rcases found with ⟨again, read, _⟩
    rw [read] at lost
    simp [passes] at lost
  have exactly := spelled_text_reads_back_iff parsed (ascii_of_check lost.1).2
  exact ⟨document, parsed, unread, fun bears => unread (exactly.2 bears)⟩

end Bibliography
