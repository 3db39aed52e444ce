import Bibliography.Proofs.Balance
import Bibliography.Proofs.Escaped

/-!
What a run writes that puts all values in braces or takes an outer pair of braces off.
Neither looks at the braces and quotes inside a value, so the text is read back exactly if
each value bears its new delimiter: values that had braces do, values in quotes and joined
ones need not. A value that does not bear it can end early, and the rest of it can be read
as something else without any error. Special characters are not spelled here.
-/

namespace Bibliography

open Text Source

namespace Source

def IsJoined (text : Text) : Prop :=
  ∃ first second others, PartsText text (first :: second :: others)

theorem written_value_iff {text : Text} :
    (∃ value, ValueText text value) ↔ (∃ value, PartText text value) ∨ IsJoined text := by
  constructor
  · intro found
    obtain ⟨value, valued⟩ := found
    cases valued with
    | single part => exact .inl ⟨value, part⟩
    | joined parts => exact .inr ⟨_, _, _, parts⟩
  · intro found
    rcases found with ⟨value, part⟩ | ⟨first, second, others, parts⟩
    · exact ⟨value, .single part⟩
    · exact ⟨_, .joined parts⟩

theorem balanced_of_part {body : Text} {value : Value}
    (part : PartText ('{' :: (body ++ ['}'])) value) : Balanced body := by
  generalize same : '{' :: (body ++ ['}']) = text at part
  cases part with
  | braced balanced =>
      rw [List.append_cancel_right (List.cons.inj same).2]
      exact balanced
  | quoted => exact absurd (List.cons.inj same).1 (by decide)
  | token _ bare =>
      rw [← same] at bare
      exact absurd (bare '{' (by simp)) (by decide)

theorem written_braces_iff {body : Text} :
    (∃ value, ValueText (Delimiter.braces.enclose body) value) ↔
      Balanced body ∨ IsJoined (Delimiter.braces.enclose body) := by
  have single : (∃ value, PartText (Delimiter.braces.enclose body) value) ↔ Balanced body :=
    ⟨fun found => found.elim fun _ => balanced_of_part, fun balanced => ⟨_, .braced balanced⟩⟩
  rw [written_value_iff, single]

theorem written_quotes_iff {body : Text} :
    (∃ value, ValueText (Delimiter.quotes.enclose body) value) ↔
      Quotable body ∨ IsJoined (Delimiter.quotes.enclose body) := by
  have single : (∃ value, PartText (Delimiter.quotes.enclose body) value) ↔ Quotable body :=
    ⟨fun found => found.elim fun _ => quotable_of_part, fun quotable => ⟨_, .quoted quotable⟩⟩
  rw [written_value_iff, single]

theorem strip_braces_bare {text : Text} (sound : SoundValue ⟨text, .bare⟩) :
    Layout.stripBraces text = text := by
  rcases Layout.strip_braces_cases text with same | ⟨body, balanced, group, _⟩
  · exact same
  · have braced : ValueText text ⟨body, .braces⟩ := by
      rw [group]
      exact .single (.braced balanced)
    have same := value_text_unique sound braced
    simp at same

end Source

namespace Options

def delimited (curly stripBraces : Bool) : Options := { escape := false, curly, stripBraces }

variable {curly stripBraces : Bool}

theorem render_value_delimited (name : Text) (value : Value) :
    (delimited curly stripBraces).renderValue name value =
      (if curly then Delimiter.braces else value.delimiter).enclose
        ((delimited curly stripBraces).tidyText name value.text) := rfl

theorem tidy_text_bare (name : Text) {text : Text} (sound : SoundValue ⟨text, .bare⟩) :
    (delimited curly stripBraces).tidyText name text =
      (delimited false false).tidyText name text := by
  have joined := strip_braces_bare (sound_join_lines sound)
  dsimp only at joined
  unfold tidyText
  simp only [delimited, joined, ite_self]

/-- The value of the field is a value again between its new delimiters: between braces one
that is balanced, between quotes one that is quotable, or else a list of several parts. -/
def BearsDelimiter (options : Options) (field : Field) : Prop :=
  match field.2.delimiter, options.curly with
  | .braces, _ => True
  | .bare, false => True
  | .quotes, false =>
      Quotable (options.tidyText field.1 field.2.text) ∨
        IsJoined (Delimiter.quotes.enclose (options.tidyText field.1 field.2.text))
  | _, true =>
      Balanced (options.tidyText field.1 field.2.text) ∨
        IsJoined (Delimiter.braces.enclose (options.tidyText field.1 field.2.text))

theorem readable_iff_bears_delimiter {field : Field} (sound : SoundValue field.2) :
    (delimited curly stripBraces).Readable field ↔
      BearsDelimiter (delimited curly stripBraces) field := by
  obtain ⟨name, ⟨text, delimiter⟩⟩ := field
  unfold Readable BearsDelimiter
  rw [render_value_delimited]
  cases delimiter with
  | braces =>
      have balanced := balanced_tidy_text (delimited curly stripBraces) name
        ((sound_braces_iff text).1 sound)
      have braces : (if curly then Delimiter.braces else Delimiter.braces) = .braces := ite_self _
      dsimp only
      rw [braces]
      exact iff_of_true ⟨_, .single (.braced balanced)⟩ trivial
  | quotes =>
      cases curly with
      | false => exact written_quotes_iff
      | true => exact written_braces_iff
  | bare =>
      cases curly with
      | false =>
          have plain : (delimited false false).IsPlain := ⟨rfl, rfl, rfl, rfl⟩
          have kept := sound_tidy_text plain name sound
          dsimp only
          rw [tidy_text_bare name sound]
          exact iff_of_true ⟨_, kept⟩ trivial
      | true => exact written_braces_iff

end Options

/-- A document that is read where another one was written: with the same kinds, keys and
names, the same lines around the entries, and each entry read back from its rendered form. -/
structure Recovered (options : Options) (document again : Document) : Prop where
  shapes : again.entries.map Entry.shape = document.entries.map Entry.shape
  preamble : again.preamble = document.preamble
  abbreviations : again.abbreviations = document.abbreviations
  commentsBefore : again.commentsBefore = document.commentsBefore
  commentsAfter : again.commentsAfter = document.commentsAfter
  entries : List.Forall₂ (ReadsBack options) document.entries again.entries

namespace Recovered

theorem comments {options : Options} {document again : Document}
    (recovered : Recovered options document again) : again.comments = document.comments := by
  have inside : again.entries.map Entry.comments = document.entries.map Entry.comments :=
    map_of_related (fun _ _ reads => reads.comments) recovered.entries
  rw [Document.comments, Document.comments, recovered.commentsBefore, List.flatMap_def, inside,
    ← List.flatMap_def, recovered.commentsAfter]

end Recovered

/-- With the delimiters changed, the written text is read back exactly if every value bears
its new delimiter. -/
theorem delimited_text_reads_back_iff (curly stripBraces : Bool) {text : Text}
    {document : Document} (parsed : Document.parse text = .ok document)
    (ascii : ∀ entry ∈ document.entries, AsciiKind entry.kind) :
    (∃ again, Document.parse ((Options.delimited curly stripBraces).tidy document).text =
        .ok again ∧ Recovered (Options.delimited curly stripBraces) document again) ↔
      ∀ entry ∈ document.entries, ∀ field ∈ entry.fields.toList,
        Options.BearsDelimiter (Options.delimited curly stripBraces) field := by
  have sound := parse_sound parsed
  have bears_iff : ∀ entry ∈ document.entries, ∀ field ∈ entry.fields.toList,
      ((Options.delimited curly stripBraces).Readable field ↔
        Options.BearsDelimiter (Options.delimited curly stripBraces) field) :=
    fun entry member field inside => Options.readable_iff_bears_delimiter
      ((sound.entries entry member).fields field inside).valued
  rw [Options.tidied_text document rfl rfl rfl]
  constructor
  · intro found entry member field inside
    obtain ⟨again, read, recovered⟩ := found
    obtain ⟨other, known, reads⟩ := related_of_mem recovered.entries member
    apply (bears_iff entry member field inside).1
    exact readable_of_reads_back rfl rfl reads ((parse_sound read).entries other known) inside
  · intro bears
    have readable : ∀ entry ∈ document.entries,
        ∀ field ∈ (Options.delimited curly stripBraces).writtenFields entry,
          (Options.delimited curly stripBraces).Readable field := by
      intro entry member field written
      have inside := Options.mem_written_fields written
      exact (bears_iff entry member field inside).2 (bears entry member field inside)
    obtain ⟨again, read, reads⟩ := assembled_read sound sound.entries ascii readable
    exact ⟨_, read, shapes_of_reads_back rfl rfl reads, rfl, rfl, rfl, rfl, reads⟩

/-- A closing brace in quotes: in braces it ends the value. -/
def closingBrace : Text := "@a\x7bb, c = \"\x7d\"\x7d".toList

def changesComments (document : Document) : Bool :=
  hasAsciiEntries 1 document &&
    passes (Document.parse ((Options.delimited true false).tidy document).text) fun again =>
      decide (again.comments ≠ document.comments)

/-- The text is read without an error, and what was behind the brace becomes a comment. -/
theorem closing_brace_spills :
    ∃ document again, Document.parse closingBrace = .ok document ∧
      Document.parse ((Options.delimited true false).tidy document).text = .ok again ∧
      again.comments ≠ document.comments ∧
      ¬ ∀ entry ∈ document.entries, ∀ field ∈ entry.fields.toList,
        Options.BearsDelimiter (Options.delimited true false) field := by
  have passed : passes (Document.parse closingBrace) changesComments = true := by
    decide +kernel
  obtain ⟨document, parsed, checked⟩ := ok_of_passes passed
  rw [changesComments, Bool.and_eq_true] at checked
  obtain ⟨again, read, changed⟩ := ok_of_passes checked.2
  have different := of_decide_eq_true changed
  refine ⟨document, again, parsed, read, different, ?_⟩
  intro bears
  have exactly := delimited_text_reads_back_iff true false parsed (ascii_of_check checked.1).2
  obtain ⟨other, readOther, recovered⟩ := exactly.2 bears
  obtain rfl := Except.ok.inj (read.symm.trans readOther)
  exact different recovered.comments

end Bibliography
