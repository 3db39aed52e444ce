import Bibliography.Proofs.Text.Depth
import Bibliography.Proofs.Text.Gap
import Bibliography.Source.Token

/-!
The written forms of values and of the bodies of entries, as relations between a
text and what it stands for. Nothing here reads a text from left to right: the
rules say where gaps may stand and what each piece consists of. A joined value is
the text it is written with.
-/

namespace Bibliography.Source

open Text

/-- One part of a value: a group, a quoted string, or a bare token. -/
inductive PartText : Text → Value → Prop
  | braced {body : Text} (balanced : Balanced body) :
      PartText ('{' :: (body ++ ['}'])) ⟨body, .braces⟩
  | quoted {body : Text} (quotable : Quotable body) :
      PartText ('"' :: (body ++ ['"'])) ⟨body, .quotes⟩
  | token {token : Text} (nonempty : token ≠ []) (bare : ∀ char ∈ token, isBareChar char = true) :
      PartText token ⟨token, .bare⟩

/-- One part or several with number signs between them. -/
inductive PartsText : Text → List Value → Prop
  | single {part : Text} {value : Value} (first : PartText part value) : PartsText part [value]
  | joined {part gap lead more : Text} {value : Value} {values : List Value}
      (first : PartText part value) (before : IsGap gap) (behind : IsGap lead)
      (others : PartsText more values) :
      PartsText (part ++ gap ++ '#' :: (lead ++ more)) (value :: values)

/-- A part stands for its own contents; several parts stand for their text. -/
inductive ValueText : Text → Value → Prop
  | single {text : Text} {value : Value} (part : PartText text value) : ValueText text value
  | joined {text : Text} {first second : Value} {others : List Value}
      (parts : PartsText text (first :: second :: others)) : ValueText text ⟨text, .bare⟩

def KeyText (key : Text) : Prop := key ≠ [] ∧ ∀ char ∈ key, isKeyChar char = true

def NameText (name : Text) : Prop := name ≠ [] ∧ ∀ char ∈ name, isNameChar char = true

/-- A name, an equals sign and a value, with the gap that follows it. -/
inductive AssignedText : Text → Field → Prop
  | mk {name before behind text gap : Text} {value : Value} (named : NameText name)
      (beforeEquals : IsGap before) (behindEquals : IsGap behind) (valued : ValueText text value)
      (afterValue : IsGap gap) :
      AssignedText (name ++ before ++ '=' :: (behind ++ text ++ gap)) (name, value)

/-- The fields after a comma, up to and with the closer. -/
inductive FieldsText (closer : Char) : Text → List Field → Prop
  | closed : FieldsText closer [closer] []
  | last {text : Text} {field : Field} (assigned : AssignedText text field) :
      FieldsText closer (text ++ [closer]) [field]
  | more {text lead rest : Text} {field : Field} {fields : List Field}
      (assigned : AssignedText text field) (gap : IsGap lead)
      (others : FieldsText closer rest fields) :
      FieldsText closer (text ++ ',' :: (lead ++ rest)) (field :: fields)

/-- The body of an entry from behind its opener: a key, then the closer or fields. -/
inductive EntryText (closer : Char) : Text → Text → List Field → Prop
  | closed {lead key gap : Text} (before : IsGap lead) (keyed : KeyText key)
      (behind : IsGap gap) : EntryText closer (lead ++ key ++ gap ++ [closer]) key []
  | listed {lead key gap next rest : Text} {fields : List Field} (before : IsGap lead)
      (keyed : KeyText key) (behind : IsGap gap) (space : IsGap next)
      (others : FieldsText closer rest fields) :
      EntryText closer (lead ++ key ++ gap ++ ',' :: (next ++ rest)) key fields

theorem is_bare_char_iff (char : Char) :
    isBareChar char = true ↔ isBlank char = false ∧ isMark char = false := by
  simp [isBareChar]

theorem is_key_char_iff (char : Char) :
    isKeyChar char = true ↔ isBareChar char = true ∧ char ≠ '=' := by
  simp [isKeyChar]

theorem is_name_char_iff (char : Char) :
    isNameChar char = true ↔ isKeyChar char = true ∧ char ≠ '%' := by
  simp [isNameChar]

theorem not_bare_of_blank {char : Char} (blank : isBlank char = true) :
    isBareChar char = false := by
  simp [isBareChar, blank]

theorem not_bare_of_mark {char : Char} (mark : isMark char = true) : isBareChar char = false := by
  simp [isBareChar, mark]

theorem not_blank_of_mark {char : Char} (mark : isMark char = true) : isBlank char = false := by
  simp only [isMark, List.contains_cons, List.contains_nil, Bool.or_false, Bool.or_eq_true,
    beq_iff_eq] at mark
  rcases mark with rfl | rfl | rfl | rfl | rfl | rfl | rfl <;> decide

theorem not_fence_of_bare {char : Char} (bare : isBareChar char = true) : isFence char = false := by
  cases fence : isFence char with
  | false => rfl
  | true =>
      simp only [isFence, Bool.or_eq_true, beq_iff_eq] at fence
      rcases fence with (rfl | rfl) | rfl <;> exact absurd bare (by decide)

theorem part_starts_solid {part : Text} {value : Value} (text : PartText part value)
    (rest : Text) : StartsSolid (part ++ rest) := by
  cases text with
  | braced => exact starts_solid_cons _ (by decide)
  | quoted => exact starts_solid_cons _ (by decide)
  | token nonempty bare =>
      cases part with
      | nil => exact absurd rfl nonempty
      | cons char others =>
          exact starts_solid_cons _ ((is_bare_char_iff char).1 (bare char (by simp))).1

theorem part_ends_solid {part : Text} {value : Value} (text : PartText part value) :
    EndsSolid part := by
  cases text with
  | braced => exact ends_solid_append ('{' :: _) (ends_solid_singleton (by decide)) (by simp)
  | quoted => exact ends_solid_append ('"' :: _) (ends_solid_singleton (by decide)) (by simp)
  | token nonempty bare =>
      intro char last
      exact ((is_bare_char_iff char).1 (bare char (List.mem_of_getLast? last))).1

theorem part_nonempty {part : Text} {value : Value} (text : PartText part value) : part ≠ [] := by
  cases text with
  | braced => simp
  | quoted => simp
  | token nonempty _ => exact nonempty

theorem parts_start_solid {text : Text} {values : List Value} (parts : PartsText text values)
    (rest : Text) : StartsSolid (text ++ rest) := by
  cases parts with
  | single first => exact part_starts_solid first rest
  | joined first =>
      rw [List.append_assoc, List.append_assoc]
      exact part_starts_solid first _

theorem parts_nonempty {text : Text} {values : List Value} (parts : PartsText text values) :
    text ≠ [] := by
  cases parts with
  | single first => exact part_nonempty first
  | joined first => simp

theorem parts_values_cons {text : Text} {values : List Value} (parts : PartsText text values) :
    ∃ first others, values = first :: others := by
  cases parts with
  | single first => exact ⟨_, _, rfl⟩
  | joined first => exact ⟨_, _, rfl⟩

theorem parts_end_solid {text : Text} {values : List Value} (parts : PartsText text values) :
    EndsSolid text := by
  induction parts with
  | single first => exact part_ends_solid first
  | @joined _ _ lead _ _ _ first before behind others induction =>
      have tail := ends_solid_append ('#' :: lead) induction (parts_nonempty others)
      exact ends_solid_append _ tail (by simp)

theorem value_text_written {text : Text} {value : Value} (valued : ValueText text value) :
    value.written = text := by
  cases valued with
  | single part => cases part <;> rfl
  | joined => rfl

theorem value_text_parts {text : Text} {value : Value} (valued : ValueText text value) :
    ∃ values, PartsText text values := by
  cases valued with
  | single part => exact ⟨[value], .single part⟩
  | joined parts => exact ⟨_, parts⟩

theorem value_text_of_parts {text : Text} {values : List Value} (parts : PartsText text values) :
    ∃ value, ValueText text value := by
  cases parts with
  | single part => exact ⟨_, .single part⟩
  | joined first before behind others =>
      rcases parts_values_cons others with ⟨second, rest, rfl⟩
      exact ⟨_, .joined (.joined first before behind others)⟩

theorem quotable_of_part {body : Text} {value : Value}
    (part : PartText ('"' :: (body ++ ['"'])) value) : Quotable body := by
  generalize same : '"' :: (body ++ ['"']) = text at part
  cases part with
  | braced => exact absurd (List.cons.inj same).1 (by decide)
  | quoted quotable =>
      rw [List.append_cancel_right (List.cons.inj same).2]
      exact quotable
  | token _ bare =>
      rw [← same] at bare
      exact absurd (bare '"' (by simp)) (by decide)

theorem value_starts_solid {text : Text} {value : Value} (valued : ValueText text value)
    (rest : Text) : StartsSolid (text ++ rest) := by
  obtain ⟨values, parts⟩ := value_text_parts valued
  exact parts_start_solid parts rest

end Bibliography.Source
