import Bibliography.Text.Encoding

/-!
Raw text that is made of characters is treated as the text of these characters: trimmed, put in
lower case, quoted, read as a number and encoded alike.
-/

namespace Bibliography.RawText

open Text

theorem drop_while_raw (text : Text) :
    (raw text).dropWhile CodePoint.isBlank = raw (skipBlank text) := by
  rw [raw, List.dropWhile_map]
  rfl

theorem trim_raw (text : Text) : (raw text).trim = raw (Text.trim text) := by
  have turned : (raw (skipBlank text)).reverse = raw (skipBlank text).reverse :=
    List.map_reverse.symm
  rw [trim, drop_while_raw, turned, drop_while_raw, raw, ← List.map_reverse]
  rfl

theorem to_text_raw (text : Text) : (raw text).toText? = some text := by
  induction text with
  | nil => rfl
  | cons char rest induction =>
      have later : (raw rest).mapM CodePoint.char? = some rest := induction
      rw [toText?, raw, List.map_cons, List.mapM_cons, ← raw, later]
      rfl

theorem read_integer_raw (text : Text) : (raw text).readInteger = Text.readInteger text := by
  rw [readInteger, to_text_raw]
  rfl

theorem runs_raw (text : Text) : (raw text).runs = (text, []) := by
  induction text with
  | nil => rfl
  | cons char rest induction =>
      have later : runs (rest.map .char) = (rest, []) := induction
      rw [raw, List.map_cons, runs, later]

theorem lower_raw (text : Text) : (raw text).lower = raw (Text.lower text) := by
  rw [lower, runs_raw, List.flatMap_nil, List.append_nil]

theorem quoted_raw (text : Text) : (raw text).quoted = Text.quoted text := by
  have chars : (raw text).filterMap CodePoint.char? = text := by
    rw [raw, List.filterMap_map]
    exact List.filterMap_some
  have escaped (mark : Char) :
      (raw text).flatMap (CodePoint.escapeQuoted mark) = text.flatMap (Text.escapeQuoted mark) := by
    rw [raw, List.flatMap_map]
    rfl
  simp only [quoted, chars, escaped, Text.quoted]

theorem encode_raw_from (byte? : Fin 0x800 → Option UInt8) (position : Nat) (text : Text) :
    encodeRawFrom byte? position (raw text) = .ok (encode text) := by
  induction text generalizing position with
  | nil => rfl
  | cons char rest induction =>
      have later : encodeRawFrom byte? (position + 1) (rest.map .char) = .ok (encode rest) :=
        induction (position + 1)
      rw [raw, List.map_cons, encodeRawFrom, later]
      rfl

/-- Characters only. -/
def IsPlain (text : RawText) : Prop := ∀ point ∈ text, point.isSurrogate = false

theorem raw_of_plain {text : RawText} (plain : text.IsPlain) :
    ∃ characters, text = raw characters := by
  induction text with
  | nil => exact ⟨[], rfl⟩
  | cons point rest induction =>
      obtain ⟨others, same⟩ := induction
        fun other member => plain other (List.mem_cons_of_mem _ member)
      cases point with
      | char value => exact ⟨value :: others, by rw [same]; rfl⟩
      | surrogate index => exact absurd (plain _ List.mem_cons_self) Bool.noConfusion

theorem mem_of_mem_trim {text : RawText} {point : CodePoint} (member : point ∈ text.trim) :
    point ∈ text := by
  have back := (List.dropWhile_suffix _).subset (List.mem_reverse.1 member)
  exact (List.dropWhile_suffix _).subset (List.mem_reverse.1 back)

end Bibliography.RawText
