import Bibliography.Source.Token

/-!
Values in a source text: a group in braces, a quoted string, a bare number or
abbreviation, or several of these joined by the number sign. A joined value is
kept as it is written and counts as bare.
-/

namespace Bibliography.Source

open Text

def readPart (text : Text) : Except Fault (Value × Text) :=
  if text.head? = some '{' then
    (readBraced text).map fun read => (⟨read.1, .braces⟩, read.2)
  else if text.head? = some '"' then
    (readQuoted text).map fun read => (⟨read.1, .quotes⟩, read.2)
  else match text.takeWhile isBareChar with
    | [] => .error ⟨.missingValue, text, text, .nothing⟩
    | token => .ok (⟨token, .bare⟩, text.dropWhile isBareChar)

theorem read_part_shorter {text rest : Text} {value : Value}
    (read : readPart text = .ok (value, rest)) : rest.length < text.length := by
  simp only [readPart] at read
  split at read
  · cases braced : readBraced text with
    | error fault => simp [braced, Except.map] at read
    | ok pair =>
        simp only [braced, Except.map, Except.ok.injEq, Prod.mk.injEq] at read
        exact read.2 ▸ read_braced_shorter braced
  · split at read
    · cases quoted : readQuoted text with
      | error fault => simp [quoted, Except.map] at read
      | ok pair =>
          simp only [quoted, Except.map, Except.ok.injEq, Prod.mk.injEq] at read
          exact read.2 ▸ read_quoted_shorter quoted
    · split at read
      · simp at read
      · next token nonempty =>
          simp only [Except.ok.injEq, Prod.mk.injEq] at read
          have parts := congrArg List.length
            (List.takeWhile_append_dropWhile (p := isBareChar) (l := text))
          have some : 0 < (text.takeWhile isBareChar).length :=
            List.length_pos_iff.2 (by simpa using nonempty)
          rw [List.length_append, read.2] at parts
          omega

theorem joined_part_shorter {text rest more : Text} {value : Value}
    (first : readPart (skipBlank text) = .ok (value, rest))
    (joined : after? '#' (skipBlank rest) = some more) : more.length < text.length := by
  have lead := (skip_blank_suffix text).length_le
  have part := read_part_shorter first
  have gap := (skip_blank_suffix rest).length_le
  have mark := congrArg List.length (after_suffix joined)
  simp at mark
  omega

/-- All parts of a value, up to the first that no number sign follows. Blanks
after the last part are left in place. -/
def readParts (text : Text) : Except Fault (List Value × Text) :=
  match first : readPart (skipBlank text) with
  | .error fault => .error fault
  | .ok (value, rest) =>
      match joined : after? '#' (skipBlank rest) with
      | none => .ok ([value], rest)
      | some more =>
          have := joined_part_shorter first joined
          match readParts more with
          | .error fault => .error fault
          | .ok (values, last) => .ok (value :: values, last)
termination_by text.length

/-- What was read between two places of one text. -/
def taken (start rest : Text) : Text := start.take (start.length - rest.length)

def readValue (text : Text) : Except Fault (Value × Text) :=
  let start := skipBlank text
  match readParts start with
  | .error fault => .error fault
  | .ok ([value], rest) => .ok (value, rest)
  | .ok (_, rest) => .ok (⟨taken start rest, .bare⟩, rest)

theorem read_parts_shorter {text rest : Text} {values : List Value}
    (read : readParts text = .ok (values, rest)) : rest.length < text.length := by
  fun_induction readParts text generalizing values rest with
  | case1 => simp at read
  | case2 text value last first joined =>
      simp only [Except.ok.injEq, Prod.mk.injEq] at read
      have lead := (skip_blank_suffix text).length_le
      have part := read_part_shorter first
      rw [read.2] at part
      omega
  | case3 => simp at read
  | case4 text value last first more joined _ values final later induction =>
      simp only [Except.ok.injEq, Prod.mk.injEq] at read
      have link := joined_part_shorter first joined
      have tail := induction later
      rw [read.2] at tail
      omega

theorem read_value_shorter {text rest : Text} {value : Value}
    (read : readValue text = .ok (value, rest)) : rest.length < text.length := by
  have lead := (skip_blank_suffix text).length_le
  simp only [readValue] at read
  split at read
  · simp at read
  · next single last parts =>
      simp only [Except.ok.injEq, Prod.mk.injEq] at read
      have shorter := read_parts_shorter parts
      rw [read.2] at shorter
      omega
  · next several last _ parts =>
      simp only [Except.ok.injEq, Prod.mk.injEq] at read
      have shorter := read_parts_shorter parts
      rw [read.2] at shorter
      omega

end Bibliography.Source
