import Bibliography.Source.Part
import Bibliography.Text.Case

/-!
The bodies of blocks: comments, the preamble, abbreviations and entries. Each
reader starts after the opener of its block, except that a comment in braces is
read as the group that its opener begins.
-/

namespace Bibliography.Source

open Text

def commentLines (body : Text) : List Text :=
  ((lines body).map trim).filter fun line => !line.isEmpty

def readComment : Enclosure → Text → Except Fault (List Text × Text)
  | .braces, text => (readBraced text).map fun read => (commentLines read.1, read.2)
  | .parens, text =>
      match after? ')' (text.dropWhile fun char => char != ')') with
      | some rest => .ok (commentLines (text.takeWhile fun char => char != ')'), rest)
      | none => .error ⟨.unclosedComment, text, text, .nothing⟩

def readPreamble (enclosure : Enclosure) (text : Text) : Except Fault (Value × Text) :=
  match readValue text with
  | .error fault => .error fault
  | .ok (value, rest) =>
      match expect [enclosure.closer] "to close @preamble".toList rest with
      | .error fault => .error { fault with salvage := .preamble value }
      | .ok (_, last) => .ok (value, last)

def readAbbreviation (enclosure : Enclosure) (text : Text) :
    Except Fault (Abbreviation × Text) :=
  let start := skipBlank text
  match readAssignment? start with
  | none => .error ⟨.malformedAbbreviation, start, start, .nothing⟩
  | some (name, assigned) =>
      match readValue assigned with
      | .error fault => .error fault
      | .ok (value, rest) =>
          match expect [enclosure.closer] "to close @string".toList rest with
          | .error fault => .error { fault with salvage := .abbreviation ⟨name, value⟩ }
          | .ok (_, last) => .ok (⟨name, value⟩, last)

def afterKey (key : Text) : Text := "after key '".toList ++ key ++ "'".toList

def afterField (name key : Text) : Text :=
  "after field '".toList ++ name ++ "' in entry '".toList ++ key ++ "'".toList

/-- What a place that starts no field is blamed for. The end of the text is
blamed on the opening of the entry. -/
def fieldFault (key opening here : Text) : Fault :=
  if here = [] then ⟨.unclosedEntry key, opening, here, .nothing⟩
  else ⟨.malformedField key (here.head? == some '%'), here, here, .nothing⟩

theorem field_shorter {text name assigned rest last context allowed : Text} {value : Value}
    {separator : Char}
    (named : readAssignment? (skipBlank text) = some (name, assigned))
    (valued : readValue assigned = .ok (value, rest))
    (separated : expect allowed context rest = .ok (separator, last)) :
    last.length < text.length := by
  have lead := (skip_blank_suffix text).length_le
  have name := read_assignment_length_le named
  have value := read_value_shorter valued
  have separator := expect_shorter separated
  omega

/-- The fields after a comma, in order and with names in lower case, up to and
with the closer. A comma before the closer is allowed. -/
def readFields (closer : Char) (key opening : Text) (text : Text) :
    Except Fault (List Field × Text) :=
  match after? closer (skipBlank text) with
  | some rest => .ok ([], rest)
  | none =>
      match named : readAssignment? (skipBlank text) with
      | none => .error (fieldFault key opening (skipBlank text))
      | some (name, assigned) =>
          match valued : readValue assigned with
          | .error fault => .error fault
          | .ok (value, rest) =>
              match separated : expect [',', closer] (afterField name key) rest with
              | .error fault => .error fault
              | .ok (separator, last) =>
                  if separator = ',' then
                    have := field_shorter named valued separated
                    match readFields closer key opening last with
                    | .error fault => .error fault
                    | .ok (fields, final) => .ok ((lower name, value) :: fields, final)
                  else .ok ([(lower name, value)], last)
termination_by text.length

/-- An entry without its comments. The opening is the place blamed when the key
is missing or the text ends inside the entry. -/
def readEntry (kind : Text) (enclosure : Enclosure) (opening : Text) (text : Text) :
    Except Fault (Entry × Text) :=
  match readKey? text with
  | none => .error ⟨.missingKey kind, opening, text, .nothing⟩
  | some (key, afterwards) =>
      match expect [',', enclosure.closer] (afterKey key) afterwards with
      | .error fault => .error { fault with salvage := .openEntry }
      | .ok (separator, rest) =>
          if separator = ',' then
            match readFields enclosure.closer key opening rest with
            | .error fault => .error { fault with salvage := .openEntry }
            | .ok (fields, last) => .ok (⟨kind, key, Fields.ofList fields, []⟩, last)
          else .ok (⟨kind, key, Fields.empty, []⟩, rest)

/-- What a source text consists of, in reading order. An entry of this list has
no comments yet; they are the comment items before it. -/
inductive Item
  | comment (text : Text)
  | preamble (value : Value)
  | abbreviation (abbreviation : Abbreviation)
  | entry (entry : Entry)

def Item.isPreamble : Item → Bool
  | preamble _ => true
  | _ => false

/-- Reads the block that a header opens. The kind decides what its body is, and
no more than one preamble is allowed. -/
def readBlock (hasPreamble : Bool) (opening : Text) (header : Header) :
    Except Fault (List Item × Text) :=
  let kind := lower header.kind
  if kind = "comment".toList then
    let start := match header.enclosure with
      | .braces => '{' :: header.body
      | .parens => header.body
    (readComment header.enclosure start).map fun read => (read.1.map .comment, read.2)
  else if kind = "preamble".toList then
    if hasPreamble then .error ⟨.secondPreamble, opening, header.body, .nothing⟩
    else (readPreamble header.enclosure header.body).map fun read => ([.preamble read.1], read.2)
  else if kind = "string".toList then
    (readAbbreviation header.enclosure header.body).map fun read =>
      ([.abbreviation read.1], read.2)
  else
    (readEntry header.kind header.enclosure opening header.body).map fun read =>
      ([.entry read.1], read.2)

theorem except_map_ok {Read Result : Type} {outcome : Except Fault Read} {change : Read → Result}
    {result : Result} (mapped : outcome.map change = .ok result) :
    ∃ read, outcome = .ok read ∧ change read = result := by
  cases outcome with
  | error fault => simp [Except.map] at mapped
  | ok read => exact ⟨read, rfl, by simpa [Except.map] using mapped⟩

theorem read_comment_length_le {enclosure : Enclosure} {text rest : Text} {comments : List Text}
    (read : readComment enclosure text = .ok (comments, rest)) :
    rest.length + 1 ≤ text.length := by
  cases enclosure with
  | braces =>
      obtain ⟨⟨body, last⟩, braced, same⟩ := except_map_ok read
      simp only [Prod.mk.injEq] at same
      exact same.2 ▸ read_braced_shorter braced
  | parens =>
      simp only [readComment] at read
      split at read
      · next last closed =>
          simp only [Except.ok.injEq, Prod.mk.injEq] at read
          have mark := congrArg List.length (after_suffix closed)
          have drop := (List.dropWhile_suffix (l := text) fun char => char != ')').length_le
          rw [read.2] at mark
          simp only [List.length_cons] at mark
          omega
      · simp at read

theorem read_preamble_shorter {enclosure : Enclosure} {text rest : Text} {value : Value}
    (read : readPreamble enclosure text = .ok (value, rest)) : rest.length < text.length := by
  simp only [readPreamble] at read
  split at read
  · simp at read
  · next _ middle valued =>
      split at read
      · simp at read
      · next _ last closed =>
          simp only [Except.ok.injEq, Prod.mk.injEq] at read
          have first := read_value_shorter valued
          have second := expect_shorter closed
          rw [read.2] at second
          omega

theorem read_abbreviation_shorter {enclosure : Enclosure} {text rest : Text}
    {abbreviation : Abbreviation}
    (read : readAbbreviation enclosure text = .ok (abbreviation, rest)) :
    rest.length < text.length := by
  simp only [readAbbreviation] at read
  split at read
  · simp at read
  · next name assigned named =>
      split at read
      · simp at read
      · next value middle valued =>
          split at read
          · simp at read
          · next separator last closed =>
              simp only [Except.ok.injEq, Prod.mk.injEq] at read
              have shorter := field_shorter named valued closed
              rw [read.2] at shorter
              exact shorter

theorem read_fields_shorter {closer : Char} {key opening text rest : Text} {fields : List Field}
    (read : readFields closer key opening text = .ok (fields, rest)) :
    rest.length < text.length := by
  fun_induction readFields closer key opening text generalizing fields rest with
  | case1 text last closed =>
      simp only [Except.ok.injEq, Prod.mk.injEq] at read
      have lead := (skip_blank_suffix text).length_le
      have mark := congrArg List.length (after_suffix closed)
      rw [read.2] at mark
      simp at mark
      omega
  | case2 => simp at read
  | case3 => simp at read
  | case4 => simp at read
  | case5 => simp at read
  | case6 text _ name assigned named value middle valued last fields final later separated
      field induction =>
      simp only [Except.ok.injEq, Prod.mk.injEq] at read
      have tail := induction later
      rw [read.2] at tail
      omega
  | case7 text _ name assigned named value middle valued separator last separated _ =>
      simp only [Except.ok.injEq, Prod.mk.injEq] at read
      exact read.2 ▸ field_shorter named valued separated

theorem read_entry_shorter {kind opening text rest : Text} {enclosure : Enclosure} {entry : Entry}
    (read : readEntry kind enclosure opening text = .ok (entry, rest)) :
    rest.length < text.length := by
  simp only [readEntry] at read
  split at read
  · simp at read
  · next key middle keyed =>
      have key := read_key_length_le keyed
      split at read
      · simp at read
      · next separator last separated =>
          have separator := expect_shorter separated
          split at read
          · split at read
            · simp at read
            · next fields final later =>
                simp only [Except.ok.injEq, Prod.mk.injEq] at read
                have tail := read_fields_shorter later
                rw [read.2] at tail
                omega
          · simp only [Except.ok.injEq, Prod.mk.injEq] at read
            rw [read.2] at separator
            omega

/-- A block ends after its opener, hence well after its at sign. -/
theorem read_block_length_le {hasPreamble : Bool} {opening rest : Text} {header : Header}
    {items : List Item} (read : readBlock hasPreamble opening header = .ok (items, rest)) :
    rest.length ≤ header.body.length := by
  simp only [readBlock] at read
  split at read
  · obtain ⟨⟨comments, last⟩, commented, same⟩ := except_map_ok read
    simp only [Prod.mk.injEq] at same
    have shorter := read_comment_length_le commented
    rw [same.2] at shorter
    cases sort : header.enclosure <;> simp only [sort, List.length_cons] at shorter <;> omega
  · split at read
    · split at read
      · simp at read
      · obtain ⟨⟨value, last⟩, inner, same⟩ := except_map_ok read
        simp only [Prod.mk.injEq] at same
        have shorter := read_preamble_shorter inner
        rw [same.2] at shorter
        omega
    · split at read
      · obtain ⟨⟨value, last⟩, inner, same⟩ := except_map_ok read
        simp only [Prod.mk.injEq] at same
        have shorter := read_abbreviation_shorter inner
        rw [same.2] at shorter
        omega
      · obtain ⟨⟨value, last⟩, inner, same⟩ := except_map_ok read
        simp only [Prod.mk.injEq] at same
        have shorter := read_entry_shorter inner
        rw [same.2] at shorter
        omega

end Bibliography.Source
