import Bibliography.Source.Draft

/-!
Reading a whole text. Each step takes a loose line or a block together with the
text before it on its line; blank lines give nothing, every other loose line is
a comment. The steps never look back, so reading ends for every text.
-/

namespace Bibliography.Source

open Text

/-- The outcome of one step: what it found, and where the next one starts. A
last line without a line feed is read one place past the end. -/
structure Step where
  items : List Item
  next : Except Fault Text
  overrun : Nat := 0

def looseComment (text : Text) : List Item :=
  if text = [] then [] else [.comment text]

def nextLine (text : Text) : Text := (text.dropWhile fun char => char != '\n').drop 1

def lineStep (text : Text) (items : List Item) : Step :=
  ⟨items, .ok (nextLine text), if text.contains '\n' then 0 else 1⟩

def step (hasPreamble : Bool) (text : Text) : Step :=
  let line := trim (text.takeWhile fun char => char != '\n')
  if line = [] then lineStep text []
  else match after? '%' line with
    | some comment => lineStep text [.comment comment]
    | none =>
        match findHeader? text with
        | none => lineStep text [.comment line]
        | some (before, opening, header) =>
            match readBlock hasPreamble opening header with
            | .error fault => ⟨looseComment (trim before), .error fault, 0⟩
            | .ok (items, rest) => ⟨looseComment (trim before) ++ items, .ok rest, 0⟩

/-- All that a step can be, by the first line without the blanks around it. -/
inductive Takes (hasPreamble : Bool) (text line : Text) : Step → Prop
  | blank (empty : line = []) : Takes hasPreamble text line (lineStep text [])
  | percent {comment : Text} (marked : after? '%' line = some comment) :
      Takes hasPreamble text line (lineStep text [.comment comment])
  | loose (solid : line ≠ []) (unmarked : after? '%' line = none)
      (plain : findHeader? text = none) :
      Takes hasPreamble text line (lineStep text [.comment line])
  | faulty {before opening : Text} {header : Header} {fault : Fault} (solid : line ≠ [])
      (unmarked : after? '%' line = none)
      (found : findHeader? text = some (before, opening, header))
      (failed : readBlock hasPreamble opening header = .error fault) :
      Takes hasPreamble text line ⟨looseComment (trim before), .error fault, 0⟩
  | block {before opening rest : Text} {header : Header} {items : List Item} (solid : line ≠ [])
      (unmarked : after? '%' line = none)
      (found : findHeader? text = some (before, opening, header))
      (read : readBlock hasPreamble opening header = .ok (items, rest)) :
      Takes hasPreamble text line ⟨looseComment (trim before) ++ items, .ok rest, 0⟩

theorem step_takes (hasPreamble : Bool) (text : Text) :
    Takes hasPreamble text (trim (text.takeWhile fun char => char != '\n'))
      (step hasPreamble text) := by
  simp only [step]
  split
  · next empty => exact .blank empty
  · next solid =>
      split
      · next marked => exact .percent marked
      · next unmarked =>
          split
          · next plain => exact .loose solid unmarked plain
          · next found =>
              split
              · next failed => exact .faulty solid unmarked found failed
              · next read => exact .block solid unmarked found read

theorem next_line_shorter {text : Text} (nonempty : text ≠ []) :
    (nextLine text).length < text.length := by
  have positive := List.length_pos_iff.2 nonempty
  have drop := (List.dropWhile_suffix (l := text) fun char => char != '\n').length_le
  rw [nextLine, List.length_drop]
  omega

theorem step_shorter {hasPreamble : Bool} {text rest : Text} (nonempty : text ≠ [])
    (stepped : (step hasPreamble text).next = .ok rest) : rest.length < text.length := by
  have line := next_line_shorter nonempty
  have took := step_takes hasPreamble text
  generalize step hasPreamble text = outcome at took stepped
  cases took with
  | blank | percent | loose => exact Except.ok.inj stepped ▸ line
  | faulty => simp at stepped
  | block _ _ found read =>
      obtain ⟨parts, opened⟩ := find_header_start found
      have size := congrArg List.length parts
      have head := read_header_shorter opened
      have block := read_block_length_le read
      rw [Except.ok.inj stepped] at block
      rw [List.length_append] at size
      omega

/-- How the reading of a text ended. -/
inductive Ending
  | finished (overrun : Nat)
  | stopped (fault : Fault)

def readItems (hasPreamble : Bool) (text : Text) : List Item × Ending :=
  if empty : text = [] then ([], .finished 0)
  else
    let outcome := step hasPreamble text
    match stepped : outcome.next with
    | .error fault => (outcome.items, .stopped fault)
    | .ok rest =>
        have := step_shorter empty stepped
        if rest = [] then (outcome.items, .finished outcome.overrun)
        else
          let later := readItems (hasPreamble || outcome.items.any Item.isPreamble) rest
          (outcome.items ++ later.1, later.2)
termination_by text.length

end Bibliography.Source

namespace Bibliography

open Source

/-- Reads a source text into a document, or names the first fault and its line. -/
def Document.parse (text : Text) : Except ParseError Document :=
  match readItems false text with
  | (items, .finished _) => .ok (Draft.addAll {} items).finish.document
  | (_, .stopped fault) => .error (fault.locate text)

end Bibliography
