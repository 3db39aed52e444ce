import Bibliography.Proofs.Source.Draft
import Bibliography.Proofs.Source.Halts
import Bibliography.Proofs.Source.Trace
import Bibliography.Source.Cursor
import Mathlib.Logic.Relation

/-!
The loops of the reader, round by round. There are three, one inside the other: over lines and
blocks, over the fields of an entry, and over the parts of a value. A round is a step without
recursion; that the readers are these loops, and that each loop comes to its end, is proved
here. Every round that another one follows leaves less of the text, so a reading ends after no
more rounds than the text has characters, whatever the text.
-/

namespace Bibliography.Source

open Text

/-- How a round of a loop ends: with the state of the next one, or with the result of all. -/
inductive Round (State Result : Type)
  | again (state : State)
  | leave (result : Result)

/-- A loop that comes to a result after so many rounds. -/
inductive Ends {State Result : Type} (round : State → Round State Result) :
    Nat → State → Result → Prop
  | last {state : State} {result : Result} (left : round state = .leave result) :
      Ends round 1 state result
  | onward {count : Nat} {state next : State} {result : Result} (again : round state = .again next)
      (later : Ends round count next result) : Ends round (count + 1) state result

def startOf (text place : Text) : Nat := text.length - place.length

/-- One end of a text starts behind another one. -/
structure MovesOn (text before after : Text) : Prop where
  inside : after <:+ text
  further : startOf text before < startOf text after

theorem moves_on_of_shorter {text before after : Text} (inside : before <:+ text)
    (onward : after <:+ before) (shorter : after.length < before.length) :
    MovesOn text before after := by
  refine ⟨onward.trans inside, ?_⟩
  have bound := inside.length_le
  unfold startOf
  omega

/-- One round over the parts of a value, behind those that have been read. -/
def partRound : List Value × Text → Round (List Value × Text) (Except Fault (List Value × Text))
  | (values, text) =>
      match readPart (skipBlank text) with
      | .error fault => .leave (.error fault)
      | .ok (value, rest) =>
          match after? '#' (skipBlank rest) with
          | none => .leave (.ok (values ++ [value], rest))
          | some more => .again (values ++ [value], more)

theorem part_round_moves {text place next : Text} {values more : List Value}
    (inside : place <:+ text) (again : partRound (values, place) = .again (more, next)) :
    MovesOn text place next := by
  unfold partRound at again
  dsimp only at again
  split at again
  · simp at again
  · next value rest first =>
      split at again
      · simp at again
      · next joined =>
          rw [← (Prod.mk.inj (Round.again.inj again)).2]
          have part := ((read_part_within _).left first).trans (skip_blank_suffix place)
          exact moves_on_of_shorter inside ((after_mark_suffix joined).trans part)
            (joined_part_shorter first joined)

theorem parts_end (values : List Value) (text : Text) :
    ∃ count ≤ text.length + 1, Ends partRound count (values, text)
      ((readParts text).map fun read => (values ++ read.1, read.2)) := by
  fun_induction readParts text generalizing values with
  | case1 text fault failed =>
      refine ⟨1, by omega, .last ?_⟩
      rw [partRound, failed]
      rfl
  | case2 text value rest first joined =>
      refine ⟨1, by omega, .last ?_⟩
      simp only [partRound, first, joined]
      rfl
  | case3 text value rest first more joined shorter fault failed induction =>
      obtain ⟨count, few, later⟩ := induction (values ++ [value])
      rw [failed] at later
      refine ⟨count + 1, by omega, .onward ?_ later⟩
      simp only [partRound, first, joined]
  | case4 text value rest first more joined shorter others last read induction =>
      obtain ⟨count, few, later⟩ := induction (values ++ [value])
      rw [read] at later
      simp only [Except.map, List.append_assoc, List.singleton_append] at later
      refine ⟨count + 1, by omega, .onward ?_ later⟩
      simp only [partRound, first, joined]

/-- One round over the fields of an entry, behind a comma. -/
def fieldRound (closer : Char) (key opening : Text) :
    List Field × Text → Round (List Field × Text) (Except Fault (List Field × Text))
  | (fields, text) =>
      match after? closer (skipBlank text) with
      | some rest => .leave (.ok (fields, rest))
      | none =>
          match readAssignment? (skipBlank text) with
          | none => .leave (.error (fieldFault key opening (skipBlank text)))
          | some (name, assigned) =>
              match readValue assigned with
              | .error fault => .leave (.error fault)
              | .ok (value, rest) =>
                  match expect [',', closer] (afterField name key) rest with
                  | .error fault => .leave (.error fault)
                  | .ok (separator, last) =>
                      if separator = ',' then .again (fields ++ [(lower name, value)], last)
                      else .leave (.ok (fields ++ [(lower name, value)], last))

theorem field_round_moves {closer : Char} {key opening text place next : Text}
    {fields more : List Field} (inside : place <:+ text)
    (again : fieldRound closer key opening (fields, place) = .again (more, next)) :
    MovesOn text place next := by
  unfold fieldRound at again
  dsimp only at again
  split at again
  · simp at again
  · split at again
    · simp at again
    · next named =>
        split at again
        · simp at again
        · next rest valued =>
            split at again
            · simp at again
            · next separated =>
                split at again
                · rw [← (Prod.mk.inj (Round.again.inj again)).2]
                  have value := (field_value_within named).left valued
                  exact moves_on_of_shorter inside
                    (((expect_within _ _ rest).left separated).trans value)
                    (field_shorter named valued separated)
                · simp at again

theorem fields_end (closer : Char) (key opening : Text) (fields : List Field) (text : Text) :
    ∃ count ≤ text.length + 1, Ends (fieldRound closer key opening) count (fields, text)
      ((readFields closer key opening text).map fun read => (fields ++ read.1, read.2)) := by
  fun_induction readFields closer key opening text generalizing fields with
  | case1 text rest closed =>
      refine ⟨1, by omega, .last ?_⟩
      simp only [fieldRound, closed, Except.map, List.append_nil]
  | case2 text more missing =>
      refine ⟨1, by omega, .last ?_⟩
      simp only [fieldRound, more, missing]
      rfl
  | case3 text more name assigned named fault failed =>
      refine ⟨1, by omega, .last ?_⟩
      simp only [fieldRound, more, named, failed]
      rfl
  | case4 text more name assigned named value rest valued fault failed =>
      refine ⟨1, by omega, .last ?_⟩
      simp only [fieldRound, more, named, valued, failed]
      rfl
  | case5 text more name assigned named value rest valued last fault failed separated shorter
      induction =>
      obtain ⟨count, few, later⟩ := induction (fields ++ [(lower name, value)])
      rw [failed] at later
      refine ⟨count + 1, by omega, .onward ?_ later⟩
      simp only [fieldRound, more, named, valued, separated, if_true]
  | case6 text more name assigned named value rest valued last others final read separated shorter
      induction =>
      obtain ⟨count, few, later⟩ := induction (fields ++ [(lower name, value)])
      rw [read] at later
      simp only [Except.map, List.append_assoc, List.singleton_append] at later
      refine ⟨count + 1, by omega, .onward ?_ later⟩
      simp only [fieldRound, more, named, valued, separated, if_true]
  | case7 text more name assigned named value rest valued separator last separated different =>
      refine ⟨1, by omega, .last ?_⟩
      simp only [fieldRound, more, named, valued, separated, if_neg different]
      rfl

/-- A step goes beyond the end of the text by one place at most, and only over a last line
without a line feed. -/
theorem step_overrun (seen : Bool) (text : Text) : (step seen text).overrun ≤ 1 := by
  have took := step_takes seen text
  generalize step seen text = outcome at took ⊢
  cases took with
  | blank | percent | loose =>
      unfold lineStep
      dsimp only
      split <;> omega
  | faulty | block => exact Nat.zero_le 1

theorem step_overrun_onward {seen : Bool} {text rest : Text}
    (stepped : (step seen text).next = .ok rest) (goesOn : rest ≠ []) :
    (step seen text).overrun = 0 := by
  have took := step_takes seen text
  generalize step seen text = outcome at took stepped ⊢
  cases took with
  | blank | percent | loose =>
      have behind : nextLine text = rest := Except.ok.inj stepped
      apply if_pos
      by_contra single
      have last : FirstLine text text [] :=
        .last fun member => single (List.contains_iff_mem.2 member)
      exact goesOn (behind.symm.trans (line_of_first last).2)
  | faulty | block => rfl

namespace Cursor

theorem remaining_length (cursor : Cursor) :
    cursor.remaining.length = cursor.text.length - cursor.position :=
  List.length_drop

theorem remaining_ne_nil {cursor : Cursor} (begun : cursor.position < cursor.text.length) :
    cursor.remaining ≠ [] := by
  apply List.ne_nil_of_length_pos
  rw [remaining_length]
  omega

theorem remaining_move_to {cursor : Cursor} {rest : Text} (inside : rest <:+ cursor.remaining) :
    (cursor.moveTo rest).remaining = rest := by
  obtain ⟨front, parts⟩ := inside
  have passed : cursor.remaining.length - rest.length = front.length := by
    rw [← parts, List.length_append]
    omega
  have whole : (cursor.moveTo rest).remaining = cursor.remaining.drop front.length := by
    unfold moveTo
    rw [passed, remaining, remaining, List.drop_drop]
  rw [whole, ← parts, List.drop_left]

theorem preamble_known (draft : Draft) (items : List Item) :
    (draft.addAll items).document.preamble.isSome =
      (draft.document.preamble.isSome || items.any Item.isPreamble) := by
  have none := draft.preamble_add_all items
  cases added : (draft.addAll items).document.preamble with
  | none =>
      obtain ⟨before, others⟩ := none.1 added
      rw [before, others]
      rfl
  | some value =>
      cases before : draft.document.preamble with
      | some first => rfl
      | none =>
          cases others : items.any Item.isPreamble with
          | true => rfl
          | false => exact absurd (none.2 ⟨before, others⟩) (by simp [added])

/-- One round over the lines and blocks of a text. -/
def round (cursor : Cursor) : Round Cursor (Cursor × Except ParseError Document) :=
  if cursor.position < cursor.text.length then
    let outcome := step cursor.draft.document.preamble.isSome cursor.remaining
    let filled := { cursor with draft := cursor.draft.addAll outcome.items }
    match outcome.next with
    | .error fault => .leave (filled.fail fault)
    | .ok rest =>
        .again { filled with position := (filled.moveTo rest).position + outcome.overrun }
  else
    let finished := cursor.draft.finish
    .leave ({ cursor with draft := finished }, .ok finished.document)

def stopAt (cursor : Cursor) (left : Text) :
    List Item × Ending → Cursor × Except ParseError Document
  | (items, .stopped fault) =>
      (⟨cursor.text, cursor.position + (left.length - fault.rest.length),
        (cursor.draft.addAll items).keep fault.salvage⟩, .error (fault.locate cursor.text))
  | (items, .finished overrun) =>
      (⟨cursor.text, cursor.position + left.length + overrun,
        (cursor.draft.addAll items).finish⟩, .ok (cursor.draft.addAll items).finish.document)

theorem read_all_eq (cursor : Cursor) :
    cursor.readAll = cursor.stopAt cursor.remaining
      (readItems cursor.draft.document.preamble.isSome cursor.remaining) := by
  unfold readAll
  cases readItems cursor.draft.document.preamble.isSome cursor.remaining with
  | mk items ending => cases ending <;> rfl

/-- A round that another one follows: it begins inside the text and takes one step. -/
structure Passes (cursor after : Cursor) (found : List Item) (rest : Text) (overrun : Nat) :
    Prop where
  begun : cursor.position < cursor.text.length
  stepped : step cursor.draft.document.preamble.isSome cursor.remaining = ⟨found, .ok rest, overrun⟩
  moved : after = { cursor with
    position := cursor.position + (cursor.remaining.length - rest.length) + overrun
    draft := cursor.draft.addAll found }

theorem passes_of_again {cursor after : Cursor} (again : cursor.round = .again after) :
    ∃ found rest overrun, Passes cursor after found rest overrun := by
  unfold round at again
  split at again
  · next begun =>
      cases outcome : step cursor.draft.document.preamble.isSome cursor.remaining with
      | mk found next overrun =>
          rw [outcome] at again
          cases next with
          | error fault => simp at again
          | ok rest => exact ⟨found, rest, overrun, begun, outcome, (Round.again.inj again).symm⟩
  · simp at again

namespace Passes

variable {cursor after : Cursor} {found : List Item} {rest : Text} {overrun : Nat}

theorem nonempty (passes : Passes cursor after found rest overrun) : cursor.remaining ≠ [] :=
  remaining_ne_nil passes.begun

theorem inside (passes : Passes cursor after found rest overrun) : rest <:+ cursor.remaining :=
  step_within (congrArg Step.next passes.stepped)

theorem shorter (passes : Passes cursor after found rest overrun) :
    rest.length < cursor.remaining.length :=
  step_shorter passes.nonempty (congrArg Step.next passes.stepped)

theorem overrun_le (passes : Passes cursor after found rest overrun) : overrun ≤ 1 := by
  have bound := step_overrun cursor.draft.document.preamble.isSome cursor.remaining
  rw [passes.stepped] at bound
  exact bound

theorem overrun_zero (passes : Passes cursor after found rest overrun) (goesOn : rest ≠ []) :
    overrun = 0 := by
  have none := step_overrun_onward (congrArg Step.next passes.stepped) goesOn
  rw [passes.stepped] at none
  exact none

theorem text (passes : Passes cursor after found rest overrun) : after.text = cursor.text := by
  rw [passes.moved]

theorem position (passes : Passes cursor after found rest overrun) :
    after.position = cursor.position + (cursor.remaining.length - rest.length) + overrun := by
  rw [passes.moved]

theorem further (passes : Passes cursor after found rest overrun) :
    cursor.position < after.position := by
  have place := passes.position
  have shorter := passes.shorter
  omega

theorem bounded (passes : Passes cursor after found rest overrun) :
    after.position ≤ cursor.text.length + 1 := by
  have place := passes.position
  have begun := passes.begun
  have limit := passes.overrun_le
  rw [remaining_length] at place
  omega

theorem remaining (passes : Passes cursor after found rest overrun) : after.remaining = rest := by
  by_cases last : rest = []
  · have place := passes.position
    rw [last, List.length_nil, remaining_length] at place
    have behind : after.remaining.length = 0 := by
      rw [remaining_length, passes.text]
      omega
    rw [last, List.length_eq_zero_iff.1 behind]
  · rw [passes.moved, passes.overrun_zero last]
    exact remaining_move_to passes.inside

theorem seen (passes : Passes cursor after found rest overrun) :
    after.draft.document.preamble.isSome =
      (cursor.draft.document.preamble.isSome || found.any Item.isPreamble) := by
  rw [passes.moved]
  exact preamble_known cursor.draft found

theorem read_all (passes : Passes cursor after found rest overrun) :
    after.readAll = cursor.readAll := by
  have whole := read_items_step passes.nonempty passes.stepped
  have shorter := passes.shorter
  rw [read_all_eq, read_all_eq, passes.remaining, passes.seen, whole, passes.moved]
  by_cases last : rest = []
  · rw [if_pos last, last, readItems, dif_pos rfl]
    simp only [stopAt, List.length_nil, Nat.sub_zero, Nat.add_zero]
    rfl
  · rw [if_neg last, passes.overrun_zero last]
    cases read : readItems (cursor.draft.document.preamble.isSome || found.any Item.isPreamble)
        rest with
    | mk items ending =>
        have added := Draft.add_all_append cursor.draft found items
        cases ending with
        | finished overrun =>
            simp only [stopAt, added]
            rw [show cursor.position + (cursor.remaining.length - rest.length) + 0 + rest.length +
              overrun = cursor.position + cursor.remaining.length + overrun by omega]
        | stopped fault =>
            have fewer := ((read_items_reached read).trans (read_items_within read)).length_le
            simp only [stopAt, added]
            rw [show cursor.position + (cursor.remaining.length - rest.length) + 0 +
              (rest.length - fault.rest.length) =
              cursor.position + (cursor.remaining.length - fault.rest.length) by omega]

end Passes

theorem read_all_of_leave {cursor : Cursor} {result : Cursor × Except ParseError Document}
    (left : cursor.round = .leave result) : cursor.readAll = result := by
  unfold round at left
  split at left
  · next begun =>
      dsimp only at left
      split at left
      · next fault failed =>
          rw [← Round.leave.inj left, read_all_eq, readItems, dif_neg (remaining_ne_nil begun)]
          dsimp only
          split
          · next same =>
              rw [Except.error.inj (failed.symm.trans same)]
              rfl
          · next same => exact absurd (failed.symm.trans same) (by simp)
      · simp at left
  · next beyond =>
      have empty : cursor.remaining = [] := List.drop_eq_nil_of_le (by omega)
      rw [← Round.leave.inj left, read_all_eq, empty, readItems, dif_pos rfl]
      rfl

theorem rounds_end (cursor : Cursor) :
    ∃ count ≤ cursor.remaining.length + 1, Ends round count cursor cursor.readAll := by
  generalize size : cursor.remaining.length = length
  induction length using Nat.strongRecOn generalizing cursor with
  | ind length induction =>
      cases outcome : cursor.round with
      | leave result =>
          rw [read_all_of_leave outcome]
          exact ⟨1, by omega, .last outcome⟩
      | again after =>
          obtain ⟨found, rest, overrun, passes⟩ := passes_of_again outcome
          have fewer := passes.shorter
          obtain ⟨count, few, later⟩ := induction rest.length (size ▸ fewer) after
            (congrArg List.length passes.remaining)
          rw [passes.read_all] at later
          exact ⟨count + 1, by omega, .onward outcome later⟩

theorem bounded_of_leave {cursor : Cursor} {result : Cursor × Except ParseError Document}
    (left : cursor.round = .leave result) (bound : cursor.position ≤ cursor.text.length + 1) :
    result.1.position ≤ cursor.text.length + 1 := by
  unfold round at left
  split at left
  · next begun =>
      dsimp only at left
      split at left
      · next fault failed =>
          have size := cursor.remaining_length
          rw [← Round.leave.inj left]
          change cursor.position + (cursor.remaining.length - fault.rest.length) ≤ _
          omega
      · simp at left
  · rw [← Round.leave.inj left]
    exact bound

theorem bounded_of_ends {count : Nat} {cursor : Cursor}
    {result : Cursor × Except ParseError Document} (ends : Ends round count cursor result)
    (bound : cursor.position ≤ cursor.text.length + 1) :
    result.1.position ≤ cursor.text.length + 1 := by
  induction ends with
  | last left => exact bounded_of_leave left bound
  | onward again _ induction =>
      obtain ⟨found, rest, overrun, passes⟩ := passes_of_again again
      rw [← passes.text] at bound ⊢
      apply induction
      have limit := passes.bounded
      rwa [← passes.text] at limit

theorem read_all_parses (text : Text) : (readAll { text }).2 = Document.parse text := by
  rw [read_all_eq]
  unfold Document.parse
  change (stopAt _ text (readItems false text)).2 = _
  cases readItems false text with
  | mk items ending => cases ending <;> rfl

theorem read_block_moves {cursor after : Cursor} {opening : Nat}
    (read : cursor.readBlock opening = (after, .ok ())) :
    opening < after.position ∧ after.position ≤ cursor.text.length := by
  unfold readBlock at read
  dsimp only at read
  split at read
  · simp at read
  · next header opened =>
      obtain ⟨items, rest, block, moved⟩ := (run_block_iff _ _ _ _).1 read
      have head := read_header_shorter opened
      have tail := read_block_length_le block
      have start : (cursor.text.drop opening).length = cursor.text.length - opening :=
        List.length_drop
      have body : (cursor.seek (cursor.text.length - header.body.length)).remaining.length =
          header.body.length := by
        rw [remaining_length]
        change cursor.text.length - (cursor.text.length - header.body.length) = header.body.length
        omega
      have place : after.position = cursor.text.length - header.body.length +
          ((cursor.seek (cursor.text.length - header.body.length)).remaining.length -
            rest.length) := by
        rw [moved]
        rfl
      omega

end Cursor

/-- The states that the reading of a text goes through, round by round. -/
def Reaches (text : Text) : Cursor → Prop :=
  Relation.ReflTransGen (fun before after => before.round = .again after) { text }

theorem text_of_reaches {text : Text} {cursor : Cursor} (reached : Reaches text cursor) :
    cursor.text = text := by
  induction reached with
  | refl => rfl
  | tail _ again same =>
      obtain ⟨found, rest, overrun, passes⟩ := Cursor.passes_of_again again
      exact passes.text.trans same

theorem line_of_place {text place : Text} (inside : place <:+ text) :
    lineOf text place = lineFeeds (text.take (startOf text place)) + 1 := by
  obtain ⟨front, rfl⟩ := inside
  have start : startOf (front ++ place) place = front.length := by
    rw [startOf, List.length_append]
    omega
  rw [start, List.take_left, lineOf]
  unfold lineFeeds
  rw [List.count_append]
  omega

/-- What holds of the reading of a text. Positions are counted from the start of the text. -/
structure Progresses (text : Text) : Prop where
  /-- A round over lines and blocks moves on, past the end by one place at most. -/
  items : ∀ cursor after : Cursor, Reaches text cursor → cursor.round = .again after →
    cursor.position < after.position ∧ after.position ≤ text.length + 1
  /-- A round over the fields of an entry moves on, wherever it begins. -/
  fields : ∀ (closer : Char) (key opening place next : Text) (before after : List Field),
    place <:+ text → fieldRound closer key opening (before, place) = .again (after, next) →
      MovesOn text place next
  /-- A round over the parts of a value moves on, wherever it begins. -/
  parts : ∀ (place next : Text) (before after : List Value),
    place <:+ text → partRound (before, place) = .again (after, next) → MovesOn text place next
  /-- A block ends behind its opening, even where its opener is read once more. -/
  blocks : ∀ (cursor after : Cursor) (opening : Nat), cursor.text = text →
    cursor.readBlock opening = (after, .ok ()) →
      opening < after.position ∧ after.position ≤ text.length
  /-- A block that fails stops inside the text, not before the place that is blamed. -/
  stops : ∀ (seen : Bool) (opening : Text) (header : Header) (fault : Fault), opening <:+ text →
    readHeader? opening = some header → readBlock seen opening header = .error fault →
      fault.place <:+ text ∧ fault.rest <:+ fault.place
  /-- The loops come to an end, with what is read of the text. -/
  itemsEnd : ∃ count ≤ text.length + 1, Ends Cursor.round count { text } (Cursor.readAll { text })
  fieldsEnd : ∀ (closer : Char) (key opening place : Text), place <:+ text →
    ∃ count ≤ place.length + 1,
      Ends (fieldRound closer key opening) count ([], place) (readFields closer key opening place)
  partsEnd : ∀ place : Text, place <:+ text →
    ∃ count ≤ place.length + 1, Ends partRound count ([], place) (readParts place)
  parsed : (Cursor.readAll { text }).2 = Document.parse text
  bounded : (Cursor.readAll { text }).1.position ≤ text.length + 1
  /-- The line of an error is that of a place which reading has come to. -/
  located : ∀ error, Document.parse text = .error error →
    ∃ place ≤ (Cursor.readAll { text }).1.position,
      (Cursor.readAll { text }).1.position ≤ text.length ∧
      error.line = lineFeeds (text.take place) + 1
  lines : ∀ error, Document.parse text = .error error →
    1 ≤ error.line ∧ error.line ≤ 1 + lineFeeds text

theorem located_of_parse {text : Text} {error : ParseError}
    (failed : Document.parse text = .error error) :
    ∃ place ≤ (Cursor.readAll { text }).1.position,
      (Cursor.readAll { text }).1.position ≤ text.length ∧
      error.line = lineFeeds (text.take place) + 1 := by
  rcases parse_error_iff.1 failed with ⟨items, fault, read, rfl⟩
  have stopped : (Cursor.readAll { text }).1.position = startOf text fault.rest := by
    rw [Cursor.read_all_eq]
    change (Cursor.stopAt _ text (readItems false text)).1.position = _
    rw [read]
    exact Nat.zero_add _
  have order := (read_items_reached read).length_le
  rw [stopped]
  refine ⟨startOf text fault.place, ?_, Nat.sub_le _ _, line_of_place (read_items_within read)⟩
  unfold startOf
  omega

/-- Reading moves on in every round of every loop, stays inside the text but for the one place
behind a last line, and so comes to an end, with a line of the text if it fails. -/
theorem reading_progresses (text : Text) : Progresses text where
  items := by
    intro cursor after reached again
    obtain ⟨found, rest, overrun, passes⟩ := Cursor.passes_of_again again
    have bound := passes.bounded
    rw [text_of_reaches reached] at bound
    exact ⟨passes.further, bound⟩
  fields := fun _ _ _ _ _ _ _ inside again => field_round_moves inside again
  parts := fun _ _ _ _ inside again => part_round_moves inside again
  blocks := by
    rintro cursor after opening rfl read
    exact Cursor.read_block_moves read
  stops := by
    intro seen opening header fault inside opened failed
    have place := (read_block_within opened).blamed failed
    exact ⟨place.trans inside, read_block_reached opened failed⟩
  itemsEnd := Cursor.rounds_end { text }
  fieldsEnd := by
    intro closer key opening place _
    obtain ⟨count, few, ends⟩ := fields_end closer key opening [] place
    refine ⟨count, few, ?_⟩
    cases read : readFields closer key opening place <;> rw [read] at ends <;> exact ends
  partsEnd := by
    intro place _
    obtain ⟨count, few, ends⟩ := parts_end [] place
    refine ⟨count, few, ?_⟩
    cases read : readParts place <;> rw [read] at ends <;> exact ends
  parsed := Cursor.read_all_parses text
  bounded := by
    obtain ⟨count, _, ends⟩ := Cursor.rounds_end { text }
    exact Cursor.bounded_of_ends ends (Nat.zero_le _)
  located := fun _ failed => located_of_parse failed
  lines := by
    intro error failed
    obtain ⟨place, _, _, line⟩ := located_of_parse failed
    have feeds : lineFeeds (text.take place) ≤ lineFeeds text :=
      (List.take_sublist place text).count_le _
    omega

-- Behind a last line without a line feed, reading ends one place past the end.
example : (Cursor.readAll { text := "% a".toList }).1.position = 4 := by
  cbv

end Bibliography.Source
