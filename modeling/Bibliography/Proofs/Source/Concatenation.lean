import Bibliography.Proofs.Source.Append
import Bibliography.Proofs.Source.Homes

/-!
Two texts one behind the other. If the first is read and ends with a line feed, and none
of the comments it ends with has an at sign, the second is read behind it as it would be
alone. What waits at the end of the first goes where comments at the start of the second
go, and a fault of the second keeps its cause and moves down by the lines of the first.
-/

namespace Bibliography

/-- The document with more comments in front of those with this home. -/
def Document.receive (document : Document) (comments : List Text) : Home → Document
  | .front => { document with commentsBefore := comments ++ document.commentsBefore }
  | .entry index =>
      { document with
        entries := document.entries.modify index fun entry =>
          { entry with comments := comments ++ entry.comments } }
  | .back => { document with commentsAfter := comments ++ document.commentsAfter }

namespace Source

/-- Where comments go that stand before the first block of a text. -/
def openingHome (text : Text) : Home := Item.home 0 (readItems false text).1

theorem opening_home_of_gives {text : Text} {items : List Item} (given : Gives false text items) :
    openingHome text = Item.home 0 items := by
  rcases given with ⟨overrun, read⟩
  rw [openingHome, read]

namespace Draft

theorem comments_after_add_all (draft : Draft) (items : List Item) :
    (draft.addAll items).document.commentsAfter = draft.document.commentsAfter := by
  induction items generalizing draft with
  | nil => rfl
  | cons item rest induction =>
      rw [add_all_cons, induction]
      cases item <;> rfl

theorem finish_waiting (waiting early : List Text) (items : List Item) :
    (addAll ⟨waiting ++ early, {}⟩ items).finish.document =
      (addAll ⟨early, {}⟩ items).finish.document.receive waiting (Item.home 0 items) := by
  induction items generalizing early with
  | nil => rfl
  | cons item rest induction =>
      rw [add_all_cons, add_all_cons]
      have settled : ∀ value : Draft, (addAll (behind { commentsBefore := waiting } value)
          rest).finish.document = (addAll value rest).finish.document.receive waiting .front := by
        intro value
        rw [add_all_behind (Or.inl rfl), finish_behind]
        rfl
      cases item with
      | comment text =>
          have later := induction (early ++ [text])
          rw [← List.append_assoc] at later
          exact later
      | preamble value => exact settled (add ⟨early, {}⟩ (.preamble value))
      | abbreviation abbreviation => exact settled (add ⟨early, {}⟩ (.abbreviation abbreviation))
      | entry entry =>
          have taken : ∀ comments : List Text, (addAll (add ⟨comments, {}⟩ (.entry entry))
              rest).finish.document =
                Document.append { entries := [{ entry with comments := comments }] }
                  (addAll {} rest).finish.document := by
            intro comments
            rw [← finish_behind, ← add_all_behind (Or.inl rfl)]
            rfl
          rw [taken, taken]
          rfl

/-- What is built of the first items stands in front of what is built of the others, which
take over the comments that wait. -/
theorem build_append (items others : List Item) {document : Document}
    (built : (addAll {} items).finish.document = document)
    (single : document.preamble = none ∨ others.any Item.isPreamble = false) :
    (addAll {} (items ++ others)).finish.document =
      { document with commentsAfter := [] }.append
        ((addAll {} others).finish.document.receive document.commentsAfter
          (Item.home 0 others)) := by
  have nothing : (addAll {} items).document.commentsAfter = [] := comments_after_add_all {} items
  have halfway : addAll {} items =
      behind { document with commentsAfter := [] } ⟨document.commentsAfter ++ [], {}⟩ := by
    rw [← built]
    generalize addAll {} items = draft at nothing
    rcases draft with ⟨waiting, ⟨preamble, abbreviations, before, after, entries⟩⟩
    change after = [] at nothing
    simp [behind, finish, Document.append, nothing]
  have apart : ({ document with commentsAfter := [] } : Document).preamble = none ∨
      others.any Item.isPreamble = false := single
  rw [add_all_append, halfway, add_all_behind apart, finish_behind, finish_waiting]

end Draft

/-- The comments behind the last block have no at sign. -/
def PlainEnd (items : List Item) : Prop :=
  ∀ front comment back, items = front ++ .comment comment :: back →
    (∀ item ∈ back, item.comment? ≠ none) → '@' ∉ comment

theorem plain_end_behind {found items : List Item} (plain : PlainEnd (found ++ items)) :
    PlainEnd items := by
  intro front comment back parts
  apply plain (found ++ front) comment back
  rw [parts, List.append_assoc]

theorem stepped_suffix {seen : Bool} {text rest : Text} {items : List Item}
    (stepped : Stepped seen text items rest) : rest <:+ text := by
  rcases step_of_stepped stepped with ⟨overrun, same⟩
  exact step_within (congrArg Step.next same)

theorem comments_of_trace {seen : Bool} {text : Text} {items : List Item}
    (trace : Trace seen text items) (plain : '@' ∉ text) :
    ∀ item ∈ items, item.comment? ≠ none := by
  induction trace with
  | done => simp
  | @onward seen text rest found items nonempty stepped later induction =>
      have further := induction fun sign => plain ((stepped_suffix stepped).subset sign)
      intro item member
      rcases List.mem_append.1 member with here | behind
      · cases stepped with
        | blank => simp at here
        | percent =>
            rw [List.mem_singleton.1 here]
            simp [Item.comment?]
        | loose =>
            rw [List.mem_singleton.1 here]
            simp [Item.comment?]
        | block first solid unmarked header read =>
            rcases find_header_start header with ⟨parts, opened⟩
            rcases at_sign_of_header opened with ⟨behind, start⟩
            rw [parts, start] at plain
            simp at plain
      · exact further item behind

theorem read_items_onward {seen : Bool} {text rest : Text} {found : List Item}
    (nonempty : text ≠ []) (stepped : step seen text = ⟨found, .ok rest, 0⟩) :
    readItems seen text =
      (found ++ (readItems (seen || found.any Item.isPreamble) rest).1,
        (readItems (seen || found.any Item.isPreamble) rest).2) := by
  rw [read_items_step nonempty stepped]
  by_cases last : rest = []
  · rw [if_pos last, last, readItems, dif_pos rfl, List.append_nil]
  · rw [if_neg last]

/-- Behind a text that ends with a line feed the reading goes on as if nothing had been
there, but for the preamble that may have been seen. -/
theorem read_items_append {seen : Bool} {front : Text} {items : List Item}
    (trace : Trace seen front items) (ends : ∀ char ∈ front.getLast?, char = '\n')
    (plain : PlainEnd items) (back : Text) :
    readItems seen (front ++ back) =
      (items ++ (readItems (seen || items.any Item.isPreamble) back).1,
        (readItems (seen || items.any Item.isPreamble) back).2) := by
  induction trace with
  | done => simp
  | @onward seen text rest found items nonempty stepped later induction =>
      have tail := stepped_suffix stepped
      have feed : '\n' ∈ text := by
        rw [← ends _ (List.getLast?_eq_some_getLast nonempty)]
        exact List.getLast_mem nonempty
      have restEnds : ∀ char ∈ rest.getLast?, char = '\n' := by
        intro char last
        apply ends
        rcases tail with ⟨lead, parts⟩
        rw [← parts, List.getLast?_append, Option.mem_def.1 last]
        rfl
      -- A comment with an at sign is not the last thing, so there is another at sign.
      have decided : ∀ comment, found = [.comment comment] → '@' ∈ comment → '@' ∈ rest := by
        intro comment same sign
        by_contra absent
        apply plain [] comment items
        · rw [same]
          rfl
        · exact comments_of_trace later absent
        · exact sign
      have whole := step_append stepped feed decided back
      rw [read_items_onward (List.append_ne_nil_of_left_ne_nil nonempty back) whole,
        induction restEnds (plain_end_behind plain), List.any_append, Bool.or_assoc,
        List.append_assoc]

theorem stepped_plain {seen : Bool} {text rest : Text} {items : List Item}
    (stepped : Stepped seen text items rest) (plain : items.any Item.isPreamble = false)
    (other : Bool) : Stepped other text items rest := by
  cases stepped with
  | blank first empty => exact .blank first empty
  | percent first marked => exact .percent first marked
  | loose first solid unmarked none => exact .loose first solid unmarked none
  | @block line behind before opening _ header items first solid unmarked found read =>
      apply Stepped.block first solid unmarked found
      rw [List.any_append, Bool.or_eq_false_iff] at plain
      unfold readBlock at read ⊢
      dsimp only at read ⊢
      split at read
      · next comment =>
          rw [if_pos comment]
          exact read
      · next noComment =>
          rw [if_neg noComment]
          split at read
          · split at read
            · simp at read
            · rcases except_map_ok read with ⟨value, _, same⟩
              rw [← (Prod.mk.inj same).1] at plain
              simp [Item.isPreamble] at plain
          · next noPreamble =>
              rw [if_neg noPreamble]
              exact read

theorem trace_plain {seen : Bool} {text : Text} {items : List Item} (trace : Trace seen text items)
    (plain : items.any Item.isPreamble = false) (other : Bool) : Trace other text items := by
  induction trace generalizing other with
  | done => exact .done
  | onward nonempty stepped later induction =>
      rw [List.any_append, Bool.or_eq_false_iff] at plain
      exact .onward nonempty (stepped_plain stepped plain.1 other) (induction plain.2 _)

theorem gives_append {front back : Text} {items others : List Item}
    (given : Gives false front items) (ends : ∀ char ∈ front.getLast?, char = '\n')
    (plain : PlainEnd items) (later : Gives false back others)
    (single : items.any Item.isPreamble = false ∨ others.any Item.isPreamble = false) :
    Gives false (front ++ back) (items ++ others) := by
  have seen : Gives (items.any Item.isPreamble) back others := by
    rcases single with none | none
    · rw [none]
      exact later
    · exact gives_of_trace (trace_plain (trace_of_gives later) none _)
  rcases seen with ⟨overrun, read⟩
  refine ⟨overrun, ?_⟩
  rw [read_items_append (trace_of_gives given) ends plain, Bool.false_or, read]

theorem locate_append {front back : Text} {fault : Fault} (inside : fault.place <:+ back) :
    fault.locate (front ++ back) =
      ⟨(fault.locate back).line + Text.lineFeeds front, (fault.locate back).cause⟩ := by
  have fewer : Text.lineFeeds fault.place ≤ Text.lineFeeds back := inside.sublist.count_le _
  have whole : Text.lineFeeds (front ++ back) = Text.lineFeeds front + Text.lineFeeds back :=
    List.count_append
  simp only [Fault.locate, lineOf, whole]
  rw [show Text.lineFeeds front + Text.lineFeeds back - Text.lineFeeds fault.place + 1 =
    Text.lineFeeds back - Text.lineFeeds fault.place + 1 + Text.lineFeeds front by omega]

theorem home_of_comments (entries : Nat) {items : List Item}
    (comments : ∀ item ∈ items, item.comment? ≠ none) : Item.home entries items = .back := by
  induction items with
  | nil => rfl
  | cons item rest induction =>
      rw [List.forall_mem_cons] at comments
      cases item with
      | comment text => exact induction comments.2
      | preamble value => exact absurd rfl comments.1
      | abbreviation abbreviation => exact absurd rfl comments.1
      | entry entry => exact absurd rfl comments.1

theorem plain_end_of_back {items : List Item}
    (plain : ∀ comment ∈ (Draft.addAll {} items).finish.document.commentsAfter, '@' ∉ comment) :
    PlainEnd items := by
  intro front comment back parts comments
  apply plain
  change comment ∈ Document.commentsAt _ .back
  rw [Draft.comments_at_build, parts, ← home_of_comments (front.countP Item.isEntry) comments]
  exact Item.mem_settled front comment back

end Source

open Source

/-- A text behind another one is read as it is alone. The comments that wait at the end of
the first go where comments at the start of the second belong, all other lists are put
one behind the other, and a fault only moves down. -/
theorem parse_append {front : Text} {document : Document} (ends : front.getLast? = some '\n')
    (parsed : Document.parse front = .ok document)
    (plain : ∀ comment ∈ document.commentsAfter, '@' ∉ comment) (back : Text) :
    (∀ other, Document.parse back = .ok other →
      document.preamble = none ∨ other.preamble = none →
        Document.parse (front ++ back) =
          .ok ({ document with commentsAfter := [] }.append
            (other.receive document.commentsAfter (openingHome back)))) ∧
      (document.preamble = none → ∀ error, Document.parse back = .error error →
        Document.parse (front ++ back) =
          .error ⟨error.line + Text.lineFeeds front, error.cause⟩) := by
  rcases parse_ok_iff.1 parsed with ⟨items, given, built⟩
  have lastFeed : ∀ char ∈ front.getLast?, char = '\n' := by
    intro char last
    rw [ends] at last
    exact (Option.some.inj last).symm
  have settled : PlainEnd items := plain_end_of_back (built ▸ plain)
  have preamble : ∀ {items : List Item} {document : Document},
      (Draft.addAll {} items).finish.document = document → document.preamble = none →
        items.any Item.isPreamble = false := by
    intro items document built none
    rw [← built] at none
    exact ((Draft.preamble_add_all {} items).1 none).2
  constructor
  · intro other alone single
    rcases parse_ok_iff.1 alone with ⟨others, later, second⟩
    have further := single.imp_right (preamble second)
    rw [opening_home_of_gives later, ← second]
    apply parse_ok_iff.2
    refine ⟨items ++ others, ?_, Draft.build_append items others built further⟩
    exact gives_append given lastFeed settled later (further.imp_left (preamble built))
  · intro none error failed
    rcases parse_error_iff.1 failed with ⟨found, fault, read, rfl⟩
    rw [← locate_append (read_items_within read)]
    apply parse_error_iff.2
    refine ⟨items ++ found, fault, ?_, rfl⟩
    rw [read_items_append (trace_of_gives given) lastFeed settled, preamble built none,
      Bool.or_false, read]

def headLines : Text := "% one\n@string\x7ba = 1\x7d\n% two\n".toList

theorem parse_head_lines_append :
    ∃ document, Document.parse headLines = .ok document ∧
      (∃ other, Document.parse "% three\n@misc\x7bx\x7d".toList = .ok other ∧
        other.commentsAt (.entry 0) = [" three".toList] ∧
        Document.parse (headLines ++ "% three\n@misc\x7bx\x7d".toList) =
          .ok ({ document with commentsAfter := [] }.append
            (other.receive [" two".toList] (.entry 0)))) ∧
      ∃ error, Document.parse "\n@misc\x7bx\n".toList = .error error ∧
        Document.parse (headLines ++ "\n@misc\x7bx\n".toList) =
          .error ⟨error.line + 3, error.cause⟩ := by
  have passed : passes (Document.parse headLines) (fun document =>
      decide (document.preamble = none ∧ document.commentsAfter = [" two".toList])) = true := by
    decide +kernel
  rcases ok_of_passes passed with ⟨document, parsed, found⟩
  rcases of_decide_eq_true found with ⟨none, waiting⟩
  have plain : ∀ comment ∈ document.commentsAfter, '@' ∉ comment := by
    rw [waiting]
    decide
  have appended := parse_append (by decide) parsed plain
  refine ⟨document, parsed, ?_, ?_⟩
  · have entry : passes (Document.parse "% three\n@misc\x7bx\x7d".toList) (fun other =>
        decide (other.commentsAt (.entry 0) = [" three".toList])) = true := by
      decide +kernel
    rcases ok_of_passes entry with ⟨other, alone, comments⟩
    have home : openingHome "% three\n@misc\x7bx\x7d".toList = .entry 0 := by decide +kernel
    have whole := (appended "% three\n@misc\x7bx\x7d".toList).1 other alone (Or.inl none)
    rw [waiting, home] at whole
    exact ⟨other, alone, of_decide_eq_true comments, whole⟩
  · cases failed : Document.parse "\n@misc\x7bx\n".toList with
    | ok other =>
        have broken : passes (Document.parse "\n@misc\x7bx\n".toList) (fun _ => true) = false := by
          decide +kernel
        rw [failed] at broken
        exact absurd broken (by simp [passes])
    | error error =>
        have feeds : Text.lineFeeds headLines = 3 := by decide +kernel
        have whole := (appended "\n@misc\x7bx\n".toList).2 none error failed
        rw [feeds] at whole
        exact ⟨error, rfl, whole⟩

end Bibliography
