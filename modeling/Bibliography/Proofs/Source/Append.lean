import Bibliography.Proofs.Source.Trace
import Bibliography.Proofs.Source.Within

/-!
Reading with more text behind. A block that ends inside its text is read the same way
whatever follows, and so is a line, with one exception: an at sign after which nothing
but blanks and word characters stand may become the header of a block.
-/

namespace Bibliography.Source

open Text

/-- A run of characters that ends inside the text ends there with more text behind, too. -/
theorem run_append {holds : Char → Bool} {text : Text} (more : text.dropWhile holds ≠ [])
    (back : Text) :
    (text ++ back).takeWhile holds = text.takeWhile holds ∧
      (text ++ back).dropWhile holds = text.dropWhile holds ++ back := by
  have inside : ∀ char ∈ text.takeWhile holds, holds char = true :=
    fun char member => List.mem_takeWhile_imp member
  have outside : ∀ char ∈ (text.dropWhile holds ++ back).head?, holds char = false := by
    intro char first
    have head : (text.dropWhile holds).head? = some char := by
      cases behind : text.dropWhile holds with
      | nil => exact absurd behind more
      | cons start others =>
          rw [behind] at first
          exact first
    have stopped := List.head?_dropWhile_not holds text
    rw [head] at stopped
    exact stopped
  have parts : text ++ back = text.takeWhile holds ++ (text.dropWhile holds ++ back) := by
    rw [← List.append_assoc, List.takeWhile_append_dropWhile]
  constructor
  · rw [parts, take_while_exact inside outside]
  · rw [parts, drop_while_exact inside outside]

theorem skip_blank_append {text : Text} (more : skipBlank text ≠ []) (back : Text) :
    skipBlank (text ++ back) = skipBlank text ++ back :=
  (run_append more back).2

theorem after_append {mark : Char} {text rest : Text} (found : after? mark text = some rest)
    (back : Text) : after? mark (text ++ back) = some (rest ++ back) := by
  rw [after_suffix found, List.cons_append, after_cons]

theorem cut_group_append {depth : Int} {text group rest : Text}
    (cut : cutGroup depth text = some (group, rest)) (back : Text) :
    cutGroup depth (text ++ back) = some (group, rest ++ back) := by
  induction text generalizing depth group with
  | nil => simp [cutGroup] at cut
  | cons char others induction =>
      rw [List.cons_append]
      unfold cutGroup at cut ⊢
      split at cut
      · next closing =>
          rcases Prod.mk.inj (Option.some.inj cut) with ⟨rfl, rfl⟩
          exact if_pos closing
      · next inside =>
          dsimp only at cut ⊢
          rw [if_neg inside]
          rcases longer_cut_iff.1 cut with ⟨inner, same, behind⟩
          rw [longer_cut_iff]
          exact ⟨inner, same, induction behind⟩

theorem read_braced_append {text body rest : Text} (read : readBraced text = .ok (body, rest))
    (back : Text) : readBraced (text ++ back) = .ok (body, rest ++ back) := by
  unfold readBraced at read ⊢
  split at read
  · next cut =>
      rcases Prod.mk.inj (Except.ok.inj read) with ⟨rfl, rfl⟩
      rw [cut_group_append cut]
  · simp at read

theorem map_ok {Read Result : Type} {outcome : Except Fault Read} {change : Read → Result}
    {read : Read} (same : outcome = .ok read) : outcome.map change = .ok (change read) := by
  rw [same]
  rfl

theorem read_comment_append {enclosure : Enclosure} {text rest : Text} {comments : List Text}
    (read : readComment enclosure text = .ok (comments, rest)) (back : Text) :
    readComment enclosure (text ++ back) = .ok (comments, rest ++ back) := by
  cases enclosure with
  | braces =>
      rcases except_map_ok read with ⟨⟨body, last⟩, braced, same⟩
      rcases Prod.mk.inj same with ⟨rfl, rfl⟩
      exact map_ok (read_braced_append braced back)
  | parens =>
      simp only [readComment] at read ⊢
      split at read
      · next last closed =>
          rcases Prod.mk.inj (Except.ok.inj read) with ⟨rfl, rfl⟩
          have inside : text.dropWhile (fun char => char != ')') ≠ [] := by
            rw [after_suffix closed]
            simp
          rw [(run_append inside back).1, (run_append inside back).2, after_append closed]
      · simp at read

theorem value_closed_append {allowed context text rest last : Text} {value : Value}
    {separator : Char} (valued : readValue text = .ok (value, rest))
    (closed : expect allowed context rest = .ok (separator, last))
    (marks : ∀ char ∈ allowed, isMark char = true ∧ char ≠ '#') (back : Text) :
    readValue (text ++ back) = .ok (value, rest ++ back) ∧
      expect allowed context (rest ++ back) = .ok (separator, last ++ back) := by
  rcases read_value_sound valued with ⟨lead, body, blanks, written, parts⟩
  rcases expect_sound closed with ⟨gap, gapBlanks, ending, member⟩
  rcases marks separator member with ⟨mark, noSign⟩
  constructor
  · rw [parts, ending, List.append_assoc (lead ++ body), List.append_assoc gap, List.cons_append]
    exact read_value_complete written blanks (ends_value_gap gapBlanks _ mark noSign)
  · rw [ending, List.append_assoc, List.cons_append]
    exact expect_complete context _ gapBlanks (not_blank_of_mark mark) member

theorem closer_marks (enclosure : Enclosure) :
    ∀ char ∈ [enclosure.closer], isMark char = true ∧ char ≠ '#' := by
  intro char member
  rw [List.mem_singleton.1 member]
  cases enclosure <;> decide

theorem read_preamble_append {enclosure : Enclosure} {text rest : Text} {value : Value}
    (read : readPreamble enclosure text = .ok (value, rest)) (back : Text) :
    readPreamble enclosure (text ++ back) = .ok (value, rest ++ back) := by
  unfold readPreamble at read ⊢
  split at read
  · simp at read
  · next valued =>
      split at read
      · simp at read
      · next closed =>
          rcases Prod.mk.inj (Except.ok.inj read) with ⟨rfl, rfl⟩
          rcases value_closed_append valued closed (closer_marks enclosure) back with
            ⟨value, closer⟩
          rw [value]
          dsimp only
          rw [closer]

theorem read_assignment_append {text name rest : Text}
    (read : readAssignment? text = some (name, rest)) (more : rest ≠ []) (back : Text) :
    readAssignment? (text ++ back) = some (name, rest ++ back) := by
  have last : StartsSolid rest := by
    unfold readAssignment? at read
    split at read
    · simp at read
    · rcases Option.map_eq_some_iff.1 read with ⟨tail, _, same⟩
      rw [← (Prod.mk.inj same).2]
      exact starts_solid_skip_blank tail
  have solid : StartsSolid (rest ++ back) := by
    cases rest with
    | nil => exact absurd rfl more
    | cons char others => exact starts_solid_cons _ (last char rfl)
  rcases read_assignment_sound read with ⟨before, behind, named, beforeBlanks, behindBlanks, parts⟩
  rw [parts, List.append_assoc (name ++ before), List.cons_append, List.append_assoc behind]
  exact read_assignment_complete named beforeBlanks behindBlanks solid

theorem read_abbreviation_append {enclosure : Enclosure} {text rest : Text}
    {abbreviation : Abbreviation}
    (read : readAbbreviation enclosure text = .ok (abbreviation, rest)) (back : Text) :
    readAbbreviation enclosure (text ++ back) = .ok (abbreviation, rest ++ back) := by
  unfold readAbbreviation at read ⊢
  dsimp only at read ⊢
  split at read
  · simp at read
  · next name assigned named =>
      split at read
      · simp at read
      · next valued =>
          split at read
          · simp at read
          · next closed =>
              rcases Prod.mk.inj (Except.ok.inj read) with ⟨rfl, rfl⟩
              have start : skipBlank text ≠ [] := by
                intro empty
                rw [empty] at named
                simp [readAssignment?] at named
              have more : assigned ≠ [] := by
                intro empty
                have shorter := read_value_shorter valued
                rw [empty] at shorter
                simp at shorter
              rcases value_closed_append valued closed (closer_marks enclosure) back with
                ⟨value, closer⟩
              rw [skip_blank_append start, read_assignment_append named more]
              dsimp only
              rw [value]
              dsimp only
              rw [closer]

theorem read_entry_append {kind opening text rest : Text} {enclosure : Enclosure} {entry : Entry}
    (read : readEntry kind enclosure opening text = .ok (entry, rest)) (other back : Text) :
    readEntry kind enclosure other (text ++ back) = .ok (entry, rest ++ back) := by
  rcases read_entry_sound read with ⟨body, key, listed, written, parts, same⟩
  rw [parts, same, List.append_assoc]
  exact read_entry_complete kind other (rest ++ back) written

def Header.append (header : Header) (back : Text) : Header :=
  { header with body := header.body ++ back }

theorem comment_start_append (header : Header) (back : Text) :
    (header.append back).commentStart = header.commentStart ++ back := by
  unfold Header.commentStart Header.append
  cases header.enclosure <;> rfl

theorem read_block_append {seen : Bool} {opening rest : Text} {header : Header}
    {items : List Item} (read : readBlock seen opening header = .ok (items, rest))
    (other back : Text) :
    readBlock seen other (header.append back) = .ok (items, rest ++ back) := by
  apply read_block_iff.2
  cases read_block_iff.1 read with
  | comment kind inner =>
      have further := read_comment_append inner back
      rw [← comment_start_append] at further
      exact .comment kind further
  | preamble kind unseen inner =>
      exact .preamble kind unseen (read_preamble_append inner back)
  | abbreviation kind inner => exact .abbreviation kind (read_abbreviation_append inner back)
  | entry ordinary inner => exact .entry ordinary (read_entry_append inner other back)

theorem read_enclosure_append {text rest : Text} {enclosure : Enclosure}
    (read : readEnclosure? text = some (enclosure, rest)) (back : Text) :
    readEnclosure? (text ++ back) = some (enclosure, rest ++ back) := by
  rw [read_enclosure_eq read]
  cases enclosure <;> rfl

theorem read_enclosure_append_none {text : Text} (read : readEnclosure? text = none)
    (nonempty : text ≠ []) (back : Text) : readEnclosure? (text ++ back) = none := by
  cases text with
  | nil => exact absurd rfl nonempty
  | cons char rest =>
      rw [List.cons_append]
      simp only [readEnclosure?] at read ⊢
      split at read
      · simp at read
      · next noBrace =>
          rw [if_neg noBrace]
          split at read
          · simp at read
          · next noParen => exact if_neg noParen

/-- An at sign and nothing behind it that would decide whether it opens a block. -/
def Undecided (text : Text) : Prop :=
  ∃ tail, text = '@' :: tail ∧ ∀ char ∈ tail, (isBlank char || isWord char) = true

theorem read_header_append {text : Text} {header : Header}
    (read : readHeader? text = some header) (back : Text) :
    readHeader? (text ++ back) = some (header.append back) := by
  unfold readHeader? at read ⊢
  split at read
  · simp at read
  · next behind found =>
      rw [after_append found]
      dsimp only
      split at read
      · simp at read
      · next first others start =>
          rw [skip_blank_append (by simp [start]), start, List.cons_append]
          dsimp only
          split at read
          · next letter =>
              rcases Option.map_eq_some_iff.1 read with ⟨⟨enclosure, body⟩, opened, same⟩
              have gap : skipBlank (others.dropWhile isWord) ≠ [] := by
                rw [read_enclosure_eq opened]
                simp
              have name : others.dropWhile isWord ≠ [] := by
                intro empty
                rw [empty] at gap
                exact gap rfl
              rw [if_pos letter, (run_append name back).1, (run_append name back).2,
                skip_blank_append gap, read_enclosure_append opened, ← same]
              rfl
          · simp at read

theorem undecided_tail {behind others : Text} {first : Char}
    (start : skipBlank behind = first :: others)
    (letter : (first.isAlpha || first == '_') = true)
    (ending : skipBlank (others.dropWhile isWord) = []) :
    ∀ char ∈ behind, (isBlank char || isWord char) = true := by
  rcases skip_blank_split behind with ⟨gap, blanks, parts⟩
  intro char member
  rw [parts, start] at member
  rcases List.mem_append.1 member with early | late
  · rw [blanks char early, Bool.true_or]
  · rcases List.mem_cons.1 late with rfl | inside
    · rw [word_of_letter letter, Bool.or_true]
    · rw [← List.takeWhile_append_dropWhile (p := isWord) (l := others)] at inside
      rcases List.mem_append.1 inside with word | blank
      · rw [List.mem_takeWhile_imp word, Bool.or_true]
      · rw [List.dropWhile_eq_nil_iff.1 ending char blank, Bool.true_or]

theorem read_header_append_none {text : Text} (read : readHeader? text = none)
    (nonempty : text ≠ []) (decided : ¬ Undecided text) (back : Text) :
    readHeader? (text ++ back) = none := by
  cases text with
  | nil => exact absurd rfl nonempty
  | cons char behind =>
      by_cases at_sign : char = '@'
      · subst at_sign
        have later : skipBlank behind ≠ [] := by
          intro empty
          apply decided
          refine ⟨behind, rfl, ?_⟩
          intro other member
          rw [List.dropWhile_eq_nil_iff.1 empty other member, Bool.true_or]
        rw [List.cons_append]
        simp only [readHeader?, after_cons, skip_blank_append later] at read ⊢
        cases start : skipBlank behind with
        | nil => exact absurd start later
        | cons first others =>
            rw [start] at read
            rw [List.cons_append]
            dsimp only at read ⊢
            split at read
            · next letter =>
                rw [if_pos letter]
                have ending : skipBlank (others.dropWhile isWord) ≠ [] := by
                  intro empty
                  apply decided
                  refine ⟨behind, rfl, undecided_tail start ?_ empty⟩
                  exact letter
                have name : others.dropWhile isWord ≠ [] := by
                  intro empty
                  rw [empty] at ending
                  exact ending rfl
                rw [(run_append name back).2, skip_blank_append ending]
                rw [Option.map_eq_none_iff] at read ⊢
                exact read_enclosure_append_none read ending back
            · next noLetter => exact if_neg noLetter
      · simp [readHeader?, after?, at_sign]

theorem at_sign_of_header {text : Text} {header : Header} (read : readHeader? text = some header) :
    ∃ behind, text = '@' :: behind := by
  unfold readHeader? at read
  split at read
  · simp at read
  · next found => exact ⟨_, after_suffix found⟩

theorem find_header_append {text before opening : Text} {header : Header}
    (found : findHeader? text = some (before, opening, header)) (back : Text) :
    findHeader? (text ++ back) = some (before, opening ++ back, header.append back) := by
  induction text generalizing before with
  | nil => simp [findHeader?] at found
  | cons char others induction =>
      rw [List.cons_append]
      simp only [findHeader?] at found ⊢
      split at found
      · simp at found
      · next different =>
          rw [if_neg different, ← List.cons_append]
          split at found
          · next header read =>
              rcases Prod.mk.inj (Option.some.inj found) with ⟨rfl, same⟩
              rcases Prod.mk.inj same with ⟨rfl, rfl⟩
              rw [read_header_append read]
          · next none =>
              rcases Option.map_eq_some_iff.1 found with ⟨⟨inner, tail⟩, cut, same⟩
              rcases Prod.mk.inj same with ⟨rfl, rfl⟩
              -- The at sign of the header decides about any at sign before it.
              have decided : ¬ Undecided (char :: others) := by
                rintro ⟨tail, same, plain⟩
                rcases find_header_start cut with ⟨parts, opened⟩
                rcases at_sign_of_header opened with ⟨behind, start⟩
                have sign : '@' ∈ tail := by
                  rw [← (List.cons.inj same).2, parts, start]
                  simp
                exact absurd (plain '@' sign) (by decide)
              rw [read_header_append_none none (by simp) decided, induction cut]
              rfl

/-- On a line that ends inside the text no block opens later on, if it has no at sign or
another one follows behind it. -/
theorem find_header_append_none {line rest : Text} (single : '\n' ∉ line)
    (found : findHeader? (line ++ '\n' :: rest) = none) (decided : '@' ∈ line → '@' ∈ rest)
    (back : Text) : findHeader? (line ++ '\n' :: rest ++ back) = none := by
  induction line with
  | nil => rfl
  | cons char others induction =>
      have different : char ≠ '\n' := fun same => single (same ▸ List.mem_cons_self)
      rw [List.cons_append, List.cons_append]
      simp only [List.cons_append, findHeader?, if_neg different] at found ⊢
      split at found
      · simp at found
      · next none =>
          have settled : ¬ Undecided (char :: (others ++ '\n' :: rest)) := by
            rintro ⟨tail, same, plain⟩
            rcases List.cons.inj same with ⟨rfl, rfl⟩
            have sign := decided List.mem_cons_self
            exact absurd (plain '@' (by simp [sign])) (by decide)
          have later := induction (fun member => single (List.mem_cons_of_mem _ member))
            (Option.map_eq_none_iff.1 found)
            fun member => decided (List.mem_cons_of_mem _ member)
          have here := read_header_append_none none (by simp) settled back
          rw [List.cons_append] at here
          rw [here, later]
          rfl

theorem first_line_ends {text line rest : Text} (first : FirstLine text line rest)
    (feed : '\n' ∈ text) : '\n' ∉ line ∧ text = line ++ '\n' :: rest := by
  cases first with
  | ended single => exact ⟨single, rfl⟩
  | last single => exact absurd feed single

theorem at_sign_trim {line : Text} (sign : '@' ∈ line) : '@' ∈ trim line := by
  rcases trim_split line with ⟨lead, gap, leadBlanks, gapBlanks, parts⟩
  rw [parts] at sign
  rcases List.mem_append.1 sign with front | inGap
  · rcases List.mem_append.1 front with inLead | inside
    · exact absurd (leadBlanks '@' inLead) (by decide)
    · exact inside
  · exact absurd (gapBlanks '@' inGap) (by decide)

/-- With more text behind, a step finds the same and stops at the same place. The line
feed at the end keeps the last line apart from what follows. -/
theorem step_append {seen : Bool} {text rest : Text} {items : List Item}
    (stepped : Stepped seen text items rest) (feed : '\n' ∈ text)
    (decided : ∀ comment, items = [.comment comment] → '@' ∈ comment → '@' ∈ rest) (back : Text) :
    step seen (text ++ back) = ⟨items, .ok (rest ++ back), 0⟩ := by
  cases stepped with
  | @blank line _ first empty =>
      rcases first_line_ends first feed with ⟨single, parts⟩
      rw [parts, List.append_assoc, List.cons_append]
      simp only [step, (first_line single _).1, empty, if_true]
      exact line_step_ok single _ _
  | @percent line _ comment first marked =>
      rcases first_line_ends first feed with ⟨single, parts⟩
      rw [parts, List.append_assoc, List.cons_append]
      simp only [step, (first_line single _).1, marked, after_cons]
      rw [if_neg (by simp)]
      exact line_step_ok single _ _
  | @loose line _ first solid unmarked plain =>
      rcases first_line_ends first feed with ⟨single, parts⟩
      rw [parts] at plain
      have further := find_header_append_none single plain
        (fun sign => decided (trim line) rfl (at_sign_trim sign)) back
      rw [parts]
      rw [List.append_assoc, List.cons_append] at further ⊢
      simp only [step, (first_line single _).1, after_eq_none_iff.2 unmarked, further]
      rw [if_neg solid]
      exact line_step_ok single _ _
  | @block line behind before opening _ header items first solid unmarked found read =>
      rcases first_line_ends first feed with ⟨single, parts⟩
      have further := find_header_append found back
      rw [parts, List.append_assoc, List.cons_append] at further ⊢
      simp only [step, (first_line single _).1, after_eq_none_iff.2 unmarked, further,
        read_block_append read (opening ++ back) back]
      rw [if_neg solid]

end Bibliography.Source
