import Bibliography.Layout
import Bibliography.Proofs.Source.Sound
import Bibliography.Proofs.Source.Walk

/-!
Joining lines and widening a page range keep written values written. Neither touches
a brace or a quote, and a walk over the value does not notice them. Both settle: the
joined text has no line feed and is solid at both ends, such a text stays as it is,
and a text with no range left to widen is left alone.
-/

namespace Bibliography.Text

theorem in_ranges_apart {left right : List (Nat × Nat)}
    (apart : (left.all fun range => right.all fun other =>
      Nat.blt range.2 other.1 || Nat.blt other.2 range.1) = true)
    {code : Nat} (member : inRanges left code = true) : inRanges right code = false := by
  apply Bool.eq_false_iff.2
  intro again
  obtain ⟨range, known, inside⟩ := List.any_eq_true.1 member
  obtain ⟨other, listed, within⟩ := List.any_eq_true.1 again
  have split := List.all_eq_true.1 (List.all_eq_true.1 apart range known) other listed
  simp only [Bool.and_eq_true, Bool.or_eq_true, decide_eq_true_eq, Nat.blt_eq]
    at inside within split
  omega

theorem not_blank_of_digit {char : Char} (digit : isDigit char = true) : isBlank char = false :=
  in_ranges_apart (by decide) digit

theorem not_word_of_blank {char : Char} (blank : isBlank char = true) : isWord char = false := by
  unfold isWord
  split
  · next small =>
      have checked := ascii_all
        (fun char => !isBlank char || !(char.isAlphanum || char == '_')) (by decide) small
      simpa [blank] using checked
  · exact in_ranges_apart (by decide +kernel) blank

theorem bare_of_digit {char : Char} (digit : isDigit char = true) :
    Source.isBareChar char = true := by
  apply (Source.is_bare_char_iff char).2
  refine ⟨not_blank_of_digit digit, Bool.eq_false_iff.2 ?_⟩
  intro mark
  simp only [Source.isMark, List.contains_cons, List.contains_nil, Bool.or_false,
    Bool.or_eq_true, beq_iff_eq] at mark
  rcases mark with rfl | rfl | rfl | rfl | rfl | rfl | rfl <;> exact absurd digit (by decide)

theorem fences_gap {gap : Text} (blanks : IsGap gap) : fences gap = [] :=
  fences_eq_nil fun char member => Source.Spot.not_fence_of_blank (blanks char member)

theorem fences_trim (text : Text) : fences (trim text) = fences text := by
  obtain ⟨lead, gap, leadBlanks, gapBlanks, parts⟩ := trim_split text
  rw [parts, fences_append, fences_append, fences_gap leadBlanks, fences_gap gapBlanks, ← parts]
  simp

end Bibliography.Text

namespace Bibliography.Layout

open Text Source

theorem join_run_gap {run : Text} (blanks : IsGap run) : IsGap (joinRun run) := by
  unfold joinRun
  split
  · intro char member
    rw [List.mem_singleton.1 member]
    decide
  · exact blanks

theorem walk_join_run (spot : Spot) {run : Text} (blanks : IsGap run) :
    spot.walk (joinRun run) = spot.walk run := by
  unfold joinRun
  split
  · next feed =>
      have nonempty : run ≠ [] := by
        intro same
        subst same
        simp at feed
      rw [Spot.walk_gap spot blanks nonempty, Spot.walk_gap spot _ (by simp)]
      intro char member
      rw [List.mem_singleton.1 member]
      decide
  · rfl

theorem walk_join_lines_after (spot : Spot) {run : Text} (blanks : IsGap run) (text : Text) :
    spot.walk (joinLinesAfter run text) = spot.walk (run ++ text) := by
  induction text generalizing spot run with
  | nil => rw [joinLinesAfter, walk_join_run spot blanks, List.append_nil]
  | cons char rest induction =>
      unfold joinLinesAfter
      split
      · next blank =>
          have longer : IsGap (run ++ [char]) :=
            is_gap_append blanks (is_gap_cons.2 ⟨blank, is_gap_nil⟩)
          rw [induction spot longer, List.append_assoc]
          rfl
      · rw [Spot.walk_append, Spot.walk_append, walk_join_run spot blanks]
        congr 1
        funext next
        rw [Spot.walk_cons, Spot.walk_cons]
        congr 1
        funext after
        exact induction after is_gap_nil

theorem fences_join_lines_after {run : Text} (blanks : IsGap run) (text : Text) :
    fences (joinLinesAfter run text) = fences text := by
  induction text generalizing run with
  | nil => exact fences_gap (join_run_gap blanks)
  | cons char rest induction =>
      unfold joinLinesAfter
      split
      · next blank =>
          have single : IsGap [char] := is_gap_cons.2 ⟨blank, is_gap_nil⟩
          rw [induction (is_gap_append blanks single), fences_cons, fences_gap single,
            List.nil_append]
      · rw [fences_append, fences_cons, fences_gap (join_run_gap blanks), induction is_gap_nil,
          List.nil_append, ← fences_cons]

theorem fences_join_lines (text : Text) : fences (joinLines text) = fences text := by
  rw [joinLines, fences_trim, fences_join_lines_after is_gap_nil]

theorem line_of_join_run (run : Text) : '\n' ∉ joinRun run := by
  unfold joinRun
  split
  · simp
  · next feed => simpa using feed

theorem line_of_join_lines_after (run text : Text) : '\n' ∉ joinLinesAfter run text := by
  induction text generalizing run with
  | nil => exact line_of_join_run run
  | cons char rest induction =>
      unfold joinLinesAfter
      split
      · exact induction _
      · next solid =>
          intro member
          rcases List.mem_append.1 member with early | late
          · exact line_of_join_run run early
          · rcases List.mem_cons.1 late with rfl | later
            · exact solid (by decide)
            · exact induction [] later

theorem join_lines_after_of_line {run text : Text} (runLine : '\n' ∉ run) (line : '\n' ∉ text) :
    joinLinesAfter run text = run ++ text := by
  have same : ∀ gap : Text, '\n' ∉ gap → joinRun gap = gap := by
    intro gap noFeed
    exact if_neg (by simpa using noFeed)
  induction text generalizing run with
  | nil => rw [joinLinesAfter, same run runLine, List.append_nil]
  | cons char rest induction =>
      obtain ⟨different, others⟩ := not_or.1 (fun either => line (List.mem_cons.2 either))
      unfold joinLinesAfter
      split
      · rw [induction (by simpa [runLine] using different) others, List.append_assoc]
        rfl
      · rw [same run runLine, induction (by simp) others]
        rfl

theorem mem_join_lines_after {char : Char} {run text : Text}
    (member : char ∈ joinLinesAfter run text) : char = ' ' ∨ char ∈ run ∨ char ∈ text := by
  have joined : ∀ {gap : Text}, char ∈ joinRun gap → char = ' ' ∨ char ∈ gap := by
    intro gap found
    unfold joinRun at found
    split at found
    · exact .inl (List.mem_singleton.1 found)
    · exact .inr found
  induction text generalizing run with
  | nil => exact (joined member).imp_right .inl
  | cons first rest induction =>
      unfold joinLinesAfter at member
      split at member
      · rcases induction member with space | early | late
        · exact .inl space
        · rcases List.mem_append.1 early with here | last
          · exact .inr (.inl here)
          · exact .inr (.inr (List.mem_cons.2 (.inl (List.mem_singleton.1 last))))
        · exact .inr (.inr (List.mem_cons_of_mem first late))
      · rcases List.mem_append.1 member with early | late
        · exact (joined early).imp_right .inl
        · rcases List.mem_cons.1 late with rfl | later
          · exact .inr (.inr List.mem_cons_self)
          · rcases induction later with space | none | known
            · exact .inl space
            · simp at none
            · exact .inr (.inr (List.mem_cons_of_mem first known))

theorem mem_join_lines {char : Char} {text : Text} (member : char ∈ joinLines text) :
    char = ' ' ∨ char ∈ text := by
  obtain ⟨lead, gap, _, _, parts⟩ := trim_split (joinLinesAfter [] text)
  have inner : char ∈ joinLinesAfter [] text := by
    rw [parts]
    exact List.mem_append_left _ (List.mem_append_right _ member)
  rcases mem_join_lines_after inner with space | none | known
  · exact .inl space
  · simp at none
  · exact .inr known

/-- The form that joining gives, and that it leaves alone. -/
structure Joined (text : Text) : Prop where
  line : '\n' ∉ text
  starts : StartsSolid text
  ends : EndsSolid text

theorem joined_join_lines (text : Text) : Joined (joinLines text) := by
  refine ⟨?_, starts_solid_trim _, ends_solid_trim _⟩
  intro member
  obtain ⟨lead, gap, _, _, parts⟩ := trim_split (joinLinesAfter [] text)
  have line := line_of_join_lines_after [] text
  rw [parts] at line
  exact line (by
    rw [joinLines] at member
    simp [member])

theorem join_lines_of_joined {text : Text} (joined : Joined text) : joinLines text = text := by
  rw [joinLines, join_lines_after_of_line (by simp) joined.line]
  exact trim_solid joined.starts joined.ends

/-- Two digits with a hyphen between them, with or without gaps around it. -/
inductive RangeText : Text → Text → Prop
  | mk {first last : Char} {before behind rest : Text} (starts : isDigit first = true)
      (gapBefore : IsGap before) (gapBehind : IsGap behind) (ends : isDigit last = true) :
      RangeText (first :: (before ++ '-' :: (behind ++ last :: rest)))
        (first :: '-' :: '-' :: last :: rest)

def HasRange (text : Text) : Prop :=
  ∃ front back wider, text = front ++ back ∧ RangeText back wider

theorem range_end_iff {text last : Text} :
    rangeEnd? text = some last ↔ ∃ before behind digit rest, IsGap before ∧ IsGap behind ∧
      isDigit digit = true ∧ last = digit :: rest ∧ text = before ++ '-' :: (behind ++ last) := by
  unfold rangeEnd?
  constructor
  · intro found
    split at found
    · simp at found
    · next others hyphen =>
        obtain ⟨before, beforeBlanks, parts⟩ := skip_blank_split text
        obtain ⟨behind, behindBlanks, tail⟩ := skip_blank_split others
        simp only at found
        split at found
        · next digit =>
            have same := Option.some.inj found
            subst same
            cases start : skipBlank others with
            | nil => simp [start] at digit
            | cons first rest =>
                rw [start] at digit
                refine ⟨before, behind, first, rest, beforeBlanks, behindBlanks, ?_, rfl, ?_⟩
                · simpa using digit
                · rw [← start, ← tail, ← after_suffix hyphen]
                  exact parts
        · simp at found
  · intro found
    rcases found with ⟨before, behind, digit, rest, beforeBlanks, behindBlanks, isDigit, rfl, rfl⟩
    have solid := starts_solid_cons rest (not_blank_of_digit isDigit)
    rw [skip_blank_gap_solid beforeBlanks (starts_solid_cons _ (by decide)), after_cons]
    simp only [skip_blank_gap_solid behindBlanks solid]
    simp [isDigit]

theorem page_range_cons (char : Char) (rest : Text) :
    RangeText (char :: rest) (pageRange (char :: rest)) ∨
      (¬ (∃ wider, RangeText (char :: rest) wider)) ∧
        pageRange (char :: rest) = char :: pageRange rest := by
  rw [pageRange]
  by_cases digit : isDigit char = true
  · rw [if_pos digit]
    cases found : rangeEnd? rest with
    | some last =>
        obtain ⟨before, behind, final, others, beforeBlanks, behindBlanks, ends, rfl, rfl⟩ :=
          range_end_iff.1 found
        exact .inl (.mk digit beforeBlanks behindBlanks ends)
    | none =>
        refine .inr ⟨?_, rfl⟩
        intro found
        rcases found with ⟨wider, range⟩
        cases range with
        | @mk first last gap lead tail _ before behind ends =>
            rw [range_end_iff.2 ⟨gap, lead, last, tail, before, behind, ends, rfl, rfl⟩] at found
            simp at found
  · rw [if_neg digit]
    refine .inr ⟨?_, rfl⟩
    intro found
    rcases found with ⟨wider, range⟩
    cases range with
    | mk starts => exact digit starts

theorem has_range_cons (char : Char) (rest : Text) :
    HasRange (char :: rest) ↔ (∃ wider, RangeText (char :: rest) wider) ∨ HasRange rest := by
  constructor
  · intro found
    rcases found with ⟨front, back, wider, parts, range⟩
    cases front with
    | nil =>
        rw [List.nil_append] at parts
        exact .inl ⟨wider, parts ▸ range⟩
    | cons first others =>
        obtain ⟨rfl, tail⟩ := List.cons.inj parts
        exact .inr ⟨others, back, wider, tail, range⟩
  · intro found
    rcases found with ⟨wider, range⟩ | ⟨front, back, wider, parts, range⟩
    · exact ⟨[], _, wider, rfl, range⟩
    · exact ⟨char :: front, back, wider, by rw [parts]; rfl, range⟩

theorem range_text_ne {text wider : Text} (range : RangeText text wider) : wider ≠ text := by
  cases range with
  | @mk first last before behind rest starts gapBefore gapBehind ends =>
      intro same
      have tail := (List.cons.inj same).2
      cases before with
      | cons blank others =>
          obtain ⟨rfl, _⟩ := List.cons.inj tail
          exact absurd (gapBefore '-' (by simp)) (by decide)
      | nil =>
          have tail := (List.cons.inj tail).2
          cases behind with
          | cons blank others =>
              obtain ⟨rfl, _⟩ := List.cons.inj tail
              exact absurd (gapBehind '-' (by simp)) (by decide)
          | nil =>
              obtain ⟨rfl, _⟩ := List.cons.inj tail
              exact absurd ends (by decide)

theorem page_range_eq_self_iff (text : Text) : pageRange text = text ↔ ¬ HasRange text := by
  induction text with
  | nil =>
      refine ⟨fun _ => ?_, fun _ => rfl⟩
      intro found
      rcases found with ⟨front, back, wider, parts, range⟩
      obtain ⟨rfl, rfl⟩ := List.append_eq_nil_iff.1 parts.symm
      cases range
  | cons char rest induction =>
      rw [has_range_cons]
      rcases page_range_cons char rest with range | ⟨noRange, passed⟩
      · exact ⟨fun same => absurd same (range_text_ne range),
          fun absent => absurd (.inl ⟨_, range⟩) absent⟩
      · rw [passed, not_or]
        constructor
        · intro same
          exact ⟨noRange, induction.1 (List.cons.inj same).2⟩
        · intro absent
          rw [induction.2 absent.2]

instance (text : Text) : Decidable (HasRange text) :=
  decidable_of_iff (¬ pageRange text = text) (by
    rw [page_range_eq_self_iff]
    exact Classical.not_not)

/-- A relation that one widened range respects, and a character in front of both
sides, holds between a text and its widened form. -/
theorem page_range_induct (relates : Text → Text → Prop) (same : ∀ text, relates text text)
    (widened : ∀ text wider, RangeText text wider → relates text wider)
    (longer : ∀ char text wider, relates text wider → relates (char :: text) (char :: wider))
    (text : Text) : relates text (pageRange text) := by
  induction text with
  | nil => exact same []
  | cons char rest induction =>
      rcases page_range_cons char rest with range | ⟨_, passed⟩
      · exact widened _ _ range
      · rw [passed]
        exact longer char rest _ induction

theorem plain_range {hyphen : Char} (bare : isBareChar hyphen = true) {before behind : Text}
    (gapBefore : IsGap before) (gapBehind : IsGap behind) :
    ∀ char ∈ before ++ hyphen :: behind, isFence char = false := by
  intro char member
  rcases List.mem_append.1 member with early | late
  · exact Spot.not_fence_of_blank (gapBefore char early)
  · rcases List.mem_cons.1 late with rfl | later
    · exact not_fence_of_bare bare
    · exact Spot.not_fence_of_blank (gapBehind char later)

theorem fences_page_range (text : Text) : fences (pageRange text) = fences text := by
  apply page_range_induct fun text wider => fences wider = fences text
  · intro text
    rfl
  · intro text wider range
    cases range with
    | @mk first last before behind rest starts gapBefore gapBehind ends =>
        have split : first :: (before ++ '-' :: (behind ++ last :: rest)) =
            [first] ++ (before ++ '-' :: behind) ++ last :: rest := by simp
        have wide : first :: '-' :: '-' :: last :: rest =
            [first] ++ ['-', '-'] ++ last :: rest := by simp
        rw [split, wide, fences_append, fences_append, fences_append, fences_append,
          fences_eq_nil (plain_range (by decide) gapBefore gapBehind)]
        rfl
  · intro char text wider same
    rw [fences_cons, same, ← fences_cons]

theorem advance_digit {spot next : Spot} {char : Char} (digit : isDigit char = true)
    (step : spot.advance char = some next) :
    next.place = .token ∨ ∃ level, next.place = .braced level ∨ next.place = .quoted level := by
  cases Spot.step_of_advance step with
  | blank _ blank =>
      rw [not_blank_of_digit digit] at blank
      simp at blank
  | sign _ sign =>
      subst sign
      exact absurd digit (by decide)
  | bare => exact .inl rfl
  | brace _ brace =>
      subst brace
      exact absurd digit (by decide)
  | quote _ quote =>
      subst quote
      exact absurd digit (by decide)
  | closeBrace _ closing =>
      subst closing
      exact absurd digit (by decide)
  | inBraces => exact .inr ⟨_, .inl rfl⟩
  | closeQuote _ _ closing =>
      subst closing
      exact absurd digit (by decide)
  | inQuotes => exact .inr ⟨_, .inr rfl⟩

theorem token_gap_eq_nil {several : Bool} {gap rest : Text} {char : Char} {next : Spot}
    (blanks : IsGap gap) (bare : isBareChar char = true)
    (walked : Spot.walk ⟨.token, several⟩ (gap ++ char :: rest) = some next) : gap = [] := by
  cases gap with
  | nil => rfl
  | cons blank others =>
      have solid := ((is_bare_char_iff char).1 bare).1
      have noSign : char ≠ '#' := by
        intro same
        subst same
        exact absurd bare (by decide)
      rw [Spot.walk_append, Spot.walk_gap _ blanks (by simp), Option.bind_some,
        Spot.walk_cons] at walked
      simp [Spot.pause, Spot.moved, Spot.advance, solid, noSign] at walked

/-- A walk gets through two hyphens as through one with gaps around it. -/
theorem walk_widened {first hyphen last : Char} {before behind rest : Text} {spot next : Spot}
    (starts : isDigit first = true) (gapBefore : IsGap before) (bare : isBareChar hyphen = true)
    (gapBehind : IsGap behind) (ends : isDigit last = true)
    (walked : spot.walk (first :: (before ++ hyphen :: (behind ++ last :: rest))) = some next) :
    spot.walk (first :: '-' :: '-' :: last :: rest) = some next := by
  rw [Spot.walk_cons] at walked ⊢
  rcases Option.bind_eq_some_iff.1 walked with ⟨reached, step, later⟩
  rw [step, Option.bind_some]
  rcases advance_digit starts step with place | ⟨level, inside⟩
  · rcases reached with ⟨_, several⟩
    have same := place
    subst same
    have dash : Spot.walk ⟨.token, several⟩ [hyphen] = some ⟨.token, several⟩ :=
      Spot.walk_token several (by simpa using bare)
    have double : Spot.walk ⟨.token, several⟩ ['-', '-'] = some ⟨.token, several⟩ :=
      Spot.walk_token several (List.all_eq_true.1 (by decide))
    have same := token_gap_eq_nil gapBefore bare later
    subst same
    rw [List.nil_append, ← List.singleton_append, Spot.walk_append, dash,
      Option.bind_some] at later
    have same := token_gap_eq_nil gapBehind (bare_of_digit ends) later
    subst same
    rw [show '-' :: '-' :: last :: rest = ['-', '-'] ++ last :: rest from rfl,
      Spot.walk_append, double, Option.bind_some]
    exact later
  · rw [show before ++ hyphen :: (behind ++ last :: rest) =
        (before ++ hyphen :: behind) ++ last :: rest by simp, Spot.walk_append,
      Spot.walk_inside inside (plain_range bare gapBefore gapBehind), Option.bind_some] at later
    have double : reached.walk ['-', '-'] = some reached := by
      apply Spot.walk_inside inside
      intro char member
      rw [List.eq_of_mem_replicate (show char ∈ List.replicate 2 '-' from member)]
      decide
    rw [show '-' :: '-' :: last :: rest = ['-', '-'] ++ last :: rest from rfl,
      Spot.walk_append, double, Option.bind_some]
    exact later

/-- The widened text starts and ends like the text, and no walk notices. -/
structure Widens (text wider : Text) : Prop where
  head : wider.head? = text.head?
  last : wider.getLast? = text.getLast?
  walks : ∀ spot next : Spot, spot.walk text = some next → spot.walk wider = some next

theorem widens_self (text : Text) : Widens text text := ⟨rfl, rfl, fun _ _ walked => walked⟩

theorem widens_cons (char : Char) (text wider : Text) (widens : Widens text wider) :
    Widens (char :: text) (char :: wider) := by
  refine ⟨rfl, by rw [List.getLast?_cons, List.getLast?_cons, widens.last], ?_⟩
  intro spot next walked
  rw [Spot.walk_cons] at walked ⊢
  rcases Option.bind_eq_some_iff.1 walked with ⟨reached, step, later⟩
  rw [step, Option.bind_some]
  exact widens.walks reached next later

theorem widens_range {first hyphen last : Char} {before behind rest : Text}
    (starts : isDigit first = true) (gapBefore : IsGap before) (bare : isBareChar hyphen = true)
    (gapBehind : IsGap behind) (ends : isDigit last = true) :
    Widens (first :: (before ++ hyphen :: (behind ++ last :: rest)))
      (first :: '-' :: '-' :: last :: rest) := by
  refine ⟨rfl, ?_, ?_⟩
  · simp [List.getLast?_cons, List.getLast?_append]
  · intro spot next walked
    exact walk_widened starts gapBefore bare gapBehind ends walked

theorem widens_page_range (text : Text) : Widens text (pageRange text) := by
  apply page_range_induct Widens widens_self
  · intro text wider range
    cases range with
    | mk starts gapBefore gapBehind ends =>
        exact widens_range starts gapBefore (by decide) gapBehind ends
  · exact widens_cons

theorem mem_page_range (text : Text) : ∀ char ∈ pageRange text, char ∈ text := by
  apply page_range_induct fun text wider => ∀ char ∈ wider, char ∈ text
  · intro text char member
    exact member
  · intro text wider range char member
    cases range with
    | mk =>
        simp only [List.mem_cons] at member
        simp only [List.mem_cons, List.mem_append]
        tauto
  · intro char text wider members other member
    rcases List.mem_cons.1 member with rfl | later
    · simp
    · exact List.mem_cons_of_mem _ (members other later)

theorem joined_page_range {text : Text} (joined : Joined text) : Joined (pageRange text) := by
  have widens := widens_page_range text
  refine ⟨fun member => joined.line (mem_page_range text _ member), ?_, ?_⟩
  · intro char first
    exact joined.starts char (widens.head ▸ first)
  · intro char final
    exact joined.ends char (widens.last ▸ final)

end Bibliography.Layout
