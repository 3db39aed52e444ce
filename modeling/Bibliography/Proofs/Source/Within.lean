import Bibliography.Source.Reading

/-!
Readers stay inside their text. What a reader leaves behind is an end of the text it was
given, and so is the place that a fault blames.
-/

namespace Bibliography.Source

open Text

/-- What is left, and what a fault blames, is an end of the text. -/
def Within {Result : Type} (text : Text) : Except Fault (Result × Text) → Prop
  | .ok read => read.2 <:+ text
  | .error fault => fault.place <:+ text

namespace Within

variable {Result : Type} {text : Text} {outcome : Except Fault (Result × Text)}

theorem left {result : Result} {rest : Text} (within : Within text outcome)
    (read : outcome = .ok (result, rest)) : rest <:+ text := by
  subst read
  exact within

theorem blamed {fault : Fault} (within : Within text outcome) (failed : outcome = .error fault) :
    fault.place <:+ text := by
  subst failed
  exact within

theorem longer {whole : Text} (within : Within text outcome) (inside : text <:+ whole) :
    Within whole outcome := by
  cases outcome with
  | error fault => exact within.trans inside
  | ok read => exact within.trans inside

theorem map {Other : Type} (within : Within text outcome) (change : Result → Other) :
    Within text (outcome.map fun read => (change read.1, read.2)) := by
  cases outcome with
  | error fault => exact within
  | ok read => exact within

end Within

theorem after_mark_suffix {mark : Char} {text rest : Text}
    (found : after? mark (skipBlank text) = some rest) : rest <:+ text := by
  have start := skip_blank_suffix text
  rw [after_suffix found] at start
  exact (List.suffix_cons mark rest).trans start

theorem read_braced_within (text : Text) : Within text (readBraced text) := by
  unfold readBraced
  split
  · next group rest cut =>
      rw [cut_group_eq cut]
      exact (List.suffix_cons '}' rest).trans (List.suffix_append group _)
  · exact List.suffix_refl text

theorem read_quoted_within (text : Text) : Within text (readQuoted text) := by
  unfold readQuoted
  split
  · next cut found =>
      rcases cut with ⟨body, rest⟩
      apply List.IsSuffix.trans _ (List.drop_suffix 1 text)
      rw [cut_quoted_eq found]
      exact (List.suffix_cons '"' rest).trans (List.suffix_append body _)
  · exact List.suffix_refl text

theorem expect_within (allowed context text : Text) :
    Within text (expect allowed context text) := by
  have start := skip_blank_suffix text
  unfold expect
  split
  · exact List.nil_suffix
  · next char rest skipped =>
      rw [skipped] at start
      split
      · exact (List.suffix_cons char rest).trans start
      · exact start

theorem read_part_within (text : Text) : Within text (readPart text) := by
  unfold readPart
  split
  · apply (read_braced_within text).map fun group => (⟨group, .braces⟩ : Value)
  · split
    · apply (read_quoted_within text).map fun body => (⟨body, .quotes⟩ : Value)
    · split
      · exact List.suffix_refl text
      · exact List.dropWhile_suffix isBareChar

theorem read_parts_within (text : Text) : Within text (readParts text) := by
  fun_induction readParts text with
  | case1 text fault failed =>
      exact ((read_part_within _).blamed failed).trans (skip_blank_suffix text)
  | case2 text value rest first =>
      exact ((read_part_within _).left first).trans (skip_blank_suffix text)
  | case3 text value rest first more joined _ fault failed induction =>
      have inside := ((read_part_within _).left first).trans (skip_blank_suffix text)
      exact (induction.blamed failed).trans ((after_mark_suffix joined).trans inside)
  | case4 text value rest first more joined _ values last later induction =>
      have inside := ((read_part_within _).left first).trans (skip_blank_suffix text)
      exact (induction.left later).trans ((after_mark_suffix joined).trans inside)

theorem read_value_within (text : Text) : Within text (readValue text) := by
  have parts := read_parts_within (skipBlank text)
  have start := skip_blank_suffix text
  unfold readValue
  dsimp only
  split
  · next failed => exact (parts.blamed failed).trans start
  · next read => exact (parts.left read).trans start
  · next read => exact (parts.left read).trans start

theorem read_comment_within (enclosure : Enclosure) (text : Text) :
    Within text (readComment enclosure text) := by
  cases enclosure with
  | braces => exact (read_braced_within text).map commentLines
  | parens =>
      simp only [readComment]
      split
      · next rest closed =>
          have drop := List.dropWhile_suffix (l := text) fun char => char != ')'
          rw [after_suffix closed] at drop
          exact (List.suffix_cons ')' rest).trans drop
      · exact List.suffix_refl text

theorem read_preamble_within (enclosure : Enclosure) (text : Text) :
    Within text (readPreamble enclosure text) := by
  have value := read_value_within text
  unfold readPreamble
  split
  · next failed => exact value.blamed failed
  · next rest valued =>
      have inside := value.left valued
      split
      · next failed => exact ((expect_within _ _ rest).blamed failed).trans inside
      · next read => exact ((expect_within _ _ rest).left read).trans inside

theorem read_assignment_suffix {text name rest : Text}
    (read : readAssignment? text = some (name, rest)) : rest <:+ text := by
  unfold readAssignment? at read
  split at read
  · simp at read
  · rcases Option.map_eq_some_iff.1 read with ⟨last, found, same⟩
    rw [← (Prod.mk.inj same).2]
    apply (skip_blank_suffix last).trans
    exact (after_mark_suffix found).trans (List.dropWhile_suffix isNameChar)

theorem read_abbreviation_within (enclosure : Enclosure) (text : Text) :
    Within text (readAbbreviation enclosure text) := by
  have start := skip_blank_suffix text
  unfold readAbbreviation
  dsimp only
  split
  · exact start
  · next assigned named =>
      have value := (read_value_within assigned).longer
        ((read_assignment_suffix named).trans start)
      split
      · next failed => exact value.blamed failed
      · next rest valued =>
          have inside := value.left valued
          split
          · next failed => exact ((expect_within _ _ rest).blamed failed).trans inside
          · next read => exact ((expect_within _ _ rest).left read).trans inside

theorem field_value_within {text name assigned : Text}
    (named : readAssignment? (skipBlank text) = some (name, assigned)) :
    Within text (readValue assigned) :=
  (read_value_within assigned).longer
    ((read_assignment_suffix named).trans (skip_blank_suffix text))

/-- The end of the text is blamed on the opening, which is why the fields of an entry are
read inside the text from there on. -/
theorem read_fields_within {closer : Char} {key opening text : Text} (inside : text <:+ opening) :
    Within opening (readFields closer key opening text) := by
  fun_induction readFields closer key opening text with
  | case1 text rest closed => exact (after_mark_suffix closed).trans inside
  | case2 text _ missing =>
      unfold fieldFault
      split
      · exact List.suffix_refl opening
      · exact (skip_blank_suffix text).trans inside
  | case3 text _ name assigned named fault failed =>
      exact ((field_value_within named).blamed failed).trans inside
  | case4 text _ name assigned named value rest valued fault failed =>
      have behind := ((field_value_within named).left valued).trans inside
      exact ((expect_within _ _ rest).blamed failed).trans behind
  | case5 text _ name assigned named value rest valued last fault failed separated _ induction =>
      have behind := ((field_value_within named).left valued).trans inside
      have further := ((expect_within _ _ rest).left separated).trans behind
      exact (induction further).blamed failed
  | case6 text _ name assigned named value rest valued last fields final later separated _
      induction =>
      have behind := ((field_value_within named).left valued).trans inside
      have further := ((expect_within _ _ rest).left separated).trans behind
      exact (induction further).left later
  | case7 text _ name assigned named value rest valued separator last separated =>
      have behind := ((field_value_within named).left valued).trans inside
      exact ((expect_within _ _ rest).left separated).trans behind

theorem read_key_suffix {text key rest : Text} (read : readKey? text = some (key, rest)) :
    rest <:+ text := by
  unfold readKey? at read
  dsimp only at read
  split at read
  · simp at read
  · rw [← (Prod.mk.inj (Option.some.inj read)).2]
    apply (skip_blank_suffix _).trans
    exact (List.dropWhile_suffix isKeyChar).trans (skip_blank_suffix text)

theorem read_entry_within {kind opening text : Text} {enclosure : Enclosure}
    (inside : text <:+ opening) : Within opening (readEntry kind enclosure opening text) := by
  unfold readEntry
  split
  · exact List.suffix_refl opening
  · next key behind keyed =>
      have start := (read_key_suffix keyed).trans inside
      split
      · next failed => exact ((expect_within _ _ behind).blamed failed).trans start
      · next separator rest separated =>
          have further := ((expect_within _ _ behind).left separated).trans start
          split
          · have fields : Within opening (readFields enclosure.closer key opening rest) :=
              read_fields_within further
            split
            · next failed =>
                have blamed := fields.blamed failed
                exact blamed
            · next read => exact fields.left read
          · exact further

def Enclosure.opener : Enclosure → Char
  | braces => '{'
  | parens => '('

theorem read_enclosure_eq {text rest : Text} {enclosure : Enclosure}
    (read : readEnclosure? text = some (enclosure, rest)) : text = enclosure.opener :: rest := by
  cases text with
  | nil => simp [readEnclosure?] at read
  | cons char others =>
      simp only [readEnclosure?] at read
      split at read
      · next brace =>
          rcases Prod.mk.inj (Option.some.inj read) with ⟨rfl, rfl⟩
          rw [brace]
          rfl
      · split at read
        · next paren =>
            rcases Prod.mk.inj (Option.some.inj read) with ⟨rfl, rfl⟩
            rw [paren]
            rfl
        · simp at read

theorem read_header_suffix {text : Text} {header : Header} (read : readHeader? text = some header) :
    header.enclosure.opener :: header.body <:+ text := by
  unfold readHeader? at read
  split at read
  · simp at read
  · next behind found =>
      split at read
      · simp at read
      · next first others start =>
          split at read
          · rcases Option.map_eq_some_iff.1 read with ⟨⟨enclosure, body⟩, enclosed, same⟩
            have gap := skip_blank_suffix (others.dropWhile isWord)
            rw [read_enclosure_eq enclosed] at gap
            have name := List.dropWhile_suffix (l := others) isWord
            have blank := skip_blank_suffix behind
            rw [start] at blank
            rw [after_suffix found, ← same]
            apply (gap.trans name).trans
            exact (List.suffix_cons first others).trans (blank.trans (List.suffix_cons '@' behind))
          · simp at read

theorem read_block_within {seen : Bool} {opening : Text} {header : Header}
    (read : readHeader? opening = some header) :
    Within opening (readBlock seen opening header) := by
  have opened := read_header_suffix read
  have inside := (List.suffix_cons _ header.body).trans opened
  unfold readBlock
  dsimp only
  split
  · cases enclosed : header.enclosure with
    | braces =>
        rw [enclosed] at opened
        exact ((read_comment_within .braces _).longer opened).map (List.map Item.comment)
    | parens => exact ((read_comment_within .parens _).longer inside).map (List.map Item.comment)
  · split
    · split
      · exact List.suffix_refl opening
      · exact ((read_preamble_within _ _).longer inside).map fun value => [Item.preamble value]
    · split
      · exact ((read_abbreviation_within _ _).longer inside).map
          fun abbreviation => [Item.abbreviation abbreviation]
      · exact (read_entry_within inside).map fun entry => [Item.entry entry]

theorem next_line_suffix (text : Text) : nextLine text <:+ text :=
  (List.drop_suffix 1 _).trans (List.dropWhile_suffix _)

/-- A step goes on inside its text, or blames a place there. -/
theorem step_within {seen : Bool} {text : Text} {outcome : Except Fault Text}
    (stepped : (step seen text).next = outcome) :
    Within text (outcome.map fun rest => ((), rest)) := by
  subst stepped
  have took := step_takes seen text
  generalize step seen text = outcome at took ⊢
  have block : ∀ {before opening : Text} {header : Header},
      findHeader? text = some (before, opening, header) →
        Within text (readBlock seen opening header) := by
    intro before opening header found
    obtain ⟨parts, opened⟩ := find_header_start found
    apply (read_block_within opened).longer
    rw [parts]
    exact List.suffix_append _ _
  cases took with
  | blank | percent | loose => exact next_line_suffix text
  | faulty _ _ found failed => exact (block found).blamed failed
  | block _ _ found read => exact (block found).left read

theorem read_items_within {seen : Bool} {text : Text} {items : List Item} {fault : Fault}
    (read : readItems seen text = (items, .stopped fault)) : fault.place <:+ text := by
  fun_induction readItems seen text generalizing items with
  | case1 => simp at read
  | case2 =>
      next stepped =>
      rw [← Ending.stopped.inj (Prod.mk.inj read).2]
      exact step_within stepped
  | case3 => simp at read
  | case4 seen text empty outcome rest stepped shorter going later =>
      next induction =>
      have inside : rest <:+ text := step_within stepped
      exact (induction (Prod.ext rfl (Prod.mk.inj read).2)).trans inside

end Bibliography.Source
