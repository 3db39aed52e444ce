import Bibliography.Proofs.Source.Within

/-!
Where reading stops. A fault blames the place where reading stopped or an earlier one, never
one that has not been reached. So what is left when a reader fails is an end of what stood at
the place that is blamed.
-/

namespace Bibliography.Source

open Text

/-- Reading stopped at the place that is blamed or behind it. -/
def Fault.Reached (fault : Fault) : Prop := fault.rest <:+ fault.place

variable {fault : Fault}

theorem except_map_error {Read Result : Type} {outcome : Except Fault Read}
    {change : Read → Result} (failed : outcome.map change = .error fault) :
    outcome = .error fault := by
  cases outcome with
  | error found => exact congrArg Except.error (Except.error.inj failed)
  | ok read => exact absurd failed (by simp [Except.map])

theorem read_braced_reached {text : Text} (failed : readBraced text = .error fault) :
    fault.Reached := by
  unfold readBraced at failed
  split at failed
  · simp at failed
  · rw [← Except.error.inj failed]
    exact List.nil_suffix

theorem read_quoted_reached {text : Text} (failed : readQuoted text = .error fault) :
    fault.Reached := by
  unfold readQuoted at failed
  split at failed
  · simp at failed
  · rw [← Except.error.inj failed]
    exact List.nil_suffix

theorem expect_reached {allowed context text : Text}
    (failed : expect allowed context text = .error fault) : fault.Reached := by
  unfold expect at failed
  split at failed
  · rw [← Except.error.inj failed]
    exact List.suffix_refl _
  · split at failed
    · simp at failed
    · rw [← Except.error.inj failed]
      exact List.suffix_refl _

theorem read_part_reached {text : Text} (failed : readPart text = .error fault) :
    fault.Reached := by
  unfold readPart at failed
  split at failed
  · exact read_braced_reached (except_map_error failed)
  · split at failed
    · exact read_quoted_reached (except_map_error failed)
    · split at failed
      · rw [← Except.error.inj failed]
        exact List.suffix_refl _
      · simp at failed

theorem read_parts_reached {text : Text} (failed : readParts text = .error fault) :
    fault.Reached := by
  fun_induction readParts text with
  | case1 text found first => exact read_part_reached (Except.error.inj failed ▸ first)
  | case2 => simp at failed
  | case3 text value rest first more joined _ found later induction =>
      exact induction (Except.error.inj failed ▸ later)
  | case4 => simp at failed

theorem read_value_reached {text : Text} (failed : readValue text = .error fault) :
    fault.Reached := by
  unfold readValue at failed
  dsimp only at failed
  split at failed
  · next parts => exact read_parts_reached (Except.error.inj failed ▸ parts)
  · simp at failed
  · simp at failed

theorem read_comment_reached {enclosure : Enclosure} {text : Text}
    (failed : readComment enclosure text = .error fault) : fault.Reached := by
  cases enclosure with
  | braces => exact read_braced_reached (except_map_error failed)
  | parens =>
      simp only [readComment] at failed
      split at failed
      · simp at failed
      · rw [← Except.error.inj failed]
        exact List.suffix_refl _

theorem read_preamble_reached {enclosure : Enclosure} {text : Text}
    (failed : readPreamble enclosure text = .error fault) : fault.Reached := by
  unfold readPreamble at failed
  split at failed
  · next value => exact read_value_reached (Except.error.inj failed ▸ value)
  · split at failed
    · next closed =>
        have stopped := expect_reached closed
        rw [← Except.error.inj failed]
        exact stopped
    · simp at failed

theorem read_abbreviation_reached {enclosure : Enclosure} {text : Text}
    (failed : readAbbreviation enclosure text = .error fault) : fault.Reached := by
  unfold readAbbreviation at failed
  dsimp only at failed
  split at failed
  · rw [← Except.error.inj failed]
    exact List.suffix_refl _
  · split at failed
    · next value => exact read_value_reached (Except.error.inj failed ▸ value)
    · split at failed
      · next closed =>
          have stopped := expect_reached closed
          rw [← Except.error.inj failed]
          exact stopped
      · simp at failed

/-- An entry that is not closed is blamed on its opening, so its fields are read behind that. -/
theorem read_fields_reached {closer : Char} {key opening text : Text} (inside : text <:+ opening)
    (failed : readFields closer key opening text = .error fault) : fault.Reached := by
  fun_induction readFields closer key opening text with
  | case1 => simp at failed
  | case2 text _ missing =>
      rw [← Except.error.inj failed]
      unfold fieldFault
      split
      · exact (skip_blank_suffix text).trans inside
      · exact List.suffix_refl _
  | case3 text _ name assigned named found value =>
      exact read_value_reached (Except.error.inj failed ▸ value)
  | case4 text _ name assigned named value rest valued found separated =>
      exact expect_reached (Except.error.inj failed ▸ separated)
  | case5 text _ name assigned named value rest valued last found later separated _ induction =>
      have behind := ((field_value_within named).left valued).trans inside
      have further := ((expect_within _ _ rest).left separated).trans behind
      exact induction further (Except.error.inj failed ▸ later)
  | case6 => simp at failed
  | case7 => simp at failed

theorem read_entry_reached {kind opening text : Text} {enclosure : Enclosure}
    (inside : text <:+ opening)
    (failed : readEntry kind enclosure opening text = .error fault) : fault.Reached := by
  unfold readEntry at failed
  split at failed
  · rw [← Except.error.inj failed]
    exact inside
  · next key behind keyed =>
      have start := (read_key_suffix keyed).trans inside
      split at failed
      · next separated =>
          have stopped := expect_reached separated
          rw [← Except.error.inj failed]
          exact stopped
      · next separated =>
          have further := ((expect_within _ _ behind).left separated).trans start
          split at failed
          · split at failed
            · next fields =>
                have stopped := read_fields_reached further fields
                rw [← Except.error.inj failed]
                exact stopped
            · simp at failed
          · simp at failed

theorem read_block_reached {seen : Bool} {opening : Text} {header : Header}
    (read : readHeader? opening = some header)
    (failed : readBlock seen opening header = .error fault) : fault.Reached := by
  have inside := (List.suffix_cons _ header.body).trans (read_header_suffix read)
  unfold readBlock at failed
  dsimp only at failed
  split at failed
  · exact read_comment_reached (except_map_error failed)
  · split at failed
    · split at failed
      · rw [← Except.error.inj failed]
        exact inside
      · exact read_preamble_reached (except_map_error failed)
    · split at failed
      · exact read_abbreviation_reached (except_map_error failed)
      · exact read_entry_reached inside (except_map_error failed)

theorem step_reached {seen : Bool} {text : Text} (failed : (step seen text).next = .error fault) :
    fault.Reached := by
  have took := step_takes seen text
  generalize step seen text = outcome at took failed
  cases took with
  | blank | percent | loose => simp [lineStep] at failed
  | faulty _ _ found block =>
      exact read_block_reached (find_header_start found).2 (Except.error.inj failed ▸ block)
  | block => simp at failed

theorem read_items_reached {seen : Bool} {text : Text} {items : List Item}
    (read : readItems seen text = (items, .stopped fault)) : fault.Reached := by
  fun_induction readItems seen text generalizing items with
  | case1 => simp at read
  | case2 =>
      next stepped =>
      exact step_reached (Ending.stopped.inj (Prod.mk.inj read).2 ▸ stepped)
  | case3 => simp at read
  | case4 seen text empty outcome rest stepped shorter going later =>
      next induction =>
      exact induction (Prod.ext rfl (Prod.mk.inj read).2)

end Bibliography.Source
