import Bibliography.Proofs.Source.Items

/-!
A reading as a list of steps. A step passes over a blank line, a line with a percent
sign, another loose line, or a block together with what stands before it on its line.
Nothing else happens to a text that is read, so whatever these four keep is kept by the
whole reading.
-/

namespace Bibliography.Source

open Text

/-- The first line of a text, and what stands behind its line feed. The last line of a
text may have none. -/
inductive FirstLine : Text → Text → Text → Prop
  | ended {line rest : Text} (single : '\n' ∉ line) : FirstLine (line ++ '\n' :: rest) line rest
  | last {line : Text} (single : '\n' ∉ line) : FirstLine line line []

/-- The step that is taken at the start of the text, what it finds, and where the next
one starts. A block is one only if its line is neither blank nor begins with a percent
sign. -/
inductive Stepped (seen : Bool) (text : Text) : List Item → Text → Prop
  | blank {line rest : Text} (first : FirstLine text line rest) (empty : trim line = []) :
      Stepped seen text [] rest
  | percent {line rest comment : Text} (first : FirstLine text line rest)
      (marked : trim line = '%' :: comment) : Stepped seen text [.comment comment] rest
  | loose {line rest : Text} (first : FirstLine text line rest) (solid : trim line ≠ [])
      (unmarked : (trim line).head? ≠ some '%') (plain : findHeader? text = none) :
      Stepped seen text [.comment (trim line)] rest
  | block {line behind before opening rest : Text} {header : Header} {items : List Item}
      (first : FirstLine text line behind) (solid : trim line ≠ [])
      (unmarked : (trim line).head? ≠ some '%')
      (found : findHeader? text = some (before, opening, header))
      (read : readBlock seen opening header = .ok (items, rest)) :
      Stepped seen text (looseComment (trim before) ++ items) rest

/-- A text that is read to its end, step by step, with all that is found in it. -/
inductive Trace : Bool → Text → List Item → Prop
  | done {seen : Bool} : Trace seen [] []
  | onward {seen : Bool} {text rest : Text} {found items : List Item} (nonempty : text ≠ [])
      (stepped : Stepped seen text found rest)
      (later : Trace (seen || found.any Item.isPreamble) rest items) :
      Trace seen text (found ++ items)

theorem first_line_of (text : Text) :
    FirstLine text (text.takeWhile fun char => char != '\n') (nextLine text) := by
  have single := line_of_take_while text
  have parts := List.takeWhile_append_dropWhile (p := fun char => char != '\n') (l := text)
  unfold nextLine
  cases behind : text.dropWhile fun char => char != '\n' with
  | nil =>
      rw [behind, List.append_nil] at parts
      rw [parts] at single ⊢
      exact .last single
  | cons char rest =>
      have head : (text.dropWhile fun char => char != '\n').head? = some char := by
        rw [behind]
        rfl
      have stopped := List.head?_dropWhile_not (fun char => char != '\n') text
      rw [head] at stopped
      have feed : char = '\n' := by simpa using stopped
      rw [behind, feed] at parts
      have ended : FirstLine _ _ rest := .ended single
      rw [parts] at ended
      exact ended

theorem after_eq_none_iff {mark : Char} {text : Text} :
    after? mark text = none ↔ text.head? ≠ some mark := by
  cases text with
  | nil => simp [after?]
  | cons char rest => simp [after?]

theorem stepped_of_step {seen : Bool} {text rest : Text}
    (next : (step seen text).next = .ok rest) : Stepped seen text (step seen text).items rest := by
  have first := first_line_of text
  have took := step_takes seen text
  generalize step seen text = outcome at took next ⊢
  cases took with
  | blank empty =>
      rw [← Except.ok.inj next]
      exact .blank first empty
  | percent marked =>
      rw [← Except.ok.inj next]
      exact .percent first (after_suffix marked)
  | loose solid unmarked plain =>
      rw [← Except.ok.inj next]
      exact .loose first solid (after_eq_none_iff.1 unmarked) plain
  | faulty => simp at next
  | block solid unmarked found read =>
      rw [← Except.ok.inj next]
      exact .block first solid (after_eq_none_iff.1 unmarked) found read

theorem trace_of_gives {seen : Bool} {text : Text} {items : List Item}
    (given : Gives seen text items) : Trace seen text items := by
  rcases given with ⟨overrun, read⟩
  fun_induction readItems seen text generalizing items with
  | case1 =>
      rw [← (Prod.mk.inj read).1]
      exact .done
  | case2 => simp at read
  | case3 seen text nonempty outcome =>
      next stepped _ =>
      rw [← (Prod.mk.inj read).1, ← List.append_nil outcome.items]
      exact .onward nonempty (stepped_of_step stepped) .done
  | case4 seen text nonempty outcome rest stepped shorter going later =>
      next induction =>
      rw [← (Prod.mk.inj read).1]
      exact .onward nonempty (stepped_of_step stepped)
        (induction (Prod.ext rfl (Prod.mk.inj read).2))

theorem line_of_first {text line rest : Text} (first : FirstLine text line rest) :
    text.takeWhile (fun char => char != '\n') = line ∧ nextLine text = rest := by
  cases first with
  | ended single => exact first_line single rest
  | last single =>
      have inside : ∀ char ∈ text, (char != '\n') = true := by
        intro char member
        exact bne_iff_ne.2 fun same => single (same ▸ member)
      have outside : ∀ char ∈ ([] : Text).head?, (char != '\n') = false := by simp
      have whole := take_while_exact inside outside
      have nothing := drop_while_exact inside outside
      rw [List.append_nil] at whole nothing
      rw [nextLine, nothing]
      exact ⟨whole, rfl⟩

theorem line_step_goes {text line rest : Text} (first : FirstLine text line rest)
    (items : List Item) : ∃ overrun, lineStep text items = ⟨items, .ok rest, overrun⟩ := by
  rw [lineStep, (line_of_first first).2]
  exact ⟨_, rfl⟩

theorem step_of_stepped {seen : Bool} {text rest : Text} {items : List Item}
    (stepped : Stepped seen text items rest) :
    ∃ overrun, step seen text = ⟨items, .ok rest, overrun⟩ := by
  cases stepped with
  | blank first empty =>
      simp only [step, (line_of_first first).1, empty, if_true]
      exact line_step_goes first []
  | percent first marked =>
      simp only [step, (line_of_first first).1, marked, after_cons]
      rw [if_neg (by simp)]
      exact line_step_goes first _
  | loose first solid unmarked plain =>
      simp only [step, (line_of_first first).1, after_eq_none_iff.2 unmarked, plain]
      rw [if_neg solid]
      exact line_step_goes first _
  | block first solid unmarked found read =>
      simp only [step, (line_of_first first).1, after_eq_none_iff.2 unmarked, found, read]
      rw [if_neg solid]
      exact ⟨0, rfl⟩

theorem gives_of_trace {seen : Bool} {text : Text} {items : List Item}
    (trace : Trace seen text items) : Gives seen text items := by
  induction trace with
  | done => exact (gives_nil _ _).2 rfl
  | onward nonempty stepped later induction =>
      rcases step_of_stepped stepped with ⟨overrun, same⟩
      exact (gives_step_iff nonempty same).2 ⟨_, induction, rfl⟩

end Bibliography.Source
