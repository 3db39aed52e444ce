import Bibliography.Proofs.Latex.Depth
import Bibliography.Proofs.Render
import Bibliography.Proofs.Text.CaseFences

/-!
Balanced values under all options. Joining lines, title case and page ranges leave the
braces and quotes of a text where they are; removing an outer pair of braces and spelling
keep it balanced. So a balanced value is read back from its rendered form, unless it stands
between quotes and a quote of its own could end it. Nothing is claimed about values without
a delimiter, and nothing about the words that are read.
-/

namespace Bibliography

open Text Source

namespace Layout

theorem depth_to_end_cons {level : Int} {char : Char} {rest : Text} (goesOn : rest ≠ []) :
    depthToEnd level (char :: rest) =
      if char = '}' ∧ level = 1 then none else depthToEnd (level + turn char) rest := by
  by_cases opening : char = '{'
  · subst opening
    simp [depthToEnd]
  · by_cases closing : char = '}'
    · subst closing
      by_cases ground : level = 1
      · simp [depthToEnd, ground, goesOn]
      · simp [depthToEnd, ground, Int.sub_eq_add_neg]
    · simp [depthToEnd, turn, opening, closing]

theorem depth_to_end_iff {level : Int} {body : Text} (above : 0 ≤ level) :
    depthToEnd (level + 1) (body ++ ['}']) = some 0 ↔ BalancedFrom level body := by
  induction body generalizing level with
  | nil =>
      have ended : depthToEnd (level + 1) ([] ++ ['}']) = some level := by
        simp [depthToEnd]
      rw [ended, balanced_from_nil, Option.some.injEq]
  | cons char rest induction =>
      rw [List.cons_append, depth_to_end_cons (by simp), balanced_from_cons]
      by_cases closed : char = '}' ∧ level + 1 = 1
      · rw [if_pos closed]
        obtain ⟨rfl, ground⟩ := closed
        constructor
        · simp
        · intro balanced
          have bound := above_of_balanced balanced.2
          rw [turn_close] at bound
          omega
      · have next : 0 ≤ level + turn char :=
          above_turn above fun both => closed ⟨both.1, by omega⟩
        have shifted : level + 1 + turn char = level + turn char + 1 := by omega
        rw [if_neg closed, shifted, induction next]
        exact (and_iff_right above).symm

theorem group_counted_iff (body : Text) :
    depthToEnd 0 ('{' :: (body ++ ['}'])) = some 0 ↔ Balanced body := by
  rw [balanced_iff_from, ← depth_to_end_iff (Int.le_refl 0)]
  rfl

theorem strip_braces_group {body : Text} (balanced : Balanced body) :
    stripBraces ('{' :: (body ++ ['}'])) = body := by
  have last : ('{' :: (body ++ ['}'])).getLast? = some '}' := by
    rw [← List.cons_append, List.getLast?_concat]
  unfold stripBraces
  rw [if_pos ⟨by simp, rfl, last, (group_counted_iff body).2 balanced⟩]
  exact List.dropLast_concat

theorem strip_braces_cases (text : Text) :
    stripBraces text = text ∨
      ∃ body, Balanced body ∧ text = '{' :: (body ++ ['}']) ∧ stripBraces text = body := by
  by_cases group : ∃ body, Balanced body ∧ text = '{' :: (body ++ ['}'])
  · obtain ⟨body, balanced, rfl⟩ := group
    exact .inr ⟨body, balanced, rfl, strip_braces_group balanced⟩
  · refine .inl (if_neg ?_)
    intro found
    rcases found with ⟨long, first, last, counted⟩
    apply group
    cases text with
    | nil => simp at first
    | cons char tail =>
        obtain rfl := Option.some.inj first
        have nonempty : tail ≠ [] := by
          intro empty
          simp [empty] at long
        rw [List.getLast?_cons_of_ne_nil nonempty] at last
        have parts := List.dropLast_append_getLast? '}' last
        rw [← parts, group_counted_iff] at counted
        exact ⟨tail.dropLast, counted, by rw [parts]⟩

theorem balanced_strip_braces {text : Text} (balanced : Balanced text) :
    Balanced (stripBraces text) := by
  rcases strip_braces_cases text with same | ⟨body, inner, _, stripped⟩
  · rw [same]
    exact balanced
  · rw [stripped]
    exact inner

/-- What is left of a text without its outer pair of braces. The two braces belong together
only if what stands between them is balanced; any other text is left as it is. -/
inductive Unwrapped : Text → Text → Prop
  | group {body : Text} (balanced : Balanced body) : Unwrapped ('{' :: (body ++ ['}'])) body
  | whole {text : Text} (noGroup : ∀ body, Balanced body → text ≠ '{' :: (body ++ ['}'])) :
      Unwrapped text text

/-- One genuine outer pair of braces is removed and nothing else, from unbalanced texts too;
a balanced text stays balanced. -/
theorem strip_braces_exact (text : Text) :
    (∀ result, stripBraces text = result ↔ Unwrapped text result) ∧
      (Balanced text → Balanced (stripBraces text)) := by
  refine ⟨?_, balanced_strip_braces⟩
  intro result
  constructor
  · rintro rfl
    by_cases group : ∃ body, Balanced body ∧ text = '{' :: (body ++ ['}'])
    · obtain ⟨body, balanced, rfl⟩ := group
      rw [strip_braces_group balanced]
      exact .group balanced
    · have noGroup : ∀ body, Balanced body → text ≠ '{' :: (body ++ ['}']) :=
        fun body balanced same => group ⟨body, balanced, same⟩
      rcases strip_braces_cases text with same | ⟨body, balanced, written, _⟩
      · rw [same]
        exact .whole noGroup
      · exact absurd written (noGroup body balanced)
  · intro unwrapped
    cases unwrapped with
    | group balanced => exact strip_braces_group balanced
    | whole noGroup =>
        rcases strip_braces_cases text with same | ⟨body, balanced, written, _⟩
        · exact same
        · exact absurd written (noGroup body balanced)

/-- The outer pair goes, the groups that stand side by side in it stay. A brace that closes
too early makes the first and the last brace no pair. -/
theorem side_by_side_unwrapped :
    stripBraces "\x7b\x7ba\x7d\x7bb\x7d\x7d".toList = "\x7ba\x7d\x7bb\x7d".toList ∧
      stripBraces "\x7ba\x7d\x7bb\x7d".toList = "\x7ba\x7d\x7bb\x7d".toList ∧
      Balanced "\x7ba\x7d\x7bb\x7d".toList ∧
      Balanced (stripBraces "\x7ba\x7d\x7bb\x7d".toList) := by
  have balanced : Balanced "\x7ba\x7d\x7bb\x7d".toList := by decide
  have outer : Unwrapped "\x7b\x7ba\x7d\x7bb\x7d\x7d".toList "\x7ba\x7d\x7bb\x7d".toList :=
    .group balanced
  have inner : Unwrapped "\x7ba\x7d\x7bb\x7d".toList "\x7ba\x7d\x7bb\x7d".toList := by
    apply Unwrapped.whole
    intro body within same
    have between : body = "a\x7d\x7bb".toList :=
      List.append_cancel_right (List.cons.inj same.symm).2
    exact absurd (between ▸ within) (by decide)
  exact ⟨((strip_braces_exact _).1 _).2 outer, ((strip_braces_exact _).1 _).2 inner, balanced,
    (strip_braces_exact _).2 balanced⟩

end Layout

namespace Latex

theorem balanced_spell_out {text : Text} (balanced : Balanced text) : Balanced (spellOut text) := by
  rw [balanced_iff_from] at balanced ⊢
  exact balanced_from_spell_out balanced

theorem quotable_spell_out {text : Text} (balanced : Balanced text) (quotable : Quotable text) :
    Quotable (spellOut text) := by
  rw [quotable_iff_from] at quotable ⊢
  apply (quotable_from_spell_out 0 text).2
  refine ⟨quotable, ?_⟩
  intro front char rest parts _ _
  rw [Int.zero_add]
  exact balanced.2 front ⟨char :: rest, parts.symm⟩

end Latex

namespace Options

variable {options : Options}

theorem tidy_text_induct (holds : Text → Prop)
    (fenced : ∀ left right, fences left = fences right → holds left → holds right)
    (stripped : options.stripBraces = true → ∀ text, holds text → holds (Layout.stripBraces text))
    (spelled : ∀ text, holds text → holds (Latex.spellOut text)) (name : Text) {text : Text}
    (start : holds text) : holds (options.tidyText name text) := by
  have joined := fenced _ _ (Layout.fences_join_lines text).symm start
  unfold tidyText
  dsimp only
  generalize Layout.joinLines text = line at joined ⊢
  have unwrapped : holds (if options.stripBraces then Layout.stripBraces line else line) := by
    split
    · next strip => exact stripped strip line joined
    · exact joined
  generalize (if options.stripBraces then Layout.stripBraces line else line) = inner at unwrapped ⊢
  have cased : holds (if options.dropCaps && Layout.isAllCaps inner then Layout.titleCase inner
      else inner) := by
    split
    · exact fenced _ _ (Layout.fences_title_case inner).symm unwrapped
    · exact unwrapped
  generalize (if options.dropCaps && Layout.isAllCaps inner then Layout.titleCase inner
      else inner) = words at cased ⊢
  have escaped : holds (if options.escape then Latex.escape words else words) := by
    split
    · rw [Latex.escape_eq_spell_out]
      exact spelled words cased
    · exact cased
  generalize (if options.escape then Latex.escape words else words) = latex at escaped ⊢
  split
  · exact fenced _ _ (Layout.fences_page_range latex).symm escaped
  · exact escaped

theorem balanced_tidy_text (options : Options) (name : Text) {text : Text}
    (balanced : Balanced text) : Balanced (options.tidyText name text) := by
  apply tidy_text_induct Balanced _ _ _ name balanced
  · intro left right same
    exact balanced_of_same_fences same
  · intro _ text
    exact Layout.balanced_strip_braces
  · intro text
    exact Latex.balanced_spell_out

/-- Balance is needed here: a quote can be spelled behind a brace that closes too much. -/
theorem quotable_tidy_text (keeps : options.stripBraces = false) (name : Text) {text : Text}
    (balanced : Balanced text) (quotable : Quotable text) :
    Quotable (options.tidyText name text) := by
  have both : Balanced (options.tidyText name text) ∧ Quotable (options.tidyText name text) := by
    apply tidy_text_induct (fun text => Balanced text ∧ Quotable text) _ _ _ name
      ⟨balanced, quotable⟩
    · intro left right same found
      exact ⟨balanced_of_same_fences same found.1, quotable_of_same_fences same found.2⟩
    · intro strips
      rw [keeps] at strips
      exact absurd strips (by decide)
    · intro text found
      exact ⟨Latex.balanced_spell_out found.1, Latex.quotable_spell_out found.1 found.2⟩
  exact both.2

/-- No quote of the text stands outside of braces. -/
def QuotesCovered (text : Text) : Prop :=
  ∀ front back, text = front ++ '"' :: back → depth front ≠ 0

theorem quotable_iff_covered {text : Text} (balanced : Balanced text) :
    Quotable text ↔ QuotesCovered text := by
  constructor
  · intro quotable front back parts
    have inside := quotable.2 front back parts
    omega
  · intro covered
    refine ⟨Int.le_of_eq balanced.1, ?_⟩
    intro front back parts
    have above := balanced.2 front ⟨'"' :: back, parts.symm⟩
    have inside := covered front back parts
    omega

/-- The value is balanced, and no quote of its own can end it. -/
structure Sturdy (options : Options) (value : Value) : Prop where
  balanced : Balanced value.text
  delimited : value.delimiter = .braces ∨
    value.delimiter = .quotes ∧ options.stripBraces = false ∧ QuotesCovered value.text

theorem readable_of_sturdy {value : Value} (sturdy : options.Sturdy value) (name : Text) :
    options.Readable (name, value) := by
  have balanced := balanced_tidy_text options name sturdy.balanced
  unfold Readable renderValue
  dsimp only
  split
  · next bare found => exact ⟨_, .single (bare_form_token found)⟩
  · split
    · exact ⟨_, .single (.braced balanced)⟩
    · rcases sturdy.delimited with braces | ⟨quotes, keeps, covered⟩
      · rw [braces]
        exact ⟨_, .single (.braced balanced)⟩
      · have quotable := (quotable_iff_covered sturdy.balanced).2 covered
        rw [quotes]
        exact ⟨_, .single (.quoted (quotable_tidy_text keeps name sturdy.balanced quotable))⟩

/-- What stands behind a rendered value: a comma, or a closing brace on the next line. -/
def Continues (rest : Text) : Prop :=
  (∃ more, rest = ',' :: more) ∨ ∃ more, rest = '\n' :: '}' :: more

theorem ends_value_continues {rest : Text} (continues : Continues rest) : EndsValue rest := by
  rcases continues with ⟨more, rfl⟩ | ⟨more, rfl⟩
  · exact ends_value_gap is_gap_nil more (by decide) (by decide)
  · have feed : IsGap ['\n'] := is_gap_cons.2 ⟨by decide, is_gap_nil⟩
    exact ends_value_gap feed more (by decide) (by decide)

/-- Whatever the options and the name of the field, the rendered form of a sturdy value is
read up to its end, and the value that is read is written the same way. -/
theorem rendered_value_read_back {value : Value} (sturdy : options.Sturdy value) (name : Text) :
    ∃ again, again.written = options.renderValue name value ∧
      ∀ rest, Continues rest →
        readValue (options.renderValue name value ++ rest) = .ok (again, rest) := by
  obtain ⟨again, valued⟩ := readable_of_sturdy sturdy name
  refine ⟨again, value_text_written valued, ?_⟩
  intro rest continues
  have read := read_value_complete valued is_gap_nil (ends_value_continues continues)
  rwa [List.nil_append] at read

def shouted : Value := ⟨"\x7b\"ÜBER\"\x7d ALLES".toList, .quotes⟩

theorem shouted_read_back :
    let options : Options := { dropCaps := true, numeric := true }
    options.Sturdy shouted ∧ Continues "\n\x7d".toList ∧
      ∃ again, again.written = options.renderValue "title".toList shouted ∧
        readValue (options.renderValue "title".toList shouted ++ "\n\x7d".toList) =
          .ok (again, "\n\x7d".toList) := by
  intro options
  have balanced : Balanced shouted.text := by decide
  have covered : QuotesCovered shouted.text := (quotable_iff_covered balanced).1 (by decide)
  have sturdy : options.Sturdy shouted := ⟨balanced, .inr ⟨rfl, rfl, covered⟩⟩
  have continues : Continues "\n\x7d".toList := .inr ⟨[], rfl⟩
  obtain ⟨again, written, read⟩ := rendered_value_read_back sturdy "title".toList
  exact ⟨sturdy, continues, again, written, read _ continues⟩

end Options

end Bibliography
