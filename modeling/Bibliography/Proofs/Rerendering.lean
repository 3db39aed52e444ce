import Bibliography.Proofs.Balance
import Bibliography.Proofs.Idempotence
import Bibliography.Proofs.Latex.Settled
import Bibliography.Proofs.TitleCase
import Mathlib.Data.List.DropRight

/-!
Rendering a rendered value. Joining lines and spelling settle at once, and so do numerals
and months without a delimiter. Title case does not: what it leaves behind, or what is
spelled afterwards, may have no letter from a to z and is then taken to be in capitals
again. A second rendering changes a value exactly if title case changes it once more.
-/

namespace Bibliography

open Text Source

namespace Layout

theorem ascii_title_case {text : Text} (ascii : Latex.IsAscii text) :
    Latex.IsAscii (titleCase text) := by
  intro image member
  rcases mem_title_case member with same | ⟨char, known, capital⟩ | ⟨others, known, small⟩
  · exact ascii image same
  · have checked := ascii_all (fun char => decide (char.toUpper.toNat < 128)) (by decide)
      (ascii char known)
    rw [upperChar, if_pos (ascii char known)] at capital
    rw [List.mem_singleton.1 capital]
    exact of_decide_eq_true checked
  · exact ascii_lower (fun char inside => ascii char (known char inside)) image small

end Layout

namespace Options

variable {options : Options} {name : Text}

def recase (options : Options) (text : Text) : Text :=
  if options.dropCaps && Layout.isAllCaps text then Layout.titleCase text else text

def respell (options : Options) (text : Text) : Text :=
  if options.escape then Latex.spellOut text else text

theorem tidy_text_steps (keeps : options.stripBraces = false) (other : name ≠ "pages".toList)
    (text : Text) : options.tidyText name text =
      options.respell (options.recase (Layout.joinLines text)) := by
  simp only [tidyText, keeps, Bool.false_eq_true, if_false, if_neg other, recase, respell,
    Latex.escape_eq_spell_out]

theorem joined_recase {text : Text} (joined : Layout.Joined text) :
    Layout.Joined (options.recase text) := by
  unfold recase
  split
  · exact Layout.joined_title_case joined
  · exact joined

theorem joined_respell {text : Text} (joined : Layout.Joined text) :
    Layout.Joined (options.respell text) := by
  unfold respell
  split
  · refine ⟨?_, Latex.starts_solid_spell_out joined.starts,
      Latex.ends_solid_spell_out joined.ends⟩
    exact fun feed => joined.line (Latex.mem_of_blank_spelled (by decide) feed)
  · exact joined

theorem respell_respell (options : Options) (text : Text) :
    options.respell (options.respell text) = options.respell text := by
  unfold respell
  split
  · exact Latex.spell_out_spelled text
  · rfl

theorem tidy_text_again (keeps : options.stripBraces = false) (other : name ≠ "pages".toList)
    (text : Text) : options.tidyText name (options.tidyText name text) =
      options.respell (options.recase (options.tidyText name text)) := by
  have joined : Layout.Joined (options.tidyText name text) := by
    rw [tidy_text_steps keeps other]
    exact joined_respell (joined_recase (Layout.joined_join_lines text))
  rw [tidy_text_steps keeps other, Layout.join_lines_of_joined joined]

theorem case_avoids_short : CaseAvoids Latex.shortRanges where
  ascii := by decide +kernel
  runs := by decide +kernel
  expansions := by decide +kernel
  single := by decide +kernel

/-- Spelling does not take back what title case has changed: neither makes a text shorter. -/
theorem title_case_of_respelled {text : Text} (spelled : options.respell text = text)
    (same : options.respell (Layout.titleCase text) = text) : Layout.titleCase text = text := by
  unfold respell at spelled same
  split at same
  · next escape =>
      rw [if_pos escape] at spelled
      have outside : ∀ char ∈ text, Outside Latex.shortRanges char := by
        rw [← spelled]
        exact Latex.outside_short_of_spelled
      rcases Latex.spell_out_same_or_longer
        (Layout.title_case_outside case_avoids_short outside) with settled | longer
      · exact settled.symm.trans same
      · have grown := Layout.length_title_case text
        rw [same] at longer
        omega
  · exact same

/-- The text is taken to be in capitals, and title case changes it. -/
def Recased (options : Options) (text : Text) : Prop :=
  options.dropCaps = true ∧ Layout.isAllCaps text = true ∧ Layout.titleCase text ≠ text

instance (options : Options) (text : Text) : Decidable (options.Recased text) :=
  inferInstanceAs (Decidable (_ ∧ _ ∧ _))

theorem tidy_text_settled_iff (keeps : options.stripBraces = false)
    (other : name ≠ "pages".toList) (text : Text) :
    options.tidyText name (options.tidyText name text) = options.tidyText name text ↔
      ¬ options.Recased (options.tidyText name text) := by
  have spelled : options.respell (options.tidyText name text) = options.tidyText name text := by
    rw [tidy_text_steps keeps other, respell_respell]
  rw [tidy_text_again keeps other]
  generalize options.tidyText name text = tidied at spelled ⊢
  constructor
  · intro same recased
    rcases recased with ⟨drop, caps, changed⟩
    rw [recase, drop, caps, Bool.and_true, if_pos rfl] at same
    exact changed (title_case_of_respelled spelled same)
  · intro settled
    have stays : options.recase tidied = tidied := by
      unfold recase
      split
      · next shouts =>
          rw [Bool.and_eq_true] at shouts
          by_contra changed
          exact settled ⟨shouts.1, shouts.2, changed⟩
      · rfl
    rw [stays, spelled]

/-- In ASCII title case comes out the same the second time, and nothing is spelled. -/
theorem ascii_not_recased (keeps : options.stripBraces = false) (other : name ≠ "pages".toList)
    {text : Text} (ascii : Latex.IsAscii text) :
    ¬ options.Recased (options.tidyText name text) := by
  have joined : Latex.IsAscii (Layout.joinLines text) := by
    intro char member
    rcases Layout.mem_join_lines member with rfl | known
    · decide
    · exact ascii char known
  rw [tidy_text_steps keeps other]
  generalize Layout.joinLines text = line at joined ⊢
  have respelled : ∀ {words : Text}, Latex.IsAscii words → options.respell words = words := by
    intro words small
    rw [respell, Latex.spell_out_of_ascii small, ite_self]
  rintro ⟨drop, caps, changed⟩
  unfold recase at caps changed
  split at caps
  · next shouts =>
      rw [if_pos shouts, respelled (Layout.ascii_title_case joined)] at changed
      exact changed (Layout.title_case_again fun char member word =>
        capital_of_ascii (joined char member) word)
  · next quiet =>
      rw [respelled joined] at caps
      rw [drop, caps] at quiet
      exact quiet rfl

theorem caseless_of_ascii_digit {char : Char} (digit : isAsciiDigit char = true) :
    char.toNat < 128 ∧ Caseless char := by
  have range : ('0' ≤ char ∧ char ≤ '9') := by
    simpa [isAsciiDigit] using digit
  have small : char.toNat < 128 := by
    have last : char.toNat ≤ 57 := range.2
    omega
  have checked := ascii_all (fun char => !isAsciiDigit char ||
    (upperChar char == [char] && lowerChar char == [char] && char != 'Σ'))
    (by decide +kernel) small
  simp only [digit, Bool.not_true, Bool.false_or, Bool.and_eq_true, beq_iff_eq,
    bne_iff_ne] at checked
  exact ⟨small, checked.1.1, checked.1.2, checked.2⟩

theorem drop_zeros_again {text : Text} (numeral : isNumeral text = true) :
    isNumeral (dropLeadingZeros text) = true ∧
      dropLeadingZeros (dropLeadingZeros text) = dropLeadingZeros text := by
  simp only [isNumeral, Bool.and_eq_true, List.all_eq_true] at numeral
  unfold dropLeadingZeros
  split
  · exact ⟨by decide, by decide⟩
  · next nonempty =>
      have digits : ∀ char ∈ text.dropWhile (fun char => char == '0'), isAsciiDigit char = true :=
        fun char member => numeral.2 char ((List.dropWhile_suffix _).subset member)
      have again := List.dropWhile_idempotent (fun char => char == '0') text
      refine ⟨?_, ?_⟩
      · rw [isNumeral, List.all_eq_true.2 digits, Bool.and_true]
        simpa using nonempty
      · rw [again]
        split
        · next none => exact absurd none nonempty
        · rfl

theorem bare_form_cases {text bare : Text} (found : options.bareForm? name text = some bare) :
    options.numeric = true ∧
      (isNumeral bare = true ∧ dropLeadingZeros bare = bare ∨
        name = "month".toList ∧ bare ∈ monthNames) := by
  unfold bareForm? at found
  split at found
  · next numeric =>
      refine ⟨numeric, ?_⟩
      split at found
      · next numeral => exact .inl (Option.some.inj found ▸ drop_zeros_again numeral)
      · simp only [monthName?] at found
        split at found
        · next month => exact .inr ⟨month.1, Option.some.inj found ▸ month.2⟩
        · simp at found
  · simp at found

theorem month_settled : ∀ month ∈ monthNames, Latex.IsAscii month ∧
    Layout.isAllCaps month = false ∧ isNumeral month = false ∧ lower (month.take 3) = month := by
  have checked : (monthNames.all fun month => month.all (fun char => decide (char.toNat < 128)) &&
      !Layout.isAllCaps month && !isNumeral month && lower (month.take 3) == month) = true := by
    decide +kernel
  intro month known
  have passed := List.all_eq_true.1 checked month known
  simp only [Bool.and_eq_true, List.all_eq_true, decide_eq_true_eq, beq_iff_eq,
    Bool.not_eq_true'] at passed
  exact ⟨passed.1.1.1, passed.1.1.2, passed.1.2, passed.2⟩

theorem bare_form_again (keeps : options.stripBraces = false) (other : name ≠ "pages".toList)
    {text bare : Text} (found : options.bareForm? name text = some bare) :
    options.tidyText name bare = bare ∧ options.bareForm? name bare = some bare := by
  have settled : Latex.IsAscii bare ∧ options.recase bare = bare ∧
      options.bareForm? name bare = some bare := by
    obtain ⟨numeric, ⟨numeral, short⟩ | ⟨month, known⟩⟩ := bare_form_cases found
    · have digits := (Bool.and_eq_true_iff.1 numeral).2
      have plain : ∀ char ∈ bare, char.toNat < 128 ∧ Caseless char := fun char member =>
        caseless_of_ascii_digit (List.all_eq_true.1 digits char member)
      refine ⟨fun char member => (plain char member).1, ?_, ?_⟩
      · rw [recase, Layout.title_case_caseless fun char member => (plain char member).2, ite_self]
      · rw [bareForm?, if_pos numeric, if_pos numeral, short]
    · obtain ⟨ascii, small, noNumeral, whole⟩ := month_settled bare known
      refine ⟨ascii, ?_, ?_⟩
      · rw [recase, small, Bool.and_false]
        rfl
      · have named : monthName? name bare = some bare := by
          simp only [monthName?, whole]
          exact if_pos ⟨month, known⟩
        rw [bareForm?, if_pos numeric, noNumeral]
        exact named
  have chars := (part_text_delimited (bare_form_token found)).2
  refine ⟨?_, settled.2.2⟩
  rw [tidy_text_steps keeps other, Layout.join_lines_of_joined (joined_of_bare chars),
    settled.2.1, respell, Latex.spell_out_of_ascii settled.1, ite_self]

theorem render_bare {text bare : Text} (delimiter : Delimiter)
    (found : options.bareForm? name (options.tidyText name text) = some bare) :
    options.renderValue name ⟨text, delimiter⟩ = bare := by
  simp only [renderValue, found]

theorem render_braces {text : Text}
    (missing : options.bareForm? name (options.tidyText name text) = none) :
    options.renderValue name ⟨text, .braces⟩ =
      Delimiter.braces.enclose (options.tidyText name text) := by
  simp only [renderValue, missing, ite_self]

theorem rendered_braces_iff {tidied : Text} (missing : options.bareForm? name tidied = none) :
    options.renderValue name ⟨tidied, .braces⟩ = Delimiter.braces.enclose tidied ↔
      options.tidyText name tidied = tidied := by
  constructor
  · intro same
    cases found : options.bareForm? name (options.tidyText name tidied) with
    | none =>
        rw [render_braces found] at same
        exact enclose_injective same
    | some bare =>
        -- A token holds no brace.
        rw [render_bare .braces found] at same
        have chars := (part_text_delimited (bare_form_token found)).2
        have brace : isBareChar '{' = true := chars '{' (by simp [same, Delimiter.enclose])
        exact absurd brace (by decide)
  · intro same
    rw [render_braces (by rw [same, missing]), same]

/-- The value that is read from a rendered one is rendered the same way, unless the rendered
text is put in title case again. This happens beyond ASCII only. -/
theorem rendered_again_iff (keeps : options.stripBraces = false) (other : name ≠ "pages".toList)
    {text : Text} (balanced : Balanced text) :
    ∃ again, (∀ rest, EndsValue rest →
        readValue (options.renderValue name ⟨text, .braces⟩ ++ rest) = .ok (again, rest)) ∧
      (options.renderValue name again = options.renderValue name ⟨text, .braces⟩ ↔
        ¬ (options.bareForm? name (options.tidyText name text) = none ∧
          options.Recased (options.tidyText name text))) ∧
      (Latex.IsAscii text →
        options.renderValue name again = options.renderValue name ⟨text, .braces⟩) := by
  have plain : Latex.IsAscii text → ¬ options.Recased (options.tidyText name text) :=
    ascii_not_recased keeps other
  have tidied := balanced_tidy_text options name balanced
  cases found : options.bareForm? name (options.tidyText name text) with
  | some bare =>
      obtain ⟨same, again⟩ := bare_form_again keeps other found
      have rendered := render_bare .braces found
      refine ⟨⟨bare, .bare⟩, ?_, ?_⟩
      · intro rest ends
        rw [rendered]
        exact read_value_complete (.single (bare_form_token found)) is_gap_nil ends
      · rw [rendered, render_bare .bare (by rw [same, again])]
        simp
  | none =>
      have rendered := render_braces found
      refine ⟨⟨options.tidyText name text, .braces⟩, ?_, ?_⟩
      · intro rest ends
        rw [rendered]
        exact read_value_complete (.single (.braced tidied)) is_gap_nil ends
      · rw [rendered, rendered_braces_iff found, tidy_text_settled_iff keeps other]
        simpa using plain

/-- The ligature is a capital, and so is the command that spells it, until title case takes
the command for a word. -/
def ligature : Value := ⟨['Æ'], .braces⟩

theorem ligature_rendered_otherwise :
    let options : Options := { dropCaps := true }
    Balanced ligature.text ∧
      String.ofList (options.renderValue "title".toList ligature) = "\x7b\x7b\\AE\x7d\x7d" ∧
      ∃ again, readValue (options.renderValue "title".toList ligature) = .ok (again, []) ∧
        options.renderValue "title".toList again ≠ options.renderValue "title".toList ligature := by
  intro options
  have balanced : Balanced ligature.text := by decide
  have ends : EndsValue [] := ⟨by simp [EndsToken], rfl⟩
  obtain ⟨again, read, same, _⟩ := @rendered_again_iff options "title".toList rfl (by decide)
    ligature.text balanced
  refine ⟨balanced, by decide +kernel, again, ?_, ?_⟩
  · have whole := read [] ends
    rwa [List.append_nil] at whole
  · intro equal
    exact same.1 equal (by decide +kernel)

end Options

end Bibliography
