import Bibliography.Proofs.Source.Grammar
import Bibliography.Source.Block

/-!
Values are read exactly as they are written. Each reader of the lexical layer
gives a result if and only if its text starts with a written form of that result;
what may follow a value is only asked not to prolong it.
-/

namespace Bibliography.Source

open Text

theorem inner_depth (level : Int) (char : Char) :
    (if char = '{' then level + 1 else if char = '}' then level - 1 else level) =
      level + turn char := by
  unfold turn
  split
  · rfl
  · split
    · rfl
    · exact (Int.add_zero level).symm

theorem longer_cut_iff {char : Char} {cut : Option (Text × Text)} {text rest : Text} :
    (cut.map fun parts => (char :: parts.1, parts.2)) = some (text, rest) ↔
      ∃ inner, text = char :: inner ∧ cut = some (inner, rest) := by
  constructor
  · intro found
    obtain ⟨⟨inner, last⟩, cut, same⟩ := Option.map_eq_some_iff.1 found
    obtain ⟨rfl, rfl⟩ := Prod.mk.inj same
    exact ⟨inner, rfl, cut⟩
  · intro found
    rcases found with ⟨inner, rfl, rfl⟩
    rfl

/-- Inside a group, one level below the depth that the reader counts. -/
theorem cut_group_iff {level : Int} {text group rest : Text} (above : 0 ≤ level) :
    cutGroup (level + 1) text = some (group, rest) ↔
      text = group ++ '}' :: rest ∧ BalancedFrom level group := by
  induction text generalizing level group with
  | nil => simp [cutGroup]
  | cons char others induction =>
      simp only [cutGroup, inner_depth]
      by_cases closing : char = '}' ∧ level + 1 = 1
      · obtain ⟨rfl, ground⟩ := closing
        have zero : level = 0 := by omega
        subst zero
        rw [if_pos (by simp)]
        constructor
        · intro found
          obtain ⟨rfl, rfl⟩ := Prod.mk.inj (Option.some.inj found)
          exact ⟨rfl, (balanced_from_nil 0).2 rfl⟩
        · intro found
          rcases found with ⟨parts, balanced⟩
          cases group with
          | nil => rw [(List.cons.inj parts).2]
          | cons first inner =>
              obtain ⟨rfl, _⟩ := List.cons.inj parts
              have below := above_of_balanced ((balanced_from_cons 0 '}' inner).1 balanced).2
              exact absurd below (by decide)
      · have next : 0 ≤ level + turn char :=
          above_turn above fun both => closing ⟨both.1, by omega⟩
        have shifted : level + 1 + turn char = level + turn char + 1 := by omega
        rw [if_neg closing, longer_cut_iff, shifted]
        constructor
        · intro found
          rcases found with ⟨inner, rfl, read⟩
          obtain ⟨parts, balanced⟩ := (induction next).1 read
          exact ⟨by rw [parts]; rfl, (balanced_from_cons _ _ _).2 ⟨above, balanced⟩⟩
        · intro found
          rcases found with ⟨parts, balanced⟩
          cases group with
          | nil =>
              have ground := (balanced_from_nil level).1 balanced
              exact absurd ⟨(List.cons.inj parts).1, by omega⟩ closing
          | cons first inner =>
              obtain ⟨rfl, tail⟩ := List.cons.inj parts
              have rest := ((balanced_from_cons _ _ _).1 balanced).2
              exact ⟨inner, rfl, (induction next).2 ⟨tail, rest⟩⟩

theorem cut_quoted_iff {level : Int} {text body rest : Text} :
    cutQuoted level text = some (body, rest) ↔
      text = body ++ '"' :: rest ∧ QuotableFrom level body := by
  induction text generalizing level body with
  | nil => simp [cutQuoted]
  | cons char others induction =>
      simp only [cutQuoted, inner_depth]
      by_cases closing : char = '"' ∧ level ≤ 0
      · obtain ⟨rfl, ground⟩ := closing
        rw [if_pos ⟨rfl, ground⟩]
        constructor
        · intro found
          obtain ⟨rfl, rfl⟩ := Prod.mk.inj (Option.some.inj found)
          exact ⟨rfl, (quotable_from_nil level).2 ground⟩
        · intro found
          rcases found with ⟨parts, quotable⟩
          cases body with
          | nil => rw [(List.cons.inj parts).2]
          | cons first inner =>
              obtain ⟨rfl, _⟩ := List.cons.inj parts
              have inside := ((quotable_from_cons level '"' inner).1 quotable).1 rfl
              omega
      · rw [if_neg closing, longer_cut_iff]
        constructor
        · intro found
          rcases found with ⟨inner, rfl, read⟩
          obtain ⟨parts, quotable⟩ := induction.1 read
          refine ⟨by rw [parts]; rfl, (quotable_from_cons _ _ _).2 ⟨?_, quotable⟩⟩
          intro quote
          have inside : ¬ level ≤ 0 := fun ground => closing ⟨quote, ground⟩
          omega
        · intro found
          rcases found with ⟨parts, quotable⟩
          cases body with
          | nil =>
              have ground := (quotable_from_nil level).1 quotable
              exact absurd ⟨(List.cons.inj parts).1, ground⟩ closing
          | cons first inner =>
              obtain ⟨rfl, tail⟩ := List.cons.inj parts
              have rest := ((quotable_from_cons _ _ _).1 quotable).2
              exact ⟨inner, rfl, induction.2 ⟨tail, rest⟩⟩

instance (text : Text) : Decidable (Balanced text) :=
  decidable_of_iff (cutGroup (0 + 1) (text ++ ['}']) = some (text, [])) (by
    rw [cut_group_iff (Int.le_refl 0), ← balanced_iff_from]
    exact and_iff_right rfl)

instance (text : Text) : Decidable (Quotable text) :=
  decidable_of_iff (cutQuoted 0 (text ++ ['"']) = some (text, [])) (by
    rw [cut_quoted_iff, ← quotable_iff_from]
    exact and_iff_right rfl)

theorem read_braced_iff {text body rest : Text} :
    readBraced ('{' :: text) = .ok (body, rest) ↔ text = body ++ '}' :: rest ∧ Balanced body := by
  rw [balanced_iff_from, ← cut_group_iff (Int.le_refl 0), readBraced]
  have opened : cutGroup 0 ('{' :: text) =
      (cutGroup (0 + 1) text).map fun parts => ('{' :: parts.1, parts.2) := rfl
  rw [opened]
  cases cutGroup (0 + 1) text with
  | none => simp
  | some parts =>
      obtain ⟨group, last⟩ := parts
      simp

theorem read_quoted_iff {text body rest : Text} :
    readQuoted ('"' :: text) = .ok (body, rest) ↔ text = body ++ '"' :: rest ∧ Quotable body := by
  rw [quotable_iff_from, ← cut_quoted_iff, readQuoted, List.drop_one, List.tail_cons]
  cases cutQuoted 0 text with
  | none => simp
  | some parts => simp

def EndsToken (rest : Text) : Prop := ∀ char ∈ rest.head?, isBareChar char = false

theorem read_part_sound {text rest : Text} {value : Value}
    (read : readPart text = .ok (value, rest)) :
    ∃ part, PartText part value ∧ text = part ++ rest := by
  cases text with
  | nil => simp [readPart] at read
  | cons char others =>
      simp only [readPart, List.head?_cons, Option.some.injEq] at read
      split at read
      · next brace =>
          subst brace
          obtain ⟨⟨body, last⟩, braced, same⟩ := except_map_ok read
          obtain ⟨rfl, rfl⟩ := Prod.mk.inj same
          obtain ⟨parts, balanced⟩ := read_braced_iff.1 braced
          exact ⟨_, .braced balanced, by rw [parts]; simp⟩
      · split at read
        · next quote =>
            subst quote
            obtain ⟨⟨body, last⟩, quoted, same⟩ := except_map_ok read
            obtain ⟨rfl, rfl⟩ := Prod.mk.inj same
            obtain ⟨parts, quotable⟩ := read_quoted_iff.1 quoted
            exact ⟨_, .quoted quotable, by rw [parts]; simp⟩
        · split at read
          · simp at read
          · next token nonempty =>
              obtain ⟨rfl, rfl⟩ := Prod.mk.inj (Except.ok.inj read)
              refine ⟨_, .token nonempty ?_, List.takeWhile_append_dropWhile.symm⟩
              intro first member
              exact List.mem_takeWhile_imp member

theorem read_part_complete {part rest : Text} {value : Value} (text : PartText part value)
    (ends : value.delimiter = .bare → EndsToken rest) :
    readPart (part ++ rest) = .ok (value, rest) := by
  cases text with
  | @braced body balanced =>
      have read : readBraced ('{' :: (body ++ '}' :: rest)) = .ok (body, rest) :=
        read_braced_iff.2 ⟨rfl, balanced⟩
      rw [List.cons_append, List.append_assoc, List.singleton_append, readPart,
        if_pos (List.head?_cons ..), read]
      rfl
  | @quoted body quotable =>
      have read : readQuoted ('"' :: (body ++ '"' :: rest)) = .ok (body, rest) :=
        read_quoted_iff.2 ⟨rfl, quotable⟩
      rw [List.cons_append, List.append_assoc, List.singleton_append, readPart,
        if_neg (by simp), if_pos (List.head?_cons ..), read]
      rfl
  | token nonempty bare =>
      have taken := take_while_exact bare (ends rfl)
      have dropped := drop_while_exact bare (ends rfl)
      have noFence : ∀ fence, isFence fence = true → (part ++ rest).head? ≠ some fence := by
        intro fence marked first
        cases part with
        | nil => exact nonempty rfl
        | cons char others =>
            have plain := not_fence_of_bare (bare char (by simp))
            rw [show char = fence from Option.some.inj first, marked] at plain
            exact absurd plain (by simp)
      rw [readPart, if_neg (noFence '{' (by decide)), if_neg (noFence '"' (by decide)), taken,
        dropped]
      cases part with
      | nil => exact absurd rfl nonempty
      | cons char others => rfl

theorem read_parts_last {text rest : Text} {value : Value}
    (first : readPart (skipBlank text) = .ok (value, rest))
    (alone : after? '#' (skipBlank rest) = none) : readParts text = .ok ([value], rest) := by
  rw [readParts]
  split
  · next failed => simp [first] at failed
  · next other last read =>
      obtain ⟨rfl, rfl⟩ := Prod.mk.inj (Except.ok.inj (first.symm.trans read))
      split
      · rfl
      · next joined => simp [alone] at joined

theorem read_parts_joined {text rest more last : Text} {value : Value} {values : List Value}
    (first : readPart (skipBlank text) = .ok (value, rest))
    (joined : after? '#' (skipBlank rest) = some more)
    (others : readParts more = .ok (values, last)) :
    readParts text = .ok (value :: values, last) := by
  rw [readParts]
  split
  · next failed => simp [first] at failed
  · next other middle read =>
      obtain ⟨rfl, rfl⟩ := Prod.mk.inj (Except.ok.inj (first.symm.trans read))
      split
      · next alone => simp [joined] at alone
      · next behind again =>
          have same : more = behind := Option.some.inj (joined.symm.trans again)
          subst same
          simp [others]

/-- Neither the last token nor the list of parts goes on here. -/
def EndsValue (rest : Text) : Prop := EndsToken rest ∧ after? '#' (skipBlank rest) = none

theorem after_cons (mark : Char) (rest : Text) : after? mark (mark :: rest) = some rest := by
  simp [after?]

theorem ends_token_cons {char : Char} (rest : Text) (ending : isBareChar char = false) :
    EndsToken (char :: rest) := by
  intro first member
  simp only [List.head?_cons, Option.mem_def, Option.some.injEq] at member
  exact member ▸ ending

theorem ends_token_gap {gap : Text} (blanks : IsGap gap) {char : Char}
    (ending : isBareChar char = false) (rest : Text) : EndsToken (gap ++ char :: rest) := by
  cases gap with
  | nil => exact ends_token_cons _ ending
  | cons first others =>
      exact ends_token_cons _ (not_bare_of_blank (blanks first (by simp)))

theorem read_parts_sound {text rest : Text} {values : List Value}
    (read : readParts text = .ok (values, rest)) :
    ∃ lead body, IsGap lead ∧ PartsText body values ∧ text = lead ++ body ++ rest := by
  fun_induction readParts text generalizing values rest with
  | case1 => simp at read
  | case2 text value last first alone =>
      obtain ⟨rfl, rfl⟩ := Prod.mk.inj (Except.ok.inj read)
      obtain ⟨lead, blanks, parts⟩ := skip_blank_split text
      obtain ⟨part, written, same⟩ := read_part_sound first
      refine ⟨lead, part, blanks, .single written, ?_⟩
      rw [List.append_assoc, ← same]
      exact parts
  | case3 => simp at read
  | case4 text value last first more joined _ values final later induction =>
      obtain ⟨rfl, rfl⟩ := Prod.mk.inj (Except.ok.inj read)
      obtain ⟨lead, leadBlanks, parts⟩ := skip_blank_split text
      obtain ⟨part, written, same⟩ := read_part_sound first
      obtain ⟨gap, gapBlanks, middle⟩ := skip_blank_split last
      obtain ⟨next, body, nextBlanks, others, tail⟩ := induction later
      refine ⟨lead, _, leadBlanks, .joined written gapBlanks nextBlanks others, ?_⟩
      rw [after_suffix joined, tail] at middle
      rw [same, middle] at parts
      rw [parts]
      simp

theorem read_parts_complete {lead text rest : Text} {values : List Value}
    (parts : PartsText text values) (blanks : IsGap lead) (ends : EndsValue rest) :
    readParts (lead ++ text ++ rest) = .ok (values, rest) := by
  induction parts generalizing lead with
  | single first =>
      apply read_parts_last _ ends.2
      rw [List.append_assoc, skip_blank_gap_solid blanks (part_starts_solid first rest)]
      exact read_part_complete first fun _ => ends.1
  | @joined part gap next more value values first before behind others induction =>
      have start : lead ++ (part ++ gap ++ '#' :: (next ++ more)) ++ rest =
          lead ++ (part ++ (gap ++ '#' :: (next ++ more ++ rest))) := by simp
      have head : readPart (skipBlank (lead ++ (part ++ (gap ++ '#' :: (next ++ more ++ rest))))) =
          .ok (value, gap ++ '#' :: (next ++ more ++ rest)) := by
        rw [skip_blank_gap_solid blanks (part_starts_solid first _)]
        exact read_part_complete first fun _ => ends_token_gap before (by decide) _
      have sign : after? '#' (skipBlank (gap ++ '#' :: (next ++ more ++ rest))) =
          some (next ++ more ++ rest) := by
        rw [skip_blank_gap_solid before (starts_solid_cons _ (by decide)), after_cons]
      rw [start]
      exact read_parts_joined head sign (induction behind)

theorem taken_append (body rest : Text) : taken (body ++ rest) rest = body := by
  simp [taken]

theorem read_value_sound {text rest : Text} {value : Value}
    (read : readValue text = .ok (value, rest)) :
    ∃ lead body, IsGap lead ∧ ValueText body value ∧ text = lead ++ body ++ rest := by
  obtain ⟨lead, blanks, start⟩ := skip_blank_split text
  simp only [readValue] at read
  split at read
  · simp at read
  · next single last parts =>
      obtain ⟨rfl, rfl⟩ := Prod.mk.inj (Except.ok.inj read)
      obtain ⟨gap, body, gapBlanks, written, same⟩ := read_parts_sound parts
      cases written with
      | single part =>
          refine ⟨lead ++ gap, body, is_gap_append blanks gapBlanks, .single part, ?_⟩
          rw [start, same]
          simp
      | joined _ _ _ others => cases others
  · next values last several parts =>
      obtain ⟨rfl, rfl⟩ := Prod.mk.inj (Except.ok.inj read)
      obtain ⟨gap, body, gapBlanks, written, same⟩ := read_parts_sound parts
      have solid : StartsSolid (gap ++ (body ++ last)) := by
        rw [← List.append_assoc, ← same]
        exact starts_solid_skip_blank text
      rw [gap_eq_nil gapBlanks solid, List.nil_append] at same
      refine ⟨lead, body, blanks, ?_, ?_⟩
      · rw [same, taken_append]
        cases written with
        | single part => exact absurd rfl (several _)
        | joined first before behind others =>
            obtain ⟨second, values, rfl⟩ := parts_values_cons others
            exact .joined (.joined first before behind others)
      · rw [List.append_assoc, ← same]
        exact start

theorem read_value_complete {lead text rest : Text} {value : Value} (valued : ValueText text value)
    (blanks : IsGap lead) (ends : EndsValue rest) :
    readValue (lead ++ text ++ rest) = .ok (value, rest) := by
  have start : skipBlank (lead ++ text ++ rest) = text ++ rest := by
    rw [List.append_assoc]
    exact skip_blank_gap_solid blanks (value_starts_solid valued rest)
  simp only [readValue, start]
  cases valued with
  | single part =>
      have read := read_parts_complete (.single part) is_gap_nil ends
      rw [List.nil_append] at read
      rw [read]
  | joined parts =>
      have read := read_parts_complete parts is_gap_nil ends
      rw [List.nil_append] at read
      simp only [read, taken_append]

end Bibliography.Source
