import Bibliography.Proofs.Latex.Spells
import Bibliography.Proofs.Layout

/-!
Spelling out a written value. A walk over the spelled text keeps track of the walk
over the text itself: inside a part both are at the same place, and outside of parts
the other walk may be in a token or behind a part. It either gets through as well or
is stuck, at a character that ends no field.
-/

namespace Bibliography.Source

open Text

namespace Spot

/-- Inside a group the level is not below zero. -/
def Grounded (spot : Spot) : Prop := ∀ level, spot.place = .braced level → 0 ≤ level

/-- The second walk stands where the first one does, or outside of parts with it. -/
def Tracks (spot other : Spot) : Prop :=
  other = spot ∧ spot.Grounded ∨
    spot.IsOutside ∧ other.several = spot.several ∧ (other.place = .token ∨ other.place = .closed)

/-- Over the text the second walk gets to where it tracks a place, or is stuck. -/
def Follows (next other : Spot) (text : Text) : Prop :=
  (∃ after, other.walk text = some after ∧ Tracks next after) ∨ other.StuckIn text

theorem follows_append {middle next other : Spot} {front back : Text}
    (first : Follows middle other front)
    (second : ∀ reached, Tracks middle reached → Follows next reached back) :
    Follows next other (front ++ back) := by
  rcases first with ⟨reached, walked, tracks⟩ | stuck
  · rcases second reached tracks with ⟨after, through, tracked⟩ | stuck
    · refine .inl ⟨after, ?_, tracked⟩
      rw [walk_append, walked]
      exact through
    · exact .inr (stuck_behind walked stuck)
  · exact .inr (stuck_append stuck back)

theorem advance_grounded {spot next : Spot} {char : Char} (grounded : spot.Grounded)
    (step : spot.advance char = some next) : next.Grounded := by
  intro level reached
  cases step_of_advance step with
  | blank outside =>
      unfold pause at reached
      split at reached
      · cases reached
      · exact grounded level reached
  | sign => cases reached
  | bare => cases reached
  | brace =>
      cases reached
      exact Int.le_refl 0
  | quote => cases reached
  | closeBrace => cases reached
  | @inBraces inner inside going =>
      have above := grounded inner inside
      have same : inner + turn char = level := by simpa [moved] using reached
      unfold turn at same
      split at same
      · omega
      · split at same
        · next closing =>
            have positive : inner ≠ 0 := fun ground => going ⟨closing, ground⟩
            omega
        · omega
  | closeQuote => cases reached
  | inQuotes => cases reached

theorem not_inside {spot : Spot} (outside : spot.IsOutside) (level : Int) :
    spot.place ≠ .braced level ∧ spot.place ≠ .quoted level := by
  rcases outside with same | same | same <;> rw [same] <;> simp

theorem stuck_head {spot : Spot} {char : Char} (blocked : spot.advance char = none)
    (noComma : char ≠ ',') (noBrace : char ≠ '}') (noParen : char ≠ ')') (rest : Text) :
    spot.StuckIn (char :: rest) :=
  ⟨[], char, rest, spot, rfl, rfl, blocked, noComma, noBrace, noParen⟩

theorem stuck_bare {several : Bool} {char : Char} (bare : isBareChar char = true) (rest : Text) :
    StuckIn ⟨.closed, several⟩ (char :: rest) := by
  have solid := ((is_bare_char_iff char).1 bare).1
  have different : ∀ mark, isMark mark = true → char ≠ mark := by
    rintro mark marked rfl
    rw [not_bare_of_mark marked] at bare
    simp at bare
  apply stuck_head
  · simp [advance, solid, different '#' (by decide)]
  · exact different ',' (by decide)
  · exact different '}' (by decide)
  · exact different ')' (by decide)

theorem tracks_char {spot other next : Spot} {char : Char} (tracks : Tracks spot other)
    (step : spot.advance char = some next) : Follows next other [char] := by
  have single : ∀ {after : Spot}, other.advance char = some after →
      other.walk [char] = some after := by
    intro after reached
    rw [walk_cons, reached]
    rfl
  rcases tracks with ⟨rfl, grounded⟩ | ⟨outside, same, ended⟩
  · exact .inl ⟨next, single step, .inl ⟨rfl, advance_grounded grounded step⟩⟩
  · rcases other with ⟨place, several⟩
    obtain rfl : several = spot.several := same
    cases step_of_advance step with
    | blank _ blank =>
        refine .inl ⟨_, single (advance_blank _ blank), .inr ⟨?_, ?_, ?_⟩⟩
        · unfold pause
          split
          · exact .inr (.inr rfl)
          · exact outside
        · unfold pause
          split <;> split <;> rfl
        · rcases ended with rfl | rfl <;> exact .inr rfl
    | sign _ sign =>
        subst sign
        have grounded : Grounded ⟨.vacant, true⟩ := by
          intro level reached
          cases reached
        refine .inl ⟨⟨.vacant, true⟩, single ?_, .inl ⟨rfl, grounded⟩⟩
        rcases ended with rfl | rfl <;> rfl
    | bare _ bare =>
        rcases ended with rfl | rfl
        · refine .inl ⟨⟨.token, spot.several⟩, single (by simp [advance, bare]), .inr ?_⟩
          exact ⟨.inr (.inl rfl), rfl, .inl rfl⟩
        · exact .inr (stuck_bare bare [])
    | brace _ brace =>
        subst brace
        refine .inr (stuck_head ?_ (by decide) (by decide) (by decide) [])
        rcases ended with rfl | rfl <;> rfl
    | quote _ quote =>
        subst quote
        refine .inr (stuck_head ?_ (by decide) (by decide) (by decide) [])
        rcases ended with rfl | rfl <;> rfl
    | closeBrace inside => exact absurd inside (not_inside outside _).1
    | inBraces inside => exact absurd inside (not_inside outside _).1
    | closeQuote inside => exact absurd inside (not_inside outside _).2
    | inQuotes inside => exact absurd inside (not_inside outside _).2

def IsQuiet (text : Text) : Prop := ∀ char ∈ text, isFence char = false ∧ char ≠ '#'

theorem advance_quiet {spot next : Spot} {char : Char} (outside : spot.IsOutside)
    (plain : isFence char = false) (noSign : char ≠ '#')
    (step : spot.advance char = some next) :
    next.IsOutside ∧ next.several = spot.several := by
  cases step_of_advance step with
  | blank =>
      unfold pause
      split
      · exact ⟨.inr (.inr rfl), rfl⟩
      · exact ⟨outside, rfl⟩
  | sign _ sign => exact absurd sign noSign
  | bare => exact ⟨.inr (.inl rfl), rfl⟩
  | brace _ brace =>
      subst brace
      exact absurd plain (by decide)
  | quote _ quote =>
      subst quote
      exact absurd plain (by decide)
  | closeBrace inside => exact absurd inside (not_inside outside _).1
  | inBraces inside => exact absurd inside (not_inside outside _).1
  | closeQuote inside => exact absurd inside (not_inside outside _).2
  | inQuotes inside => exact absurd inside (not_inside outside _).2

theorem walk_quiet {spot next : Spot} {text : Text} (outside : spot.IsOutside)
    (quiet : IsQuiet text) (walked : spot.walk text = some next) :
    next.IsOutside ∧ next.several = spot.several := by
  induction text generalizing spot with
  | nil =>
      have same := Option.some.inj walked
      subst same
      exact ⟨outside, rfl⟩
  | cons char rest induction =>
      rw [walk_cons] at walked
      rcases Option.bind_eq_some_iff.1 walked with ⟨reached, step, later⟩
      rcases quiet char (by simp) with ⟨plain, noSign⟩
      rcases advance_quiet outside plain noSign step with ⟨still, same⟩
      rcases induction still (fun other member => quiet other (by simp [member])) later with
        ⟨final, flag⟩
      exact ⟨final, flag.trans same⟩

theorem walk_within (several : Bool) {level : Int} {text : Text}
    (above : ∀ front, front <+: text → 0 ≤ level + depth front) :
    walk ⟨.braced level, several⟩ text = some ⟨.braced (level + depth text), several⟩ := by
  induction text generalizing level with
  | nil => simp [walk_nil]
  | cons char rest induction =>
      have first := above [char] (by simp)
      have going : ¬ (char = '}' ∧ level = 0) := by
        intro found
        rcases found with ⟨rfl, rfl⟩
        exact absurd first (by decide)
      have behind : ∀ front, front <+: rest → 0 ≤ level + turn char + depth front := by
        intro front short
        have longer := above (char :: front) ((List.prefix_cons_inj char).2 short)
        rw [depth_cons] at longer
        omega
      rw [walk_cons, advance]
      simp only [if_neg going, Option.bind_some]
      rw [moved, induction behind, depth_cons, Int.add_assoc]

theorem walk_unquoted (several : Bool) {level : Int} {text : Text} (noQuote : '"' ∉ text) :
    walk ⟨.quoted level, several⟩ text = some ⟨.quoted (level + depth text), several⟩ := by
  induction text generalizing level with
  | nil => simp [walk_nil]
  | cons char rest induction =>
      rcases not_or.1 (fun either => noQuote (List.mem_cons.2 either)) with ⟨different, others⟩
      have going : ¬ (char = '"' ∧ level ≤ 0) := fun closing => different closing.1.symm
      rw [walk_cons, advance]
      simp only [if_neg going, Option.bind_some]
      rw [moved, induction others, depth_cons, Int.add_assoc]

theorem walk_balanced (several : Bool) {level : Int} (above : 0 ≤ level) {text : Text}
    (balanced : Balanced text) :
    walk ⟨.braced level, several⟩ text = some ⟨.braced level, several⟩ := by
  rcases balanced with ⟨ground, fronts⟩
  have within : ∀ front, front <+: text → 0 ≤ level + depth front := by
    intro front short
    have bound := fronts front short
    omega
  rw [walk_within several within, ground, Int.add_zero]

theorem walk_group_quoted (several : Bool) (level : Int) {text : Text}
    (group : Latex.GroupText text) :
    walk ⟨.quoted level, several⟩ text = some ⟨.quoted level, several⟩ ∨
      StuckIn ⟨.quoted level, several⟩ text := by
  cases group with
  | @plain body balanced noQuote =>
      have whole : '"' ∉ '{' :: (body ++ ['}']) := by simpa using noQuote
      rw [walk_unquoted several whole, (balanced_group balanced).1, Int.add_zero]
      exact .inl rfl
  | @quoted next rest balanced bare noQuote =>
      have opening : walk ⟨.quoted level, several⟩ ['{', '\\'] =
          some ⟨.quoted (level + 1), several⟩ := by
        rw [walk_unquoted several (by decide)]
        rfl
      have parts : '{' :: '\\' :: '"' :: (next :: rest ++ ['}']) =
          ['{', '\\'] ++ '"' :: (next :: rest ++ ['}']) := rfl
      rw [parts]
      by_cases ground : level + 1 ≤ 0
      · have closing : walk ⟨.quoted (level + 1), several⟩ ['"'] =
            some ⟨.closed, several⟩ := by
          simp [walk, advance, ground, moved]
        refine .inr (stuck_behind opening ?_)
        rw [← List.singleton_append]
        exact stuck_behind closing (stuck_bare bare _)
      · have hidden : walk ⟨.quoted (level + 1), several⟩ ['"'] =
            some ⟨.quoted (level + 1), several⟩ := by
          simp [walk, advance, ground, moved, show turn '"' = 0 from rfl]
        have inner : '"' ∉ next :: rest ++ ['}'] := by
          intro member
          rcases List.mem_append.1 member with inside | last
          · exact noQuote inside
          · exact absurd last (by decide)
        refine .inl ?_
        rw [walk_append, opening, Option.bind_some, ← List.singleton_append, walk_append, hidden,
          Option.bind_some, walk_unquoted several inner, depth_append, balanced.1]
        congr 3
        rw [show depth ['}'] = -1 from rfl]
        omega

/-- Outside of parts a spelling starts or continues a token, is a part of its own, or is
out of place. -/
theorem spelling_outside {spot : Spot} (outside : spot.IsOutside) {text : Text}
    (spelling : Latex.Spelling text) :
    Completes spot text spot.several ∨ spot.StuckIn text := by
  rcases spot with ⟨place, several⟩
  rcases spelling.shape with bare | group
  · rcases outside with rfl | rfl | rfl
    · exact .inl (part_completes several (.token spelling.nonempty bare))
    · exact .inl ⟨.token, walk_token several bare, .inl rfl⟩
    · cases text with
      | nil => exact absurd rfl spelling.nonempty
      | cons char rest => exact .inr (stuck_bare (bare char (by simp)) rest)
  · rcases Latex.group_text_balanced group with ⟨body, rfl, balanced⟩
    rcases outside with rfl | rfl | rfl
    · exact .inl (part_completes several (.braced balanced))
    · exact .inr (stuck_head rfl (by decide) (by decide) (by decide) _)
    · exact .inr (stuck_head rfl (by decide) (by decide) (by decide) _)

theorem inside_of_not_outside {spot : Spot} (inside : ¬ spot.IsOutside) :
    ∃ level, spot.place = .braced level ∨ spot.place = .quoted level := by
  rcases spot with ⟨place, several⟩
  cases place with
  | vacant => exact absurd (.inl rfl) inside
  | token => exact absurd (.inr (.inl rfl)) inside
  | closed => exact absurd (.inr (.inr rfl)) inside
  | braced level => exact ⟨level, .inl rfl⟩
  | quoted level => exact ⟨level, .inr rfl⟩

theorem spelling_inside {spot : Spot} (inside : ¬ spot.IsOutside) (grounded : spot.Grounded)
    {text : Text} (spelling : Latex.Spelling text) :
    spot.walk text = some spot ∨ spot.StuckIn text := by
  rcases inside_of_not_outside inside with ⟨level, place⟩
  rcases spelling.shape with bare | group
  · exact .inl (walk_inside place fun char member => not_fence_of_bare (bare char member))
  · rcases spot with ⟨_, several⟩
    rcases place with rfl | rfl
    · rcases Latex.group_text_balanced group with ⟨body, rfl, balanced⟩
      exact .inl (walk_balanced several (grounded level rfl) (balanced_group balanced))
    · exact walk_group_quoted several level group

/-- The step over a spelling, beside the steps over the characters that it spells. -/
theorem tracks_spelling {spot other next : Spot} {consumed text : Text}
    (tracks : Tracks spot other) (quiet : IsQuiet consumed)
    (walked : spot.walk consumed = some next) (spelling : Latex.Spelling text) :
    Follows next other text := by
  by_cases outside : spot.IsOutside
  · have free : other.IsOutside ∧ other.several = spot.several := by
      rcases tracks with ⟨rfl, _⟩ | ⟨_, same, ended⟩
      · exact ⟨outside, rfl⟩
      · exact ⟨.inr ended, same⟩
    rcases walk_quiet outside quiet walked with ⟨still, flag⟩
    rcases spelling_outside free.1 spelling with completes | stuck
    · rcases completes with ⟨place, through, ended⟩
      exact .inl ⟨_, through, .inr ⟨still, free.2.trans flag.symm, ended⟩⟩
    · exact .inr stuck
  · rcases tracks with ⟨rfl, grounded⟩ | ⟨still, _⟩
    · rcases inside_of_not_outside outside with ⟨level, place⟩
      rw [walk_inside place fun char member => (quiet char member).1] at walked
      rw [← Option.some.inj walked]
      rcases spelling_inside outside grounded spelling with through | stuck
      · exact .inl ⟨other, through, .inl ⟨rfl, grounded⟩⟩
      · exact .inr stuck
    · exact absurd still outside

theorem quiet_of_far {char : Char} (far : 128 ≤ char.toNat) : IsQuiet [char] := by
  intro other member
  rw [List.mem_singleton.1 member]
  constructor
  · apply Bool.eq_false_iff.2
    intro fence
    simp only [isFence, Bool.or_eq_true, beq_iff_eq] at fence
    rcases fence with (rfl | rfl) | rfl <;> exact absurd far (by decide)
  · intro same
    subst same
    exact absurd far (by decide)

theorem quiet_of_bare {text : Text} (bare : ∀ char ∈ text, isBareChar char = true) :
    IsQuiet text := by
  intro char member
  refine ⟨not_fence_of_bare (bare char member), ?_⟩
  intro same
  subst same
  exact absurd (bare '#' member) (by decide)

theorem quiet_of_spells {rest unit spelled : Text} (spells : Latex.Spells rest unit spelled) :
    IsQuiet unit := by
  cases spells with
  | pair found =>
      have pair := Latex.spell_pair_spelled found
      apply quiet_of_bare
      intro char member
      rcases List.mem_cons.1 member with rfl | later
      · exact pair.letterBare
      · rw [List.mem_singleton.1 later]
        exact pair.nextBare
  | single _ far => exact quiet_of_far far

theorem tracks_spell_out {text : Text} {spot other next : Spot} (tracks : Tracks spot other)
    (walked : spot.walk text = some next) : Follows next other (Latex.spellOut text) := by
  induction text using Latex.spell_out_induct generalizing spot other with
  | empty =>
      have same := Option.some.inj walked
      subst same
      exact .inl ⟨other, rfl, tracks⟩
  | own char rest missing same induction =>
      rw [walk_cons] at walked
      rcases Option.bind_eq_some_iff.1 walked with ⟨middle, step, later⟩
      rw [Latex.spell_out_own missing same, ← List.singleton_append]
      apply follows_append (tracks_char tracks step)
      intro reached tracked
      exact induction tracked later
  | replaced spells induction =>
      rw [walk_append] at walked
      rcases Option.bind_eq_some_iff.1 walked with ⟨middle, first, later⟩
      rw [Latex.spell_out_spells spells]
      apply follows_append (tracks_spelling tracks (quiet_of_spells spells) first
        (Latex.spelling_of_spells spells))
      intro reached tracked
      exact induction tracked later

/-- The spelled form of a written value is one as well, or it is stuck. -/
theorem completes_spell_out {text : Text} {several : Bool}
    (completes : Completes ⟨.vacant, false⟩ text several) :
    Completes ⟨.vacant, false⟩ (Latex.spellOut text) several ∨
      StuckIn ⟨.vacant, false⟩ (Latex.spellOut text) := by
  rcases completes with ⟨place, walked, ended⟩
  have start : Tracks ⟨.vacant, false⟩ ⟨.vacant, false⟩ := by
    refine .inl ⟨rfl, ?_⟩
    intro level reached
    cases reached
  rcases tracks_spell_out start walked with ⟨after, through, tracks⟩ | stuck
  · refine .inl ⟨after.place, ?_⟩
    rcases tracks with ⟨rfl, _⟩ | ⟨_, same, last⟩
    · exact ⟨through, ended⟩
    · refine ⟨?_, last⟩
      rw [through, ← show after.several = several from same]
  · exact .inr stuck

end Spot

end Bibliography.Source
