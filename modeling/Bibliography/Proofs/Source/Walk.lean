import Bibliography.Proofs.Source.Entries

/-!
A walk over a written value, one character at a time, that only remembers where in
the value it is. It gets through exactly the written values with gaps around them,
so a change of a text that leaves its walks alone keeps written values written.
Where a walk gets stuck, the readers stop too.
-/

namespace Bibliography.Source

open Text

/-- Before a part, in a bare token, behind a part, or inside a part that was opened. -/
inductive Place
  | vacant
  | token
  | closed
  | braced (level : Int)
  | quoted (level : Int)
  deriving DecidableEq

/-- A place in a value, and whether a number sign has been passed. -/
structure Spot where
  place : Place
  several : Bool
  deriving DecidableEq

namespace Spot

def moved (spot : Spot) (place : Place) : Spot := { spot with place }

/-- The step over one character; there is none where the grammar allows none. -/
def advance (spot : Spot) (char : Char) : Option Spot :=
  match spot.place with
  | .braced level =>
      if char = '}' ∧ level = 0 then some (spot.moved .closed)
      else some (spot.moved (.braced (level + turn char)))
  | .quoted level =>
      if char = '"' ∧ level ≤ 0 then some (spot.moved .closed)
      else some (spot.moved (.quoted (level + turn char)))
  | .vacant =>
      if isBlank char then some spot
      else if char = '{' then some (spot.moved (.braced 0))
      else if char = '"' then some (spot.moved (.quoted 0))
      else if isBareChar char then some (spot.moved .token)
      else none
  | .token =>
      if isBareChar char then some spot
      else if isBlank char then some (spot.moved .closed)
      else if char = '#' then some ⟨.vacant, true⟩
      else none
  | .closed =>
      if isBlank char then some spot
      else if char = '#' then some ⟨.vacant, true⟩
      else none

def walk (spot : Spot) : Text → Option Spot
  | [] => some spot
  | char :: rest => (spot.advance char).bind fun next => next.walk rest

theorem walk_nil (spot : Spot) : spot.walk [] = some spot := rfl

theorem walk_cons (spot : Spot) (char : Char) (rest : Text) :
    spot.walk (char :: rest) = (spot.advance char).bind fun next => next.walk rest := rfl

theorem walk_append (spot : Spot) (front back : Text) :
    spot.walk (front ++ back) = (spot.walk front).bind fun next => next.walk back := by
  induction front generalizing spot with
  | nil => rfl
  | cons char rest induction =>
      rw [List.cons_append, walk_cons, walk_cons]
      cases spot.advance char with
      | none => rfl
      | some next => exact induction next

def IsOutside (spot : Spot) : Prop :=
  spot.place = .vacant ∨ spot.place = .token ∨ spot.place = .closed

/-- A blank ends a token and changes nothing anywhere else. -/
def pause (spot : Spot) : Spot := if spot.place = .token then spot.moved .closed else spot

inductive Step (spot : Spot) (char : Char) : Spot → Prop
  | blank (outside : spot.IsOutside) (blank : isBlank char = true) : Step spot char spot.pause
  | sign (ended : spot.place = .token ∨ spot.place = .closed) (sign : char = '#') :
      Step spot char ⟨.vacant, true⟩
  | bare (free : spot.place = .vacant ∨ spot.place = .token) (bare : isBareChar char = true) :
      Step spot char (spot.moved .token)
  | brace (free : spot.place = .vacant) (brace : char = '{') :
      Step spot char (spot.moved (.braced 0))
  | quote (free : spot.place = .vacant) (quote : char = '"') :
      Step spot char (spot.moved (.quoted 0))
  | closeBrace (inside : spot.place = .braced 0) (closing : char = '}') :
      Step spot char (spot.moved .closed)
  | inBraces {level : Int} (inside : spot.place = .braced level)
      (going : ¬ (char = '}' ∧ level = 0)) :
      Step spot char (spot.moved (.braced (level + turn char)))
  | closeQuote {level : Int} (inside : spot.place = .quoted level) (ground : level ≤ 0)
      (closing : char = '"') : Step spot char (spot.moved .closed)
  | inQuotes {level : Int} (inside : spot.place = .quoted level)
      (going : ¬ (char = '"' ∧ level ≤ 0)) :
      Step spot char (spot.moved (.quoted (level + turn char)))

theorem step_of_advance {spot next : Spot} {char : Char} (step : spot.advance char = some next) :
    Step spot char next := by
  rcases spot with ⟨place, several⟩
  cases place with
  | vacant =>
      simp only [advance] at step
      split at step
      · next blank => exact Option.some.inj step ▸ .blank (.inl rfl) blank
      · split at step
        · next brace => exact Option.some.inj step ▸ .brace rfl brace
        · split at step
          · next quote => exact Option.some.inj step ▸ .quote rfl quote
          · split at step
            · next bare => exact Option.some.inj step ▸ .bare (.inl rfl) bare
            · simp at step
  | token =>
      simp only [advance] at step
      split at step
      · next bare => exact Option.some.inj step ▸ .bare (.inr rfl) bare
      · split at step
        · next blank => exact Option.some.inj step ▸ .blank (.inr (.inl rfl)) blank
        · split at step
          · next sign => exact Option.some.inj step ▸ .sign (.inl rfl) sign
          · simp at step
  | closed =>
      simp only [advance] at step
      split at step
      · next blank => exact Option.some.inj step ▸ .blank (.inr (.inr rfl)) blank
      · split at step
        · next sign => exact Option.some.inj step ▸ .sign (.inr rfl) sign
        · simp at step
  | braced level =>
      simp only [advance] at step
      split at step
      · next closing =>
          obtain ⟨brace, rfl⟩ := closing
          exact Option.some.inj step ▸ .closeBrace rfl brace
      · next going => exact Option.some.inj step ▸ .inBraces rfl going
  | quoted level =>
      simp only [advance] at step
      split at step
      · next closing => exact Option.some.inj step ▸ .closeQuote rfl closing.2 closing.1
      · next going => exact Option.some.inj step ▸ .inQuotes rfl going

theorem not_fence_of_blank {char : Char} (blank : isBlank char = true) : isFence char = false := by
  apply Bool.eq_false_iff.2
  intro fence
  simp only [isFence, Bool.or_eq_true, beq_iff_eq] at fence
  rcases fence with (rfl | rfl) | rfl <;> exact absurd blank (by decide)

theorem advance_inside {spot : Spot} {level : Int}
    (inside : spot.place = .braced level ∨ spot.place = .quoted level) {char : Char}
    (plain : isFence char = false) : spot.advance char = some spot := by
  have straight := turn_of_no_fence plain
  have different : char ≠ '}' ∧ char ≠ '"' := by
    constructor <;> rintro rfl <;> exact absurd plain (by decide)
  obtain ⟨place, several⟩ := spot
  rcases inside with rfl | rfl
  · simp [advance, different, straight, moved]
  · simp [advance, different, straight, moved]

theorem advance_blank (spot : Spot) {char : Char} (blank : isBlank char = true) :
    spot.advance char = some spot.pause := by
  obtain ⟨place, several⟩ := spot
  have plain := not_fence_of_blank blank
  cases place with
  | vacant => simp [advance, pause, blank]
  | token => simp [advance, pause, blank, not_bare_of_blank blank]
  | closed => simp [advance, pause, blank]
  | braced level => exact advance_inside (.inl rfl) plain
  | quoted level => exact advance_inside (.inr rfl) plain

theorem pause_pause (spot : Spot) : spot.pause.pause = spot.pause := by
  obtain ⟨place, several⟩ := spot
  cases place <;> rfl

theorem walk_gap (spot : Spot) {gap : Text} (blanks : IsGap gap) (nonempty : gap ≠ []) :
    spot.walk gap = some spot.pause := by
  induction gap generalizing spot with
  | nil => exact absurd rfl nonempty
  | cons char rest induction =>
      obtain ⟨blank, others⟩ := is_gap_cons.1 blanks
      rw [walk_cons, advance_blank spot blank, Option.bind_some]
      by_cases last : rest = []
      · rw [last, walk_nil]
      · rw [induction _ others last, pause_pause]

theorem walk_inside {spot : Spot} {level : Int}
    (inside : spot.place = .braced level ∨ spot.place = .quoted level) {text : Text}
    (plain : ∀ char ∈ text, isFence char = false) : spot.walk text = some spot := by
  induction text with
  | nil => rfl
  | cons char rest induction =>
      rw [walk_cons, advance_inside inside (plain char (by simp)), Option.bind_some]
      exact induction fun other member => plain other (by simp [member])

theorem walk_token (several : Bool) {token : Text}
    (bare : ∀ char ∈ token, isBareChar char = true) :
    walk ⟨.token, several⟩ token = some ⟨.token, several⟩ := by
  induction token with
  | nil => rfl
  | cons char rest induction =>
      have step : advance ⟨.token, several⟩ char = some ⟨.token, several⟩ := by
        simp [advance, bare char (by simp)]
      rw [walk_cons, step, Option.bind_some]
      exact induction fun other member => bare other (by simp [member])

theorem walk_group (several : Bool) {level : Int} {body : Text} (balanced : BalancedFrom level body)
    (rest : Text) :
    walk ⟨.braced level, several⟩ (body ++ '}' :: rest) = walk ⟨.closed, several⟩ rest := by
  induction body generalizing level with
  | nil =>
      have same := (balanced_from_nil level).1 balanced
      subst same
      rfl
  | cons char others induction =>
      obtain ⟨above, inner⟩ := (balanced_from_cons level char others).1 balanced
      have going : ¬ (char = '}' ∧ level = 0) := by
        intro found
        rcases found with ⟨rfl, rfl⟩
        have below := above_of_balanced inner
        exact absurd below (by decide)
      rw [List.cons_append, walk_cons, advance]
      simp only [if_neg going, Option.bind_some]
      exact induction inner

theorem walk_quote (several : Bool) {level : Int} {body : Text} (quotable : QuotableFrom level body)
    (rest : Text) :
    walk ⟨.quoted level, several⟩ (body ++ '"' :: rest) = walk ⟨.closed, several⟩ rest := by
  induction body generalizing level with
  | nil =>
      have ground := (quotable_from_nil level).1 quotable
      simp [walk_cons, advance, ground, moved]
  | cons char others induction =>
      obtain ⟨hidden, inner⟩ := (quotable_from_cons level char others).1 quotable
      have going : ¬ (char = '"' ∧ level ≤ 0) := by
        intro found
        rcases found with ⟨quote, ground⟩
        have deep := hidden quote
        omega
      rw [List.cons_append, walk_cons, advance]
      simp only [if_neg going, Option.bind_some]
      exact induction inner

/-- The walk gets through the text and a value may end there. -/
def Completes (spot : Spot) (text : Text) (several : Bool) : Prop :=
  ∃ place, spot.walk text = some ⟨place, several⟩ ∧ (place = .token ∨ place = .closed)

theorem completes_append {spot next : Spot} {front : Text} (first : spot.walk front = some next)
    (back : Text) (several : Bool) :
    spot.Completes (front ++ back) several ↔ next.Completes back several := by
  unfold Completes
  rw [walk_append, first, Option.bind_some]

theorem group_of_completes {level : Int} (above : 0 ≤ level) {several last : Bool} {text : Text}
    (completes : Completes ⟨.braced level, several⟩ text last) :
    ∃ body rest, text = body ++ '}' :: rest ∧ BalancedFrom level body ∧
      Completes ⟨.closed, several⟩ rest last := by
  induction text generalizing level with
  | nil =>
      obtain ⟨place, walked, ended⟩ := completes
      have same := congrArg Spot.place (Option.some.inj walked)
      rcases ended with rfl | rfl <;> cases same
  | cons char rest induction =>
      obtain ⟨place, walked, ended⟩ := completes
      rw [walk_cons, advance] at walked
      by_cases closing : char = '}' ∧ level = 0
      · obtain ⟨rfl, rfl⟩ := closing
        exact ⟨[], rest, rfl, (balanced_from_nil 0).2 rfl, place, walked, ended⟩
      · simp only [if_neg closing, Option.bind_some] at walked
        have next : 0 ≤ level + turn char := by
          unfold turn
          split
          · omega
          · split
            · next brace =>
                have positive : level ≠ 0 := fun ground => closing ⟨brace, ground⟩
                omega
            · omega
        obtain ⟨body, tail, parts, balanced, behind⟩ := induction next ⟨place, walked, ended⟩
        exact ⟨char :: body, tail, by rw [parts]; rfl,
          (balanced_from_cons level char body).2 ⟨above, balanced⟩, behind⟩

theorem quote_of_completes {level : Int} {several last : Bool} {text : Text}
    (completes : Completes ⟨.quoted level, several⟩ text last) :
    ∃ body rest, text = body ++ '"' :: rest ∧ QuotableFrom level body ∧
      Completes ⟨.closed, several⟩ rest last := by
  induction text generalizing level with
  | nil =>
      obtain ⟨place, walked, ended⟩ := completes
      have same := congrArg Spot.place (Option.some.inj walked)
      rcases ended with rfl | rfl <;> cases same
  | cons char rest induction =>
      obtain ⟨place, walked, ended⟩ := completes
      rw [walk_cons, advance] at walked
      by_cases closing : char = '"' ∧ level ≤ 0
      · simp only [if_pos closing, Option.bind_some] at walked
        obtain ⟨rfl, ground⟩ := closing
        exact ⟨[], rest, rfl, (quotable_from_nil level).2 ground, place, walked, ended⟩
      · simp only [if_neg closing, Option.bind_some] at walked
        obtain ⟨body, tail, parts, quotable, behind⟩ := induction ⟨place, walked, ended⟩
        refine ⟨char :: body, tail, by rw [parts]; rfl, ?_, behind⟩
        refine (quotable_from_cons level char body).2 ⟨?_, quotable⟩
        intro quote
        have deep : ¬ level ≤ 0 := fun ground => closing ⟨quote, ground⟩
        omega

theorem token_of_completes {several last : Bool} {text : Text}
    (completes : Completes ⟨.token, several⟩ text last) :
    ∃ token rest, text = token ++ rest ∧ (∀ char ∈ token, isBareChar char = true) ∧
      Completes ⟨.closed, several⟩ rest last := by
  induction text with
  | nil =>
      obtain ⟨place, walked, _⟩ := completes
      obtain rfl : several = last := congrArg Spot.several (Option.some.inj walked)
      exact ⟨[], [], rfl, by simp, .closed, rfl, .inr rfl⟩
  | cons char rest induction =>
      by_cases bare : isBareChar char = true
      · have step : walk ⟨.token, several⟩ [char] = some ⟨.token, several⟩ :=
          walk_token several (by simpa using bare)
        obtain ⟨token, tail, parts, chars, behind⟩ :=
          induction ((completes_append step rest last).1 completes)
        refine ⟨char :: token, tail, by rw [parts]; rfl, ?_, behind⟩
        intro other member
        rcases List.mem_cons.1 member with rfl | later
        · exact bare
        · exact chars other later
      · -- What ends a token is taken alike behind any other part.
        have alike : walk ⟨.closed, several⟩ (char :: rest) =
            walk ⟨.token, several⟩ (char :: rest) := by
          simp only [walk_cons, advance, if_neg bare, moved]
        refine ⟨[], char :: rest, rfl, by simp, ?_⟩
        unfold Completes
        rw [alike]
        exact completes

theorem part_of_completes {several last : Bool} {text : Text}
    (completes : Completes ⟨.vacant, several⟩ text last) (solid : StartsSolid text) :
    ∃ part value rest, text = part ++ rest ∧ PartText part value ∧
      Completes ⟨.closed, several⟩ rest last := by
  cases text with
  | nil =>
      obtain ⟨place, walked, ended⟩ := completes
      have same := congrArg Spot.place (Option.some.inj walked)
      rcases ended with rfl | rfl <;> cases same
  | cons char rest =>
      have noBlank : ¬ isBlank char = true := by
        rw [solid char (by simp)]
        simp
      obtain ⟨place, walked, ended⟩ := completes
      rw [walk_cons, advance] at walked
      simp only [if_neg noBlank] at walked
      by_cases brace : char = '{'
      · subst brace
        obtain ⟨body, tail, parts, balanced, behind⟩ :=
          group_of_completes (Int.le_refl 0) ⟨place, walked, ended⟩
        exact ⟨_, _, tail, by rw [parts]; simp, .braced ((balanced_iff_from body).2 balanced),
          behind⟩
      · rw [if_neg brace] at walked
        by_cases quote : char = '"'
        · subst quote
          obtain ⟨body, tail, parts, quotable, behind⟩ := quote_of_completes ⟨place, walked, ended⟩
          exact ⟨_, _, tail, by rw [parts]; simp, .quoted ((quotable_iff_from body).2 quotable),
            behind⟩
        · rw [if_neg quote] at walked
          by_cases bare : isBareChar char = true
          · rw [if_pos bare] at walked
            obtain ⟨token, tail, parts, chars, behind⟩ := token_of_completes ⟨place, walked, ended⟩
            refine ⟨char :: token, _, tail, by rw [parts]; rfl, .token (by simp) ?_, behind⟩
            intro other member
            rcases List.mem_cons.1 member with rfl | later
            · exact bare
            · exact chars other later
          · rw [if_neg bare] at walked
            simp at walked

/-- Behind a part stand only a gap, or a gap, a number sign and more. -/
theorem rest_of_completes {several last : Bool} {text : Text}
    (completes : Completes ⟨.closed, several⟩ text last) :
    (IsGap text ∧ last = several) ∨ ∃ gap rest, IsGap gap ∧ text = gap ++ '#' :: rest ∧
      Completes ⟨.vacant, true⟩ rest last := by
  induction text with
  | nil =>
      obtain ⟨place, walked, _⟩ := completes
      exact .inl ⟨is_gap_nil, (congrArg Spot.several (Option.some.inj walked)).symm⟩
  | cons char rest induction =>
      by_cases blank : isBlank char = true
      · have step : walk ⟨.closed, several⟩ [char] = some ⟨.closed, several⟩ :=
          walk_gap _ (is_gap_cons.2 ⟨blank, is_gap_nil⟩) (by simp)
        rcases induction ((completes_append step rest last).1 completes) with ⟨gap, same⟩ | found
        · exact .inl ⟨is_gap_cons.2 ⟨blank, gap⟩, same⟩
        · obtain ⟨gap, tail, blanks, parts, behind⟩ := found
          exact .inr ⟨char :: gap, tail, is_gap_cons.2 ⟨blank, blanks⟩, by rw [parts]; rfl, behind⟩
      · obtain ⟨place, walked, ended⟩ := completes
        rw [walk_cons, advance] at walked
        simp only [if_neg blank] at walked
        by_cases sign : char = '#'
        · subst sign
          exact .inr ⟨[], rest, is_gap_nil, rfl, place, walked, ended⟩
        · rw [if_neg sign] at walked
          simp at walked

theorem walk_lead (several : Bool) {lead : Text} (blanks : IsGap lead) :
    walk ⟨.vacant, several⟩ lead = some ⟨.vacant, several⟩ := by
  cases lead with
  | nil => rfl
  | cons char rest => exact walk_gap _ blanks (by simp)

theorem parts_of_completes {several last : Bool} {text : Text}
    (completes : Completes ⟨.vacant, several⟩ text last) :
    ∃ lead body gap values, text = lead ++ body ++ gap ∧ IsGap lead ∧ IsGap gap ∧
      PartsText body values ∧ last = (several || decide (1 < values.length)) := by
  obtain ⟨lead, leadBlanks, start⟩ := skip_blank_split text
  rw [start, completes_append (walk_lead several leadBlanks)] at completes
  obtain ⟨part, value, rest, parts, written, behind⟩ :=
    part_of_completes completes (starts_solid_skip_blank text)
  rw [parts] at start
  rcases rest_of_completes behind with ⟨gap, same⟩ | ⟨gap, more, blanks, sign, others⟩
  · exact ⟨lead, part, rest, [value], by rw [start]; simp, leadBlanks, gap, .single written,
      by simp [same]⟩
  · have shorter : more.length < text.length := by
      rw [start, sign]
      simp
      omega
    obtain ⟨next, body, final, values, tail, nextBlanks, finalBlanks, joined, count⟩ :=
      parts_of_completes others
    have positive : values ≠ [] := by
      obtain ⟨first, second, rfl⟩ := parts_values_cons joined
      simp
    refine ⟨lead, _, final, value :: values, ?_, leadBlanks, finalBlanks,
      .joined written blanks nextBlanks joined, ?_⟩
    · rw [start, sign, tail]
      simp
    · rw [count]
      simp [List.length_pos_iff, positive]
termination_by text.length

theorem part_completes (several : Bool) {part : Text} {value : Value}
    (text : PartText part value) : Completes ⟨.vacant, several⟩ part several := by
  cases text with
  | braced balanced =>
      exact ⟨.closed, walk_group several ((balanced_iff_from _).1 balanced) [], .inr rfl⟩
  | quoted quotable =>
      exact ⟨.closed, walk_quote several ((quotable_iff_from _).1 quotable) [], .inr rfl⟩
  | token nonempty bare =>
      cases part with
      | nil => exact absurd rfl nonempty
      | cons char rest =>
          have first := bare char (by simp)
          have solid := ((is_bare_char_iff char).1 first).1
          have plain := not_fence_of_bare first
          have noFence : char ≠ '{' ∧ char ≠ '"' := by
            constructor <;> rintro rfl <;> exact absurd plain (by decide)
          have step : advance ⟨.vacant, several⟩ char = some ⟨.token, several⟩ := by
            simp [advance, solid, noFence, first, moved]
          refine ⟨.token, ?_, .inl rfl⟩
          rw [walk_cons, step, Option.bind_some]
          exact walk_token several fun other member => bare other (by simp [member])

theorem walk_sign {place : Place} (ended : place = .token ∨ place = .closed) (several : Bool)
    {gap : Text} (blanks : IsGap gap) :
    walk ⟨place, several⟩ (gap ++ ['#']) = some ⟨.vacant, true⟩ := by
  have sign : ∀ other, other = .token ∨ other = .closed →
      walk ⟨other, several⟩ ['#'] = some ⟨.vacant, true⟩ := by
    rintro other (rfl | rfl) <;> rfl
  cases gap with
  | nil => exact sign place ended
  | cons char rest =>
      rw [walk_append, walk_gap _ blanks (by simp), Option.bind_some]
      rcases ended with rfl | rfl
      · exact sign .closed (.inr rfl)
      · exact sign .closed (.inr rfl)

theorem parts_complete (several : Bool) {text : Text} {values : List Value}
    (parts : PartsText text values) :
    Completes ⟨.vacant, several⟩ text (several || decide (1 < values.length)) := by
  induction parts generalizing several with
  | single first => simpa using part_completes several first
  | @joined part gap lead more value values first before behind others induction =>
      obtain ⟨place, walked, ended⟩ := part_completes several first
      have positive : 0 < values.length := by
        obtain ⟨second, rest, rfl⟩ := parts_values_cons others
        simp
      have split : part ++ gap ++ '#' :: (lead ++ more) =
          part ++ ((gap ++ ['#']) ++ (lead ++ more)) := by simp
      rw [split, completes_append walked, completes_append (walk_sign ended several before),
        completes_append (walk_lead true behind)]
      simpa [positive] using induction true

theorem gaps_complete (several : Bool) {lead text gap : Text} {values : List Value}
    (parts : PartsText text values) (before : IsGap lead) (behind : IsGap gap) :
    Completes ⟨.vacant, several⟩ (lead ++ text ++ gap)
      (several || decide (1 < values.length)) := by
  obtain ⟨place, walked, ended⟩ := parts_complete several parts
  rw [List.append_assoc, completes_append (walk_lead several before), completes_append walked]
  cases gap with
  | nil => exact ⟨place, rfl, ended⟩
  | cons char rest =>
      refine ⟨.closed, ?_, .inr rfl⟩
      rw [walk_gap _ behind (by simp)]
      rcases ended with rfl | rfl <;> rfl

theorem value_of_completes {text : Text} {last : Bool}
    (completes : Completes ⟨.vacant, false⟩ text last) :
    ∃ value, ValueText (trim text) value ∧ (last = true → value = ⟨trim text, .bare⟩) := by
  obtain ⟨lead, body, gap, values, same, leadBlanks, gapBlanks, parts, count⟩ :=
    parts_of_completes completes
  have starts := parts_start_solid parts []
  rw [List.append_nil] at starts
  rw [same, trim_gaps leadBlanks gapBlanks starts (parts_end_solid parts)]
  rw [Bool.false_or] at count
  cases parts with
  | single part => exact ⟨_, .single part, by simp [count]⟩
  | joined first before behind others =>
      obtain ⟨second, rest, rfl⟩ := parts_values_cons others
      exact ⟨_, .joined (.joined first before behind others), fun _ => rfl⟩

/-- The walk stops in the text, at a character that ends no field either. -/
def StuckIn (spot : Spot) (text : Text) : Prop :=
  ∃ front char back stop, text = front ++ char :: back ∧ spot.walk front = some stop ∧
    stop.advance char = none ∧ char ≠ ',' ∧ char ≠ '}' ∧ char ≠ ')'

theorem stuck_append {spot : Spot} {front : Text} (stuck : spot.StuckIn front) (back : Text) :
    spot.StuckIn (front ++ back) := by
  rcases stuck with ⟨before, char, behind, stop, parts, walked, blocked⟩
  exact ⟨before, char, behind ++ back, stop, by rw [parts]; simp, walked, blocked⟩

theorem stuck_behind {spot next : Spot} {front back : Text} (first : spot.walk front = some next)
    (stuck : next.StuckIn back) : spot.StuckIn (front ++ back) := by
  rcases stuck with ⟨before, char, behind, stop, parts, walked, blocked⟩
  refine ⟨front ++ before, char, behind, stop, by rw [parts]; simp, ?_, blocked⟩
  rw [walk_append, first]
  exact walked

theorem not_stuck_of_completes {spot : Spot} {text : Text} {last : Bool}
    (completes : spot.Completes text last) : ¬ spot.StuckIn text := by
  intro found
  rcases found with ⟨front, char, back, stop, rfl, walked, blocked, _⟩
  rcases completes with ⟨place, through, _⟩
  rw [walk_append, walked, Option.bind_some, walk_cons, blocked] at through
  simp at through

end Spot

theorem advance_separator {place : Place} (ended : place = .token ∨ place = .closed)
    (several : Bool) {enclosure : Enclosure} {char : Char}
    (allowed : char ∈ [',', enclosure.closer]) : Spot.advance ⟨place, several⟩ char = none := by
  rcases ended with rfl | rfl <;> cases enclosure <;>
    simp only [Enclosure.closer, List.mem_cons, List.not_mem_nil, or_false] at allowed <;>
    rcases allowed with rfl | rfl <;> rfl

/-- No value with a separator behind it is read where the walk gets stuck. -/
theorem stuck_not_read {text tail context rest last : Text} {value : Value} {separator : Char}
    {enclosure : Enclosure} (stuck : Spot.StuckIn ⟨.vacant, false⟩ text)
    (read : readValue (text ++ tail) = .ok (value, rest)) :
    expect [',', enclosure.closer] context rest ≠ .ok (separator, last) := by
  intro separated
  obtain ⟨front, char, back, spot, parts, walked, blocked, noComma, noBrace, noParen⟩ := stuck
  obtain ⟨lead, body, leadBlanks, valued, written⟩ := read_value_sound read
  obtain ⟨gap, gapBlanks, ending, allowed⟩ := expect_sound separated
  obtain ⟨values, listed⟩ := value_text_parts valued
  obtain ⟨place, through, ended⟩ := Spot.gaps_complete false listed leadBlanks gapBlanks
  have different : char ≠ separator := by
    intro same
    subst same
    cases enclosure <;>
      simp only [Enclosure.closer, List.mem_cons, List.not_mem_nil, or_false] at allowed
    · exact allowed.elim noComma noBrace
    · exact allowed.elim noComma noParen
  have whole : front ++ char :: (back ++ tail) = (lead ++ body ++ gap) ++ separator :: last := by
    rw [ending] at written
    rw [← List.cons_append, ← List.append_assoc, ← parts, written]
    simp
  rcases List.append_eq_append_iff.1 whole with ⟨more, longer, same⟩ | ⟨more, longer, same⟩
  · cases more with
    | nil => exact different (List.cons.inj same).1
    | cons first others =>
        obtain ⟨rfl, _⟩ := List.cons.inj same
        rw [longer, Spot.walk_append, walked, Option.bind_some, Spot.walk_cons, blocked] at through
        simp at through
  · cases more with
    | nil => exact different (List.cons.inj same).1.symm
    | cons first others =>
        obtain ⟨rfl, _⟩ := List.cons.inj same
        rw [longer, Spot.walk_append, through, Option.bind_some, Spot.walk_cons,
          advance_separator ended _ allowed] at walked
        simp at walked

end Bibliography.Source
