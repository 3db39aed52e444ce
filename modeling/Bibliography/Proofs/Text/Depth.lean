import Bibliography.Text.Basic

/-!
Brace depth. A text is balanced if no front of it closes more braces than it
opens and all are closed at its end; it is quotable if each quote in it stands
inside braces and its end does not. Both are stated from a starting level, so
that they can be followed one character at a time, and both depend on braces and
quotes alone. The lowest depth of a text says at which levels it can start
without leading below the ground.
-/

namespace Bibliography.Text

def turn (char : Char) : Int := if char = '{' then 1 else if char = '}' then -1 else 0

/-- Opening braces less closing ones. -/
def depth : Text → Int
  | [] => 0
  | char :: rest => turn char + depth rest

def BalancedFrom (level : Int) (text : Text) : Prop :=
  level + depth text = 0 ∧ ∀ front, front <+: text → 0 ≤ level + depth front

def QuotableFrom (level : Int) (text : Text) : Prop :=
  level + depth text ≤ 0 ∧ ∀ front back, text = front ++ '"' :: back → 0 < level + depth front

/-- Each quote stands inside braces. -/
def EnclosedFrom (level : Int) (text : Text) : Prop :=
  ∀ front back, text = front ++ '"' :: back → 0 < level + depth front

/-- The lowest depth of any front. The empty front is at the ground. -/
def lowest : Text → Int
  | [] => 0
  | char :: rest => min 0 (turn char + lowest rest)

/-- No front closes more than it opens, and the whole closes all it opens. -/
def Balanced (text : Text) : Prop := depth text = 0 ∧ ∀ front, front <+: text → 0 ≤ depth front

/-- A quote after the text stands outside of braces, and no quote in it does. -/
def Quotable (text : Text) : Prop :=
  depth text ≤ 0 ∧ ∀ front back, text = front ++ '"' :: back → 0 < depth front

@[simp] theorem depth_nil : depth [] = 0 := rfl

@[simp] theorem depth_cons (char : Char) (rest : Text) :
    depth (char :: rest) = turn char + depth rest := rfl

@[simp] theorem depth_append (left right : Text) :
    depth (left ++ right) = depth left + depth right := by
  induction left with
  | nil => simp
  | cons char rest induction =>
      rw [List.cons_append, depth_cons, depth_cons, induction, Int.add_assoc]

@[simp] theorem turn_open : turn '{' = 1 := rfl

@[simp] theorem turn_close : turn '}' = -1 := rfl

theorem above_turn {level : Int} {char : Char} (above : 0 ≤ level)
    (inside : ¬ (char = '}' ∧ level = 0)) : 0 ≤ level + turn char := by
  unfold turn
  split
  · omega
  · split
    · next brace =>
        have positive : level ≠ 0 := fun ground => inside ⟨brace, ground⟩
        omega
    · omega

theorem balanced_iff_from (text : Text) : Balanced text ↔ BalancedFrom 0 text := by
  simp [Balanced, BalancedFrom]

theorem quotable_iff_from (text : Text) : Quotable text ↔ QuotableFrom 0 text := by
  simp [Quotable, QuotableFrom]

@[simp] theorem lowest_nil : lowest [] = 0 := rfl

@[simp] theorem lowest_cons (char : Char) (rest : Text) :
    lowest (char :: rest) = min 0 (turn char + lowest rest) := rfl

theorem lowest_attained (text : Text) : ∃ front, front <+: text ∧ depth front = lowest text := by
  induction text with
  | nil => exact ⟨[], List.nil_prefix, rfl⟩
  | cons char rest induction =>
      obtain ⟨front, short, reached⟩ := induction
      by_cases above : 0 ≤ turn char + lowest rest
      · exact ⟨[], List.nil_prefix, by rw [depth_nil, lowest_cons]; omega⟩
      · refine ⟨char :: front, (List.prefix_cons_inj char).2 short, ?_⟩
        rw [depth_cons, lowest_cons, reached]
        omega

theorem lowest_le {text front : Text} (short : front <+: text) : lowest text ≤ depth front := by
  induction text generalizing front with
  | nil =>
      rw [List.prefix_nil.1 short]
      exact Int.le_refl 0
  | cons char rest induction =>
      cases front with
      | nil =>
          rw [lowest_cons, depth_nil]
          omega
      | cons first others =>
          obtain ⟨rfl, inner⟩ := List.cons_prefix_cons.1 short
          have bound := induction inner
          rw [lowest_cons, depth_cons]
          omega

theorem lowest_append (left right : Text) :
    lowest (left ++ right) = min (lowest left) (depth left + lowest right) := by
  induction left with
  | nil =>
      have ground := lowest_le (List.nil_prefix (l := right))
      rw [depth_nil] at ground
      rw [List.nil_append, lowest_nil, depth_nil]
      omega
  | cons char rest induction =>
      rw [List.cons_append, lowest_cons, lowest_cons, depth_cons, induction]
      omega

theorem balanced_from_iff_lowest (level : Int) (text : Text) :
    BalancedFrom level text ↔ level + depth text = 0 ∧ 0 ≤ level + lowest text := by
  refine and_congr_right fun _ => ?_
  constructor
  · intro fronts
    obtain ⟨front, short, reached⟩ := lowest_attained text
    rw [← reached]
    exact fronts front short
  · intro above front short
    have bound := lowest_le short
    omega

theorem lowest_of_balanced {text : Text} (balanced : Balanced text) : lowest text = 0 := by
  have ground := lowest_le (List.nil_prefix (l := text))
  have above := ((balanced_from_iff_lowest 0 text).1 ((balanced_iff_from text).1 balanced)).2
  rw [depth_nil] at ground
  omega

theorem above_of_balanced {level : Int} {text : Text} (balanced : BalancedFrom level text) :
    0 ≤ level := by
  simpa using balanced.2 [] List.nil_prefix

theorem balanced_from_nil (level : Int) : BalancedFrom level [] ↔ level = 0 := by
  rw [balanced_from_iff_lowest, depth_nil, lowest_nil]
  omega

theorem balanced_from_cons (level : Int) (char : Char) (rest : Text) :
    BalancedFrom level (char :: rest) ↔ 0 ≤ level ∧ BalancedFrom (level + turn char) rest := by
  rw [balanced_from_iff_lowest, balanced_from_iff_lowest, depth_cons, lowest_cons]
  omega

/-- A balanced text changes nothing for what stands behind it. -/
theorem balanced_from_append {level : Int} {body : Text} (balanced : Balanced body)
    (above : 0 ≤ level) (rest : Text) :
    BalancedFrom level (body ++ rest) ↔ BalancedFrom level rest := by
  rw [balanced_from_iff_lowest, balanced_from_iff_lowest, depth_append, lowest_append, balanced.1,
    lowest_of_balanced balanced]
  omega

theorem balanced_group {body : Text} (balanced : Balanced body) :
    Balanced ('{' :: (body ++ ['}'])) := by
  have closing : BalancedFrom 1 ['}'] :=
    (balanced_from_cons 1 '}' []).2 ⟨by decide, (balanced_from_nil _).2 (by decide)⟩
  rw [balanced_iff_from]
  exact (balanced_from_cons 0 '{' _).2
    ⟨Int.le_refl 0, (balanced_from_append balanced (by decide) ['}']).2 closing⟩

theorem enclosed_from_nil (level : Int) : EnclosedFrom level [] := by
  intro front back parts
  simp at parts

theorem enclosed_from_cons (level : Int) (char : Char) (rest : Text) :
    EnclosedFrom level (char :: rest) ↔
      (char = '"' → 0 < level) ∧ EnclosedFrom (level + turn char) rest := by
  constructor
  · intro quotes
    refine ⟨?_, ?_⟩
    · intro quote
      simpa using quotes [] rest (by simp [quote])
    · intro front back parts
      have inner := quotes (char :: front) back (by rw [parts]; rfl)
      rw [depth_cons] at inner
      omega
  · intro found front back parts
    rcases found with ⟨first, quotes⟩
    cases front with
    | nil =>
        obtain ⟨quote, _⟩ := List.cons.inj parts
        simpa using first quote
    | cons head others =>
        obtain ⟨rfl, tail⟩ := List.cons.inj parts
        have inner := quotes others back tail
        rw [depth_cons]
        omega

theorem enclosed_from_append (level : Int) (left right : Text) :
    EnclosedFrom level (left ++ right) ↔
      EnclosedFrom level left ∧ EnclosedFrom (level + depth left) right := by
  induction left generalizing level with
  | nil =>
      rw [List.nil_append, depth_nil, Int.add_zero]
      exact (and_iff_right (enclosed_from_nil level)).symm
  | cons char others induction =>
      rw [List.cons_append, enclosed_from_cons, enclosed_from_cons, induction, depth_cons,
        Int.add_assoc, and_assoc]

theorem enclosed_of_no_quote (level : Int) {text : Text} (noQuote : '"' ∉ text) :
    EnclosedFrom level text := by
  rintro front back rfl
  simp at noQuote

instance enclosedFromDecidable (level : Int) : (text : Text) → Decidable (EnclosedFrom level text)
  | [] => isTrue (enclosed_from_nil level)
  | char :: rest =>
      have := enclosedFromDecidable (level + turn char) rest
      decidable_of_iff _ (enclosed_from_cons level char rest).symm

theorem quotable_from_iff_enclosed (level : Int) (text : Text) :
    QuotableFrom level text ↔ level + depth text ≤ 0 ∧ EnclosedFrom level text := Iff.rfl

theorem quotable_from_nil (level : Int) : QuotableFrom level [] ↔ level ≤ 0 := by
  rw [quotable_from_iff_enclosed, depth_nil, Int.add_zero]
  exact and_iff_left (enclosed_from_nil level)

theorem quotable_from_cons (level : Int) (char : Char) (rest : Text) :
    QuotableFrom level (char :: rest) ↔
      (char = '"' → 0 < level) ∧ QuotableFrom (level + turn char) rest := by
  rw [quotable_from_iff_enclosed, quotable_from_iff_enclosed, enclosed_from_cons, depth_cons,
    Int.add_assoc]
  exact and_left_comm

/-- The characters that decide where groups and quoted strings end. -/
def isFence (char : Char) : Bool := char == '{' || char == '}' || char == '"'

def fences (text : Text) : Text := text.filter isFence

theorem turn_of_no_fence {char : Char} (plain : isFence char = false) : turn char = 0 := by
  simp only [isFence, Bool.or_eq_false_iff, beq_eq_false_iff_ne] at plain
  simp [turn, plain]

theorem balanced_from_fences (level : Int) (text : Text) (start : 0 ≤ level) :
    BalancedFrom level (fences text) ↔ BalancedFrom level text := by
  induction text generalizing level with
  | nil => rfl
  | cons char rest induction =>
      cases fence : isFence char with
      | true =>
          rw [fences, List.filter_cons_of_pos fence, balanced_from_cons, balanced_from_cons]
          by_cases next : 0 ≤ level + turn char
          · rw [← fences, induction _ next]
          · exact ⟨fun both => (next (above_of_balanced both.2)).elim,
              fun both => (next (above_of_balanced both.2)).elim⟩
      | false =>
          rw [fences, List.filter_cons_of_neg (by simp [fence]), balanced_from_cons,
            turn_of_no_fence fence, Int.add_zero, ← fences, induction _ start]
          exact ⟨fun balanced => ⟨start, balanced⟩, fun both => both.2⟩

theorem quotable_from_fences (level : Int) (text : Text) :
    QuotableFrom level (fences text) ↔ QuotableFrom level text := by
  induction text generalizing level with
  | nil => rfl
  | cons char rest induction =>
      cases fence : isFence char with
      | true =>
          rw [fences, List.filter_cons_of_pos fence, quotable_from_cons, quotable_from_cons,
            ← fences, induction]
      | false =>
          rw [fences, List.filter_cons_of_neg (by simp [fence]), quotable_from_cons,
            turn_of_no_fence fence, Int.add_zero, ← fences, induction]
          have noQuote : char ≠ '"' := by
            intro same
            rw [same] at fence
            exact absurd fence (by decide)
          simp [noQuote]

theorem balanced_of_same_fences {left right : Text} (same : fences left = fences right)
    (balanced : Balanced left) : Balanced right := by
  rw [balanced_iff_from, ← balanced_from_fences 0 _ (Int.le_refl 0)] at balanced ⊢
  rw [← same]
  exact balanced

theorem quotable_of_same_fences {left right : Text} (same : fences left = fences right)
    (quotable : Quotable left) : Quotable right := by
  rw [quotable_iff_from, ← quotable_from_fences] at quotable ⊢
  rw [← same]
  exact quotable

theorem fences_append (left right : Text) : fences (left ++ right) = fences left ++ fences right :=
  List.filter_append ..

theorem fences_cons (char : Char) (rest : Text) :
    fences (char :: rest) = fences [char] ++ fences rest :=
  fences_append [char] rest

theorem fences_eq_nil {text : Text} (plain : ∀ char ∈ text, isFence char = false) :
    fences text = [] := by
  apply List.filter_eq_nil_iff.2
  intro char member
  simp [plain char member]

end Bibliography.Text
