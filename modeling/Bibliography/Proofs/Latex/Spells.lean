import Bibliography.Proofs.Latex.Pass
import Bibliography.Proofs.Source.Values
import Bibliography.Text.Number

/-!
What is spelled. A spelling is a word of bare characters or a balanced group, and it
holds no blank and no digit. A spelled text is made of spellings and of characters that
are spelled as themselves.
-/

namespace Bibliography.Latex

open Text

/-- A group that is balanced. A quote in it stands behind its brace and a backslash, and
before a bare character. -/
inductive GroupText : Text → Prop
  | plain {body : Text} (balanced : Balanced body) (noQuote : '"' ∉ body) :
      GroupText ('{' :: (body ++ ['}']))
  | quoted {next : Char} {rest : Text} (balanced : Balanced (next :: rest))
      (bare : Source.isBareChar next = true) (noQuote : '"' ∉ next :: rest) :
      GroupText ('{' :: '\\' :: '"' :: (next :: rest ++ ['}']))

theorem group_text_balanced {text : Text} (group : GroupText text) :
    ∃ body, text = '{' :: (body ++ ['}']) ∧ Balanced body := by
  cases group with
  | @plain body balanced _ => exact ⟨body, rfl, balanced⟩
  | @quoted next rest balanced =>
      refine ⟨'\\' :: '"' :: next :: rest, rfl, ?_⟩
      rw [balanced_iff_from] at balanced ⊢
      exact (balanced_from_cons 0 '\\' _).2 ⟨Int.le_refl 0,
        (balanced_from_cons 0 '"' _).2 ⟨Int.le_refl 0, balanced⟩⟩

structure Spelling (text : Text) : Prop where
  nonempty : text ≠ []
  solid : ∀ char ∈ text, isBlank char = false
  noDigit : ∀ char ∈ text, isDigit char = false
  shape : (∀ char ∈ text, Source.isBareChar char = true) ∨ GroupText text

def closes (inner : Text) : Bool :=
  Source.cutGroup 1 inner == some (inner.dropLast, []) && !inner.contains '"'

def isGroup : Text → Bool
  | '{' :: '\\' :: '"' :: next :: inner => Source.isBareChar next && closes (next :: inner)
  | '{' :: inner => closes inner
  | _ => false

def isSpelling (text : Text) : Bool :=
  !text.isEmpty && (text.all fun char => !isBlank char && !isDigit char) &&
    (text.all Source.isBareChar || isGroup text)

theorem closes_split {inner : Text} (closed : closes inner = true) :
    ∃ body, inner = body ++ ['}'] ∧ Balanced body ∧ '"' ∉ body := by
  simp only [closes, Bool.and_eq_true, beq_iff_eq, Bool.not_eq_true', List.contains_eq_mem,
    decide_eq_false_iff_not] at closed
  rcases closed with ⟨cut, noQuote⟩
  rcases (Source.cut_group_iff (Int.le_refl 0)).1 cut with ⟨parts, balanced⟩
  refine ⟨inner.dropLast, parts, (balanced_iff_from _).2 balanced, ?_⟩
  intro member
  exact noQuote (List.dropLast_subset inner member)

theorem group_text_of_check {text : Text} (checked : isGroup text = true) : GroupText text := by
  unfold isGroup at checked
  split at checked
  · next next inner =>
      rw [Bool.and_eq_true] at checked
      rcases checked with ⟨bare, closed⟩
      rcases closes_split closed with ⟨body, parts, balanced, noQuote⟩
      cases body with
      | nil =>
          have same := (List.cons.inj parts).1
          subst same
          exact absurd bare (by decide)
      | cons first rest =>
          have same := (List.cons.inj parts).1
          subst same
          rw [parts]
          exact .quoted balanced bare noQuote
  · next inner _ =>
      rcases closes_split checked with ⟨body, rfl, balanced, noQuote⟩
      exact .plain balanced noQuote
  · simp at checked

theorem spelling_of_check {text : Text} (checked : isSpelling text = true) : Spelling text := by
  simp only [isSpelling, Bool.and_eq_true, Bool.or_eq_true, Bool.not_eq_true',
    List.isEmpty_eq_false_iff, List.all_eq_true] at checked
  rcases checked with ⟨⟨nonempty, chars⟩, shape⟩
  refine ⟨nonempty, fun char member => (chars char member).1,
    fun char member => (chars char member).2, ?_⟩
  exact shape.imp id group_text_of_check

theorem spell_by_cases (char : Char) :
    spellBy symbols char = [char] ∨ 128 ≤ char.toNat ∧ Spelling (spellBy symbols char) := by
  have checked : (symbols.all fun row => isSpelling row.2) = true := by
    decide +kernel
  rcases spell_by_row symbols char with own | ⟨row, known, rfl, spelled⟩
  · exact .inl own
  · rw [spelled]
    exact .inr ⟨(symbols_far row known).1,
      spelling_of_check (List.all_eq_true.1 checked row known)⟩

/-- A letter and a mark are bare characters, and they are spelled as a group. -/
structure SpelledPair (letter next : Char) (text : Text) : Prop where
  letterBare : Source.isBareChar letter = true
  letterPlain : isDigit letter = false
  nextBare : Source.isBareChar next = true
  nextPlain : isDigit next = false
  spelling : Spelling text
  group : GroupText text

theorem spell_pair_spelled {letter next : Char} {text : Text}
    (found : spellPair? marks letter next = some text) : SpelledPair letter next text := by
  have nextChecked : (marks.all fun mark =>
      Source.isBareChar mark.char && !isDigit mark.char) = true := by
    decide +kernel
  have textChecked : ((List.range 128).all fun code => !(Char.ofNat code).isAlpha ||
      (Source.isBareChar (Char.ofNat code) && !isDigit (Char.ofNat code) &&
        marks.all fun mark => isSpelling (mark.spell (Char.ofNat code)) &&
          isGroup (mark.spell (Char.ofNat code)))) = true := by
    decide +kernel
  rcases row_of_spell_pair found with ⟨alpha, row, known, rfl, rfl⟩
  have letterPassed := List.all_eq_true.1 textChecked letter.toNat
    (List.mem_range.2 (small_of_alpha alpha))
  rw [Char.ofNat_toNat, alpha, Bool.not_true, Bool.false_or, Bool.and_eq_true,
    Bool.and_eq_true, Bool.not_eq_true'] at letterPassed
  have rowPassed := List.all_eq_true.1 letterPassed.2 row known
  have markPassed := List.all_eq_true.1 nextChecked row known
  rw [Bool.and_eq_true] at rowPassed markPassed
  exact ⟨letterPassed.1.1, letterPassed.1.2, markPassed.1, by simpa using markPassed.2,
    spelling_of_check rowPassed.1, group_text_of_check rowPassed.2⟩

theorem spell_out_alone {char : Char} {rest : Text}
    (missing : ∀ following ∈ rest.head?, spellPair? marks char following = none) :
    spellOut (char :: rest) = spellBy symbols char ++ spellOut rest := by
  cases rest with
  | nil => simp [spellOut, scan]
  | cons following others => exact scan_alone (missing following rfl) others

theorem spell_out_cons (char : Char) (rest : Text) :
    (∃ following others spelled, rest = following :: others ∧
      spellPair? marks char following = some spelled ∧
      spellOut (char :: rest) = spelled ++ spellOut others) ∨
    ∀ following ∈ rest.head?, spellPair? marks char following = none := by
  cases rest with
  | nil => exact .inr (by simp)
  | cons following others =>
      cases found : spellPair? marks char following with
      | some spelled => exact .inl ⟨following, others, spelled, rfl, found, scan_pair found others⟩
      | none =>
          refine .inr ?_
          intro other first
          rw [← Option.some.inj first]
          exact found

/-- One or two characters before the rest are spelled as a word or a group. -/
inductive Spells (rest : Text) : Text → Text → Prop
  | pair {letter mark : Char} {spelled : Text}
      (found : spellPair? marks letter mark = some spelled) : Spells rest [letter, mark] spelled
  | single {char : Char}
      (missing : ∀ following ∈ rest.head?, spellPair? marks char following = none)
      (far : 128 ≤ char.toNat) (spelling : Spelling (spellBy symbols char)) :
      Spells rest [char] (spellBy symbols char)

theorem spelling_of_spells {rest unit spelled : Text} (spells : Spells rest unit spelled) :
    Spelling spelled := by
  cases spells with
  | pair found => exact (spell_pair_spelled found).spelling
  | single _ _ spelling => exact spelling

theorem spell_out_spells {rest unit spelled : Text} (spells : Spells rest unit spelled) :
    spellOut (unit ++ rest) = spelled ++ spellOut rest := by
  cases spells with
  | pair found => exact scan_pair found rest
  | single missing => exact spell_out_alone missing

theorem spell_out_own {char : Char} {rest : Text}
    (missing : ∀ following ∈ rest.head?, spellPair? marks char following = none)
    (same : spellBy symbols char = [char]) : spellOut (char :: rest) = char :: spellOut rest := by
  rw [spell_out_alone missing, same, List.singleton_append]

theorem spell_out_ascii {char : Char} (other : char.isAlpha = false) (small : char.toNat < 128)
    (rest : Text) : spellOut (char :: rest) = char :: spellOut rest := by
  unfold spellOut
  rw [scan_cons_other other, spell_by_ascii small, List.singleton_append]

theorem spell_pair_before_ascii (char : Char) {following : Char} (small : following.toNat < 128) :
    spellPair? marks char following = none := by
  cases found : spellPair? marks char following with
  | none => rfl
  | some spelled =>
      rcases row_of_spell_pair found with ⟨_, row, known, rfl, _⟩
      have far := (marks_far row known).1
      omega

/-- Every text is built from its end by characters that are spelled as themselves, and by
others that are spelled out. -/
theorem spell_out_induct {holds : Text → Prop} (empty : holds [])
    (own : ∀ char rest, (∀ following ∈ rest.head?, spellPair? marks char following = none) →
      spellBy symbols char = [char] → holds rest → holds (char :: rest))
    (replaced : ∀ {unit spelled rest}, Spells rest unit spelled → holds rest →
      holds (unit ++ rest)) (text : Text) : holds text := by
  cases text with
  | nil => exact empty
  | cons char rest =>
      rcases spell_out_cons char rest with ⟨following, others, spelled, rfl, found, _⟩ | missing
      · exact replaced (.pair found) (spell_out_induct empty own replaced others)
      · have tail := spell_out_induct empty own replaced rest
        rcases spell_by_cases char with same | ⟨far, spelling⟩
        · exact own char rest missing same tail
        · exact replaced (.single missing far spelling) tail
termination_by text.length

theorem spell_out_eq_nil {text : Text} (empty : spellOut text = []) : text = [] := by
  induction text using spell_out_induct with
  | empty => rfl
  | own char rest missing same =>
      rw [spell_out_own missing same] at empty
      simp at empty
  | replaced spells =>
      rw [spell_out_spells spells] at empty
      exact absurd (List.append_eq_nil_iff.1 empty).1 (spelling_of_spells spells).nonempty

theorem spell_out_snoc {last : Char} (small : last.toNat < 128) (text : Text) :
    spellOut (text ++ [last]) = spellOut text ++ [last] := by
  have longer : ∀ {char : Char} {rest : Text},
      (∀ following ∈ rest.head?, spellPair? marks char following = none) →
      ∀ following ∈ (rest ++ [last]).head?, spellPair? marks char following = none := by
    intro char rest missing following first
    cases rest with
    | nil =>
        obtain rfl : last = following := Option.some.inj first
        exact spell_pair_before_ascii char small
    | cons => exact missing following first
  induction text using spell_out_induct with
  | empty =>
      rw [List.nil_append, spell_out_own (by simp) (spell_by_ascii small)]
      rfl
  | own char rest missing same induction =>
      rw [List.cons_append, spell_out_own (longer missing) same, induction,
        spell_out_own missing same]
      rfl
  | replaced spells induction =>
      rw [List.append_assoc, spell_out_spells spells, List.append_assoc, ← induction]
      cases spells with
      | pair found => exact spell_out_spells (.pair found)
      | single missing far spelling =>
          exact spell_out_spells (.single (longer missing) far spelling)

theorem mem_of_blank_spelled {char : Char} (blank : isBlank char = true) {text : Text}
    (member : char ∈ spellOut text) : char ∈ text := by
  induction text using spell_out_induct with
  | empty => exact member
  | own first rest missing same induction =>
      rw [spell_out_own missing same] at member
      rcases List.mem_cons.1 member with rfl | later
      · exact List.mem_cons_self
      · exact List.mem_cons_of_mem first (induction later)
  | @replaced unit _ _ spells induction =>
      rw [spell_out_spells spells] at member
      rcases List.mem_append.1 member with here | later
      · rw [(spelling_of_spells spells).solid char here] at blank
        exact absurd blank (by decide)
      · exact List.mem_append_right unit (induction later)

theorem starts_solid_spell_out {text : Text} (solid : StartsSolid text) :
    StartsSolid (spellOut text) := by
  induction text using spell_out_induct with
  | empty => exact solid
  | own char rest missing same =>
      rw [spell_out_own missing same]
      exact starts_solid_cons _ (solid char (by simp))
  | replaced spells =>
      have spelling := spelling_of_spells spells
      rw [spell_out_spells spells]
      intro char first
      rw [List.head?_append, Option.mem_def, Option.or_eq_some_iff] at first
      rcases first with own | ⟨none, _⟩
      · exact spelling.solid char (List.mem_of_mem_head? own)
      · exact absurd (List.head?_eq_none_iff.1 none) spelling.nonempty

theorem ends_solid_spell_out {text : Text} (solid : EndsSolid text) :
    EndsSolid (spellOut text) := by
  induction text using spell_out_induct with
  | empty => exact solid
  | own char rest missing same induction =>
      rw [spell_out_own missing same]
      have tail := induction (ends_solid_of_append [char] solid)
      by_cases last : rest = []
      · rw [last] at solid ⊢
        exact solid
      · refine ends_solid_append [char] tail ?_
        intro none
        exact last (spell_out_eq_nil none)
  | @replaced unit spelled rest spells induction =>
      have spelling := spelling_of_spells spells
      have tail := induction (ends_solid_of_append unit solid)
      rw [spell_out_spells spells]
      intro char last
      rw [List.getLast?_append, Option.mem_def, Option.or_eq_some_iff] at last
      rcases last with later | ⟨_, own⟩
      · exact tail char later
      · exact spelling.solid char (List.mem_of_getLast? own)

end Bibliography.Latex
