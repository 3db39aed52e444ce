import Bibliography.Latex
import Bibliography.Proofs.Text.Case
import Mathlib.Data.List.Basic
import Mathlib.Data.List.Induction
import Mathlib.Data.List.Nodup

/-!
The rows of the table do not meet: what a row writes is ASCII and does not end in a letter,
and what it looks for ends with a character beyond ASCII that no other row looks for. Rows
that do not meet can be applied all at once, in one pass that looks one character ahead.
-/

namespace Bibliography.Latex

open Text

def spellPair? (rows : List Mark) (letter next : Char) : Option Text :=
  if letter.isAlpha then
    (rows.find? fun mark => mark.char == next).map fun mark => mark.spell letter
  else none

/-- The spelling of a single character; without a row it is copied. -/
def spellBy (rows : List (Char × Text)) (char : Char) : Text :=
  match rows.find? fun row => row.1 == char with
  | some row => row.2
  | none => [char]

/-- One pass over the text. A letter with a mark behind it is spelled together with the mark,
and every other character by itself. -/
def scan (rows : List Mark) (spell : Char → Text) : Text → Text
  | [] => []
  | [char] => spell char
  | char :: next :: rest =>
      match spellPair? rows char next with
      | some spelled => spelled ++ scan rows spell rest
      | none => spell char ++ scan rows spell (next :: rest)

def IsAscii (text : Text) : Prop := ∀ char ∈ text, char.toNat < 128

def Mark.IsFar (mark : Mark) : Prop := 128 ≤ mark.char.toNat ∧ IsAscii mark.accent.toList

theorem marks_far : ∀ mark ∈ marks, mark.IsFar := by
  have checked : (marks.all fun mark => decide (128 ≤ mark.char.toNat) &&
      mark.accent.toList.all fun char => decide (char.toNat < 128)) = true := by
    decide +kernel
  intro mark member
  have passed := List.all_eq_true.1 checked mark member
  simp only [Bool.and_eq_true, decide_eq_true_eq, List.all_eq_true] at passed
  exact passed

theorem symbols_far : ∀ row ∈ symbols, 128 ≤ row.1.toNat ∧ IsAscii row.2 := by
  have checked : (symbols.all fun row => decide (128 ≤ row.1.toNat) &&
      row.2.all fun char => decide (char.toNat < 128)) = true := by
    decide +kernel
  intro row member
  have passed := List.all_eq_true.1 checked row member
  simp only [Bool.and_eq_true, decide_eq_true_eq, List.all_eq_true] at passed
  exact passed

/-- Text that is written for something else: it is ASCII, not empty, and does not end in a
letter, which a mark behind it could join. -/
def Closed (text : Text) : Prop :=
  ∃ front last, text = front ++ [last] ∧ IsAscii text ∧ last.isAlpha = false

theorem symbols_closed : ∀ row ∈ symbols, Closed row.2 := by
  have checked : (symbols.all fun row => row.2.getLast?.any fun last => !last.isAlpha) = true := by
    decide +kernel
  intro row member
  have passed := List.all_eq_true.1 checked row member
  rcases (Option.any_eq_true ..).1 passed with ⟨last, final, other⟩
  rw [Bool.not_eq_true'] at other
  exact ⟨_, last, (List.dropLast_append_getLast? last final).symm, (symbols_far row member).2,
    other⟩

theorem spell_closed {mark : Mark} (far : mark.IsFar) {letter : Char}
    (alpha : letter.isAlpha = true) : Closed (mark.spell letter) := by
  have small := small_of_alpha alpha
  refine ⟨'{' :: '\\' :: (mark.accent.toList ++ if mark.braced then group [letter] else [letter]),
    '}', rfl, ?_, by decide⟩
  intro char member
  simp only [Mark.spell, group, List.mem_cons, List.mem_append, List.not_mem_nil, or_false]
    at member
  rcases member with rfl | (rfl | accent | body) | rfl
  · decide
  · decide
  · exact far.2 char accent
  · split at body
    · simp only [List.mem_cons, List.mem_append, List.not_mem_nil, or_false] at body
      rcases body with rfl | rfl | rfl
      · decide
      · exact small
      · decide
    · rw [List.mem_singleton.1 body]
      exact small
  · decide

namespace Mark

theorem replace_cons (mark : Mark) (char : Char) (rest : Text) :
    mark.replace (char :: rest) =
      if char.isAlpha = true ∧ rest.head? = some mark.char then
        mark.spell char ++ mark.replace (rest.drop 1)
      else char :: mark.replace rest := by
  cases rest with
  | nil => simp [replace]
  | cons next others =>
      rw [replace]
      by_cases found : char.isAlpha = true ∧ next = mark.char
      · rw [if_pos (by simpa using found), if_pos (by simpa using found)]
        rfl
      · rw [if_neg (by simpa using found), if_neg (by simpa using found)]

theorem replace_closed {mark : Mark} (far : mark.IsFar) {written : Text} (closed : Closed written)
    (rest : Text) : mark.replace (written ++ rest) = written ++ mark.replace rest := by
  rcases closed with ⟨front, last, rfl, ascii, other⟩
  induction front with
  | nil =>
      rw [List.nil_append, List.singleton_append, List.singleton_append, replace_cons, if_neg]
      intro found
      rw [found.1] at other
      exact absurd other (by decide)
  | cons char others induction =>
      have small : ∀ first ∈ (others ++ [last] ++ rest).head?, first.toNat < 128 := by
        intro first member
        cases others with
        | nil => exact ascii first (by simp [Option.some.inj member])
        | cons second more => exact ascii first (by simp [Option.some.inj member])
      rw [List.cons_append, List.cons_append, replace_cons, if_neg]
      · rw [induction fun other member => ascii other (List.mem_cons_of_mem _ member)]
        rfl
      · intro found
        have below := small mark.char found.2
        have above := far.1
        omega

end Mark

theorem row_of_spell_pair {rows : List Mark} {letter next : Char} {spelled : Text}
    (found : spellPair? rows letter next = some spelled) :
    letter.isAlpha = true ∧ ∃ row ∈ rows, row.char = next ∧ row.spell letter = spelled := by
  unfold spellPair? at found
  split at found
  · next alpha =>
      rcases Option.map_eq_some_iff.1 found with ⟨row, first, same⟩
      have marked := List.find?_some first
      rw [beq_iff_eq] at marked
      exact ⟨alpha, row, List.mem_of_find?_eq_some first, marked, same⟩
  · simp at found

theorem spell_pair_closed {rows : List Mark} (rowsFar : ∀ row ∈ rows, row.IsFar)
    {letter next : Char} {spelled : Text} (found : spellPair? rows letter next = some spelled) :
    Closed spelled := by
  rcases row_of_spell_pair found with ⟨alpha, row, known, _, rfl⟩
  exact spell_closed (rowsFar row known) alpha

theorem spell_pair_snoc (rows : List Mark) (mark : Mark) (letter next : Char) :
    spellPair? (rows ++ [mark]) letter next =
      (spellPair? rows letter next).or (spellPair? [mark] letter next) := by
  unfold spellPair?
  split
  · rw [List.find?_append, Option.map_or]
  · rfl

theorem spell_pair_single (mark : Mark) (letter next : Char) :
    spellPair? [mark] letter next =
      if letter.isAlpha = true ∧ next = mark.char then some (mark.spell letter) else none := by
  unfold spellPair?
  by_cases alpha : letter.isAlpha = true
  · by_cases same : mark.char = next
    · simp [alpha, same]
    · simp [alpha, same, Ne.symm same]
  · simp [alpha]

theorem scan_pair {rows : List Mark} {spell : Char → Text} {char next : Char} {spelled : Text}
    (found : spellPair? rows char next = some spelled) (rest : Text) :
    scan rows spell (char :: next :: rest) = spelled ++ scan rows spell rest := by
  simp only [scan, found]

theorem scan_alone {rows : List Mark} {spell : Char → Text} {char next : Char}
    (missing : spellPair? rows char next = none) (rest : Text) :
    scan rows spell (char :: next :: rest) = spell char ++ scan rows spell (next :: rest) := by
  simp only [scan, missing]

theorem scan_cons_other {rows : List Mark} {spell : Char → Text} {char : Char}
    (other : char.isAlpha = false) (rest : Text) :
    scan rows spell (char :: rest) = spell char ++ scan rows spell rest := by
  cases rest with
  | nil => simp [scan]
  | cons next others => simp [scan, spellPair?, other]

theorem not_alpha_of_far {char : Char} (far : 128 ≤ char.toNat) : char.isAlpha = false := by
  apply Bool.eq_false_iff.2
  intro letter
  have below := small_of_alpha letter
  omega

theorem spell_by_row (rows : List (Char × Text)) (char : Char) :
    spellBy rows char = [char] ∨ ∃ row ∈ rows, row.1 = char ∧ spellBy rows char = row.2 := by
  unfold spellBy
  cases found : rows.find? fun row => row.1 == char with
  | none => exact .inl rfl
  | some row =>
      have same := List.find?_some found
      rw [beq_iff_eq] at same
      exact .inr ⟨row, List.mem_of_find?_eq_some found, same, rfl⟩

/-- Only characters beyond ASCII are replaced, by closed text, and the mark is none of them. -/
def SparesMark (spell : Char → Text) (mark : Char) : Prop :=
  ∀ char, spell char = [char] ∨ 128 ≤ char.toNat ∧ char ≠ mark ∧ Closed (spell char)

theorem spell_spared {spell : Char → Text} {mark : Char} (spares : SparesMark spell mark) :
    spell mark = [mark] := by
  rcases spares mark with own | ⟨_, different, _⟩
  · exact own
  · exact absurd rfl different

theorem head_scan {rows : List Mark} {spell : Char → Text} {mark : Mark}
    (rowsFar : ∀ row ∈ rows, row.IsFar) (far : mark.IsFar) (spares : SparesMark spell mark.char)
    {char : Char} {rest : Text}
    (first : (scan rows spell (char :: rest)).head? = some mark.char) : char = mark.char := by
  have ascii : ∀ {written behind : Text}, Closed written →
      (written ++ behind).head? ≠ some mark.char := by
    intro written behind closed head
    rcases closed with ⟨front, last, rfl, small, _⟩
    rw [List.append_assoc, List.head?_append, List.singleton_append, List.head?_cons] at head
    have below : mark.char.toNat < 128 := by
      cases front with
      | nil => exact small mark.char (by simpa using head.symm)
      | cons letter others => exact small mark.char (by simp_all)
    have above := far.1
    omega
  have alone : ∀ behind : Text, (spell char ++ behind).head? = some mark.char →
      char = mark.char := by
    intro behind head
    rcases spares char with own | ⟨_, _, closed⟩
    · rw [own] at head
      exact Option.some.inj head
    · exact absurd head (ascii closed)
  cases rest with
  | nil => exact alone [] (by rw [List.append_nil]; exact first)
  | cons next others =>
      cases found : spellPair? rows char next with
      | some spelled =>
          rw [scan_pair found] at first
          exact absurd first (ascii (spell_pair_closed rowsFar found))
      | none =>
          rw [scan_alone found] at first
          exact alone _ first

theorem replace_scan {rows : List Mark} {spell : Char → Text} {mark : Mark}
    (rowsFar : ∀ row ∈ rows, row.IsFar) (far : mark.IsFar) (spares : SparesMark spell mark.char)
    (text : Text) : mark.replace (scan rows spell text) = scan (rows ++ [mark]) spell text := by
  fun_induction scan rows spell text with
  | case1 => rfl
  | case2 char =>
      rcases spares char with own | ⟨_, _, closed⟩
      · rw [scan, own]
        rfl
      · have passed := Mark.replace_closed far closed []
        rwa [List.append_nil, Mark.replace, List.append_nil] at passed
  | case3 char next rest spelled found induction =>
      have kept : spellPair? (rows ++ [mark]) char next = some spelled := by
        rw [spell_pair_snoc, found]
        rfl
      rw [scan_pair kept, Mark.replace_closed far (spell_pair_closed rowsFar found), induction]
  | case4 char next rest missing induction =>
      by_cases here : char.isAlpha = true ∧ next = mark.char
      · rcases here with ⟨alpha, rfl⟩
        have small := small_of_alpha alpha
        have own : spell char = [char] := by
          rcases spares char with own | ⟨beyond, _⟩
          · exact own
          · omega
        have other := not_alpha_of_far far.1
        have kept : spellPair? (rows ++ [mark]) char mark.char = some (mark.spell char) := by
          rw [spell_pair_snoc, missing, spell_pair_single, if_pos ⟨alpha, rfl⟩]
          rfl
        -- The mark itself is passed over, so the induction also holds behind it.
        have tail := induction
        rw [scan_cons_other other, scan_cons_other other, spell_spared spares,
          List.singleton_append, List.singleton_append, Mark.replace_cons,
          if_neg (by simp [other])] at tail
        rw [scan_pair kept, own, scan_cons_other other, spell_spared spares,
          List.singleton_append, List.singleton_append, Mark.replace_cons, if_pos ⟨alpha, rfl⟩,
          List.drop_one, List.tail_cons, (List.cons.inj tail).2]
      · have kept : spellPair? (rows ++ [mark]) char next = none := by
          rw [spell_pair_snoc, missing, spell_pair_single, if_neg here]
          rfl
        rw [scan_alone kept, ← induction]
        rcases spares char with own | ⟨_, _, closed⟩
        · rw [own, List.singleton_append, List.singleton_append, Mark.replace_cons, if_neg]
          intro found
          exact here ⟨found.1, head_scan rowsFar far spares found.2⟩
        · exact Mark.replace_closed far closed _

theorem replace_symbol_ascii {symbol : Char × Text} (far : 128 ≤ symbol.1.toNat) {text : Text}
    (ascii : IsAscii text) : replaceSymbol symbol text = text := by
  unfold replaceSymbol
  induction text with
  | nil => rfl
  | cons char rest induction =>
      have different : char ≠ symbol.1 := by
        intro same
        have small := ascii char (by simp)
        rw [same] at small
        omega
      rw [List.flatMap_cons, if_neg different,
        induction fun other member => ascii other (by simp [member])]
      rfl

theorem replace_spell_by {rows : List (Char × Text)} {symbol : Char × Text}
    (far : 128 ≤ symbol.1.toNat) (ascii : ∀ row ∈ rows, IsAscii row.2) (char : Char) :
    replaceSymbol symbol (spellBy rows char) = spellBy (rows ++ [symbol]) char := by
  unfold spellBy
  rw [List.find?_append]
  cases found : rows.find? fun row => row.1 == char with
  | some row => exact replace_symbol_ascii far (ascii row (List.mem_of_find?_eq_some found))
  | none =>
      by_cases same : symbol.1 = char
      · simp [replaceSymbol, same]
      · simp [replaceSymbol, same, Ne.symm same]

theorem replace_symbol_scan {marked : List Mark} {rows : List (Char × Text)}
    {symbol : Char × Text} (marksFar : ∀ row ∈ marked, row.IsFar) (far : 128 ≤ symbol.1.toNat)
    (ascii : ∀ row ∈ rows, IsAscii row.2) (text : Text) :
    replaceSymbol symbol (scan marked (spellBy rows) text) =
      scan marked (spellBy (rows ++ [symbol])) text := by
  have split : ∀ left right : Text, replaceSymbol symbol (left ++ right) =
      replaceSymbol symbol left ++ replaceSymbol symbol right := fun _ _ => List.flatMap_append
  fun_induction scan marked (spellBy rows) text with
  | case1 => rfl
  | case2 char => exact replace_spell_by far ascii char
  | case3 char next rest spelled found induction =>
      rcases spell_pair_closed marksFar found with ⟨_, _, _, small, _⟩
      rw [split, replace_symbol_ascii far small, induction, scan_pair found]
  | case4 char next rest missing induction =>
      rw [split, replace_spell_by far ascii, induction, scan_alone missing]

/-- A row of the table: for a mark behind a letter, or for a character by itself. -/
inductive Row
  | mark (row : Mark)
  | symbol (row : Char × Text)

namespace Row

def apply : Row → Text → Text
  | mark row => row.replace
  | symbol row => replaceSymbol row

def char : Row → Char
  | mark row => row.char
  | symbol row => row.1

def mark? : Row → Option Mark
  | mark row => some row
  | symbol _ => none

def symbol? : Row → Option (Char × Text)
  | mark _ => none
  | symbol row => some row

def IsFar : Row → Prop
  | mark row => row.IsFar
  | symbol row => 128 ≤ row.1.toNat ∧ Closed row.2

end Row

def marksOf (rows : List Row) : List Mark := rows.filterMap Row.mark?

def symbolsOf (rows : List Row) : List (Char × Text) := rows.filterMap Row.symbol?

theorem mem_marks_of {rows : List Row} {mark : Mark} : mark ∈ marksOf rows ↔ .mark mark ∈ rows := by
  simp only [marksOf, List.mem_filterMap]
  constructor
  · intro found
    rcases found with ⟨_ | _, member, same⟩
    · rwa [← Option.some.inj same]
    · simp [Row.mark?] at same
  · intro member
    exact ⟨_, member, rfl⟩

theorem mem_symbols_of {rows : List Row} {symbol : Char × Text} :
    symbol ∈ symbolsOf rows ↔ .symbol symbol ∈ rows := by
  simp only [symbolsOf, List.mem_filterMap]
  constructor
  · intro found
    rcases found with ⟨_ | _, member, same⟩
    · simp [Row.symbol?] at same
    · rwa [← Option.some.inj same]
  · intro member
    exact ⟨_, member, rfl⟩

/-- Row by row, each over the whole text that the rows before it have left. -/
def applyAll (rows : List Row) (text : Text) : Text :=
  rows.foldl (fun text row => row.apply text) text

/-- Rows that do not meet: what one writes is nothing for another, and they look for
different characters. -/
structure Apart (rows : List Row) : Prop where
  far : ∀ row ∈ rows, row.IsFar
  distinct : (rows.map Row.char).Nodup

namespace Apart

variable {rows front : List Row} {last : Row}

theorem mark_rows (apart : Apart rows) : ∀ row ∈ marksOf rows, row.IsFar :=
  fun _ member => apart.far _ (mem_marks_of.1 member)

theorem symbol_rows (apart : Apart rows) :
    ∀ row ∈ symbolsOf rows, 128 ≤ row.1.toNat ∧ Closed row.2 :=
  fun _ member => apart.far _ (mem_symbols_of.1 member)

theorem of_snoc (apart : Apart (front ++ [last])) : Apart front where
  far := fun row member => apart.far row (List.mem_append_left _ member)
  distinct := by
    have distinct := apart.distinct
    rw [List.map_append] at distinct
    exact (List.nodup_append.1 distinct).1

theorem last_char (apart : Apart (front ++ [last])) : ∀ row ∈ front, row.char ≠ last.char := by
  intro row member
  have distinct := apart.distinct
  rw [List.map_append] at distinct
  exact (List.nodup_append.1 distinct).2.2 _ (List.mem_map_of_mem member) _ (by simp)

theorem spares (apart : Apart rows) {mark : Char} (other : ∀ row ∈ rows, row.char ≠ mark) :
    SparesMark (spellBy (symbolsOf rows)) mark := by
  intro char
  rcases spell_by_row (symbolsOf rows) char with own | ⟨row, known, rfl, same⟩
  · exact .inl own
  · rw [same]
    exact .inr ⟨(apart.symbol_rows row known).1, other _ (mem_symbols_of.1 known),
      (apart.symbol_rows row known).2⟩

end Apart

/-- Rows that do not meet can be applied all at once. -/
theorem apply_all_eq_scan {rows : List Row} (apart : Apart rows) (text : Text) :
    applyAll rows text = scan (marksOf rows) (spellBy (symbolsOf rows)) text := by
  induction rows using List.reverseRecOn with
  | nil =>
      induction text with
      | nil => rfl
      | cons char rest induction =>
          have unmarked : ∀ next, spellPair? [] char next = none := by simp [spellPair?]
          cases rest with
          | nil => rfl
          | cons next others =>
              rw [show marksOf [] = [] from rfl, scan_alone (unmarked next)]
              exact congrArg (char :: ·) induction
  | append_singleton front last induction =>
      have others := apart.of_snoc
      have joined : applyAll (front ++ [last]) text = last.apply (applyAll front text) := by
        rw [applyAll, List.foldl_append]
        rfl
      rw [joined, induction others]
      cases last with
      | mark row =>
          have marked : marksOf (front ++ [.mark row]) = marksOf front ++ [row] :=
            List.filterMap_append
          have alone : symbolsOf (front ++ [.mark row]) = symbolsOf front := by
            rw [symbolsOf, List.filterMap_append]
            exact List.append_nil _
          rw [marked, alone]
          exact replace_scan others.mark_rows (apart.far (.mark row) (by simp))
            (others.spares apart.last_char) text
      | symbol row =>
          have alone : marksOf (front ++ [.symbol row]) = marksOf front := by
            rw [marksOf, List.filterMap_append]
            exact List.append_nil _
          have spelled : symbolsOf (front ++ [.symbol row]) = symbolsOf front ++ [row] :=
            List.filterMap_append
          have far : Row.IsFar (.symbol row) := apart.far _ (by simp)
          rw [alone, spelled]
          refine replace_symbol_scan others.mark_rows far.1 ?_ text
          intro symbol known
          rcases (others.symbol_rows symbol known).2 with ⟨_, _, _, ascii, _⟩
          exact ascii

def table : List Row := marks.map .mark ++ symbols.map .symbol

theorem marks_of_table : marksOf table = marks := by
  have none : Row.mark? ∘ Row.symbol = fun _ => none := rfl
  have some : Row.mark? ∘ Row.mark = some := rfl
  rw [marksOf, table, List.filterMap_append, List.filterMap_map, List.filterMap_map, none, some]
  simp

theorem symbols_of_table : symbolsOf table = symbols := by
  have none : Row.symbol? ∘ Row.mark = fun _ => none := rfl
  have some : Row.symbol? ∘ Row.symbol = some := rfl
  rw [symbolsOf, table, List.filterMap_append, List.filterMap_map, List.filterMap_map, none, some]
  simp

theorem table_apart : Apart table where
  far := by
    intro row member
    rcases List.mem_append.1 member with marked | alone
    · rcases List.mem_map.1 marked with ⟨mark, known, rfl⟩
      exact marks_far mark known
    · rcases List.mem_map.1 alone with ⟨symbol, known, rfl⟩
      exact ⟨(symbols_far symbol known).1, symbols_closed symbol known⟩
  distinct := by
    have codes : ((table.map Row.char).map Char.toNat).Nodup := by decide +kernel
    exact codes.of_map

theorem escape_eq_apply_all (text : Text) : escape text = applyAll table text := by
  rw [escape, applyAll, table, List.foldl_append, List.foldl_map, List.foldl_map]
  rfl

theorem spell_by_ascii {char : Char} (small : char.toNat < 128) :
    spellBy symbols char = [char] := by
  rcases spell_by_row symbols char with own | ⟨row, known, rfl, _⟩
  · exact own
  · have far := (symbols_far row known).1
    omega

def spellOut (text : Text) : Text := scan marks (spellBy symbols) text

theorem escape_eq_spell_out (text : Text) : escape text = spellOut text := by
  rw [escape_eq_apply_all, apply_all_eq_scan table_apart, marks_of_table, symbols_of_table,
    spellOut]

end Bibliography.Latex
