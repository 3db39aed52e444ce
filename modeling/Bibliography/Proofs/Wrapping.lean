import Bibliography.Proofs.Choice
import Bibliography.Proofs.OneLine
import Bibliography.Proofs.Surname
import Mathlib.Data.List.Find
import Mathlib.Data.List.Infix

/-!
Comparing entries whose values are wrapped over lines. The wording of a value does not depend
on line breaks. The surname may: a joining word counts only if a space follows it, and a line
feed is no space, so a break right behind an "and" hides it from the search. On one line the
joining word is seen. It is the other way round for a joining word with nothing but blanks
behind it. Where no joining word is affected the fingerprints are the same, and a merge finds
the same duplicates.
-/

namespace Bibliography

open Text Layout

def spaced (behind : Text) : Bool := behind.head? == some ' '

/-- A space will follow on one line: something stands behind the blanks, and there is a line
feed among them or a space first. -/
def spacedOnLine (behind : Text) : Bool :=
  !(skipBlank behind).isEmpty && ((behind.takeWhile isBlank).contains '\n' || spaced behind)

/-- Where a surname ends on one line, read off the raw text. -/
def endsOnLine (rest : Text) : Bool :=
  let next := skipBlank rest
  next.isEmpty || next.head? == some ',' ||
    joiners.any fun joiner => joiner.isPrefixOf next && spacedOnLine (next.drop joiner.length)

theorem ends_on_line_iff (rest : Text) :
    endsOnLine rest = true ↔
      skipBlank rest = [] ∨ (skipBlank rest).head? = some ',' ∨
        ∃ joiner ∈ joiners, ∃ behind, skipBlank rest = joiner ++ behind ∧
          spacedOnLine behind = true := by
  have joined : ∀ joiner next : Text,
      (joiner.isPrefixOf next && spacedOnLine (next.drop joiner.length)) = true ↔
        ∃ behind, next = joiner ++ behind ∧ spacedOnLine behind = true := by
    intro joiner next
    rw [Bool.and_eq_true, List.isPrefixOf_iff_prefix]
    constructor
    · rintro ⟨⟨behind, rfl⟩, follows⟩
      rw [List.drop_left] at follows
      exact ⟨behind, rfl, follows⟩
    · rintro ⟨behind, rfl, follows⟩
      rw [List.drop_left]
      exact ⟨List.prefix_append _ _, follows⟩
  simp only [endsOnLine, Bool.or_eq_true, List.isEmpty_iff, beq_iff_eq, List.any_eq_true, joined,
    or_assoc]

theorem prefix_space_iff (text : Text) : [' '] <+: text ↔ spaced text = true := by
  cases text with
  | nil => simp [spaced]
  | cons char rest =>
      rw [List.cons_prefix_cons, spaced, List.head?_cons, beq_iff_eq, Option.some.injEq]
      exact ⟨fun starts => starts.1.symm, fun same => ⟨same.symm, List.nil_prefix⟩⟩

theorem spaced_on_line (behind : Text) : spaced (onLine behind) = spacedOnLine behind := by
  rcases gap_cases behind with blanks | ⟨gap, char, rest, blanks, solid, rfl⟩
  · rw [on_line_gap blanks, spacedOnLine, skip_blank_whole blanks]
    rfl
  · have run : (gap ++ char :: rest).takeWhile isBlank = gap :=
      take_while_exact blanks (starts_solid_cons rest solid)
    have more : skipBlank (gap ++ char :: rest) = char :: rest :=
      skip_blank_gap_solid blanks (starts_solid_cons rest solid)
    rw [on_line_gap_solid blanks solid, spacedOnLine, run, more, on_line_solid solid]
    unfold joinRun
    split
    · next feed =>
        rw [feed]
        rfl
    · next noFeed =>
        cases gap with
        | nil => simp [spaced]
        | cons first others =>
            rw [Bool.eq_false_iff.2 noFeed]
            simp [spaced]

theorem ends_surname_on_line (rest : Text) : endsSurname (onLine rest) = endsOnLine rest := by
  have solid := starts_solid_skip_blank rest
  apply Bool.eq_iff_iff.2
  rw [ends_surname_iff, ends_on_line_iff, skip_blank_on_line]
  generalize skipBlank rest = next at solid
  have joined : ∀ joiner ∈ joiners, joiner ++ [' '] <+: onLine next ↔
      ∃ behind, next = joiner ++ behind ∧ spacedOnLine behind = true := by
    intro joiner joins
    have word : ∀ char ∈ joiner, isBlank char = false := fun char member =>
      (joiner_solid joins char member).1
    constructor
    · intro starts
      obtain ⟨behind, rfl⟩ :=
        (word_on_line_iff word next).1 ((List.prefix_append joiner [' ']).trans starts)
      rw [on_line_word word, List.prefix_append_right_inj, prefix_space_iff,
        spaced_on_line] at starts
      exact ⟨behind, rfl, starts⟩
    · rintro ⟨behind, rfl, follows⟩
      rw [on_line_word word, List.prefix_append_right_inj, prefix_space_iff, spaced_on_line]
      exact follows
  have same : (onLine next = [] ↔ next = []) ∧ (onLine next).head? = next.head? := by
    cases next with
    | nil => exact ⟨Iff.rfl, rfl⟩
    | cons char others =>
        rw [on_line_solid (solid char rfl)]
        simp
  rw [same.1, same.2]
  exact or_congr_right (or_congr_right (exists_congr fun joiner => and_congr_right (joined joiner)))

section Search

variable {ends endsRaw : Text → Bool} (same : ∀ rest, ends (onLine rest) = endsRaw rest)
include same

theorem word_here_on_line (text : Text) :
    wordHere? ends (onLine text) = wordHere? endsRaw text := by
  induction text with
  | nil => rfl
  | cons char rest induction =>
      by_cases blank : isBlank char = true
      · rw [word_here_blank blank]
        have starts := starts_blank_on_line blank rest
        cases line : onLine (char :: rest) with
        | nil => rfl
        | cons first others =>
            rw [line] at starts
            exact word_here_blank (starts first rfl) others
      · have solid := Bool.eq_false_iff.2 blank
        rw [on_line_solid solid, word_here_solid solid, word_here_solid solid, induction, same]

theorem first_word_on_line (text : Text) :
    firstWord? ends (onLine text) = firstWord? endsRaw text := by
  induction text with
  | nil => rfl
  | cons char rest induction =>
      by_cases blank : isBlank char = true
      · rw [← first_word_skip_blank, skip_blank_on_line, skip_blank_cons blank,
          ← skip_blank_on_line, first_word_skip_blank, induction, first_word_blank blank]
      · have solid := Bool.eq_false_iff.2 blank
        have here := word_here_on_line same (char :: rest)
        rw [on_line_solid solid] at here ⊢
        rw [firstWord?, firstWord?, here, induction]

end Search

theorem surname_join_lines (text : Text) :
    surname? (joinLines text) = firstWord? endsOnLine text := by
  rw [surname_eq, join_lines_eq, first_word_skip_blank, first_word_on_line ends_surname_on_line]

/-- No joining word is affected: a space follows it on one line just if one does already. -/
def Steady (authors : Text) : Prop :=
  ∀ joiner ∈ joiners, ∀ behind, joiner ++ behind <:+ authors → spacedOnLine behind = spaced behind

instance (authors : Text) : Decidable (Steady authors) :=
  decidable_of_iff (∀ joiner ∈ joiners, ∀ tail ∈ authors.tails, joiner <+: tail →
      spacedOnLine (tail.drop joiner.length) = spaced (tail.drop joiner.length)) (by
    constructor
    · intro checked joiner joins behind suffix
      have found := checked joiner joins (joiner ++ behind) ((List.mem_tails _ _).2 suffix)
        (List.prefix_append _ _)
      rw [List.drop_left] at found
      exact found
    · rintro steady joiner joins tail member ⟨behind, rfl⟩
      rw [List.drop_left]
      exact steady joiner joins behind ((List.mem_tails _ _).1 member))

theorem Steady.suffix {authors rest : Text} (steady : Steady authors) (suffix : rest <:+ authors) :
    Steady rest :=
  fun joiner joins behind ending => steady joiner joins behind (ending.trans suffix)

theorem Steady.ends {rest : Text} (steady : Steady rest) : endsOnLine rest = endsSurname rest := by
  obtain ⟨gap, _, parts⟩ := skip_blank_split rest
  have skipped : skipBlank rest <:+ rest := ⟨gap, parts.symm⟩
  apply Bool.eq_iff_iff.2
  rw [ends_on_line_iff, ends_surname_iff]
  apply or_congr_right
  apply or_congr_right
  apply exists_congr
  intro joiner
  apply and_congr_right
  intro joins
  constructor
  · rintro ⟨behind, same, follows⟩
    rw [steady joiner joins behind (same ▸ skipped)] at follows
    rw [same, List.prefix_append_right_inj, prefix_space_iff]
    exact follows
  · rintro ⟨behind, same⟩
    rw [List.append_assoc] at same
    refine ⟨[' '] ++ behind, same.symm, ?_⟩
    rw [steady joiner joins _ (same ▸ skipped)]
    rfl

theorem Steady.first_word {text : Text} (steady : Steady text) :
    firstWord? endsOnLine text = firstWord? endsSurname text := by
  have here : ∀ text : Text, Steady text →
      wordHere? endsOnLine text = wordHere? endsSurname text := by
    intro text
    induction text with
    | nil => exact fun _ => rfl
    | cons char rest induction =>
        intro steady
        have later := steady.suffix (List.suffix_cons char rest)
        rw [wordHere?, wordHere?, induction later, later.ends]
  induction text with
  | nil => rfl
  | cons char rest induction =>
      rw [firstWord?, firstWord?, here _ steady,
        induction (steady.suffix (List.suffix_cons char rest))]

theorem wording_join_lines (text : Text) : wording (joinLines text) = wording text := by
  rw [wording, filter_join_lines fun _ => not_word_of_blank]
  rfl

def Fields.mapValues (change : Value → Value) (fields : Fields) : Fields where
  toList := fields.toList.map fun field => (field.1, change field.2)
  nodup := by
    rw [Field.names, List.map_map]
    exact fields.nodup

theorem Fields.get_map_values (change : Value → Value) (fields : Fields) (name : Text) :
    (fields.mapValues change).get? name = (fields.get? name).map change := by
  rw [get?, mapValues, List.find?_map, Option.map_map, get?, Option.map_map]
  rfl

def Value.onOneLine (value : Value) : Value := { value with text := joinLines value.text }

namespace Entry

/-- The entry with each of its values on one line. -/
def onOneLine (entry : Entry) : Entry :=
  { entry with fields := entry.fields.mapValues Value.onOneLine }

theorem get_on_one_line (entry : Entry) (name : Text) :
    entry.onOneLine.get? name = (entry.get? name).map Value.onOneLine :=
  entry.fields.get_map_values Value.onOneLine name

theorem wording_on_one_line (entry : Entry) (name : Text) :
    entry.onOneLine.wording? name = entry.wording? name := by
  rw [wording?, wording?, get_on_one_line]
  cases entry.get? name with
  | none => rfl
  | some value =>
      have same : wording value.onOneLine.text = wording value.text :=
        wording_join_lines value.text
      simp only [Option.map_some, same]

/-- The surname that the entry has on one line, read off the raw author field. -/
def surnameOnLine (entry : Entry) : Text :=
  match entry.wording? "author".toList, entry.get? "author".toList with
  | some _, some authors => ((firstWord? endsOnLine authors.text).map wording).getD []
  | _, _ => []

theorem surname_on_one_line (entry : Entry) : entry.onOneLine.surname = entry.surnameOnLine := by
  unfold surname surnameOnLine
  rw [wording_on_one_line, get_on_one_line]
  cases entry.wording? "author".toList with
  | none => rfl
  | some words =>
      cases entry.get? "author".toList with
      | none => rfl
      | some authors =>
          change firstSurname (joinLines authors.text) =
            ((firstWord? endsOnLine authors.text).map wording).getD []
          rw [firstSurname, surname_join_lines]
          cases firstWord? endsOnLine authors.text <;> rfl

theorem surname_of_steady {entry : Entry}
    (steady : ∀ authors, entry.get? "author".toList = some authors → Steady authors.text) :
    entry.surnameOnLine = entry.surname := by
  unfold surname surnameOnLine
  cases entry.wording? "author".toList with
  | none => rfl
  | some words =>
      cases known : entry.get? "author".toList with
      | none => rfl
      | some authors =>
          dsimp only
          rw [(steady authors known).first_word, firstSurname, surname_eq]
          cases firstWord? endsSurname authors.text <;> rfl

/-- The fingerprints of an entry as it is wrapped and on one line: all but the surname is the
same, and the surname is that of the raw text with other places for it to end. -/
structure ComparedOnLine (entry : Entry) : Prop where
  doi : entry.onOneLine.fingerprint.doi = entry.fingerprint.doi
  abstract : entry.onOneLine.fingerprint.abstract = entry.fingerprint.abstract
  surname : entry.onOneLine.surname = entry.surnameOnLine
  same_iff : entry.onOneLine.fingerprint = entry.fingerprint ↔ entry.surnameOnLine = entry.surname
  steady : (∀ authors, entry.get? "author".toList = some authors → Steady authors.text) →
    entry.onOneLine.fingerprint = entry.fingerprint

theorem compared_on_line (entry : Entry) : entry.ComparedOnLine := by
  have same : entry.onOneLine.fingerprint = entry.fingerprint ↔
      entry.surnameOnLine = entry.surname := by
    rw [← surname_on_one_line, fingerprint, fingerprint, Fingerprint.mk.injEq]
    simp only [wording_on_one_line, true_and]
    exact List.append_left_inj _
  refine ⟨?_, ?_, surname_on_one_line entry, same, fun steady => same.2 (surname_of_steady steady)⟩
  · exact wording_on_one_line entry _
  · rw [fingerprint, fingerprint]
    dsimp only
    rw [wording_on_one_line]

end Entry

def Record.onOneLine (record : Record) : Record := { record with entry := record.entry.onOneLine }

def Duplicate.onOneLine (duplicate : Duplicate) : Duplicate :=
  { duplicate with record := duplicate.record.onOneLine }

namespace Chosen

theorem survivors_subset (records : List Record) : (ofRecords records).survivors ⊆ records := by
  induction records using List.reverseRecOn with
  | nil => exact List.nil_subset _
  | append_singleton front last induction =>
      have before : (ofRecords front).survivors ⊆ front ++ [last] :=
        fun _ member => List.mem_append_left _ (induction member)
      rw [of_records_snoc, choose]
      split
      · exact List.append_subset.2 ⟨before, List.subset_append_right _ _⟩
      · exact before

theorem of_records_on_one_line {records : List Record}
    (same : ∀ record ∈ records, record.onOneLine.entry.fingerprint = record.entry.fingerprint) :
    ofRecords (records.map Record.onOneLine) =
      ⟨(ofRecords records).survivors.map Record.onOneLine,
        (ofRecords records).duplicates.map Duplicate.onOneLine⟩ := by
  induction records using List.reverseRecOn with
  | nil => rfl
  | append_singleton front last induction =>
      have before := fun record member => same record (List.mem_append_left [last] member)
      have found : ((ofRecords front).survivors.map Record.onOneLine).find?
            (fun survivor => last.onOneLine.resembles survivor) =
          ((ofRecords front).survivors.find? fun survivor => last.resembles survivor).map
            Record.onOneLine := by
        rw [List.find?_map]
        congr 1
        apply List.find?_congr
        intro survivor member
        change Fingerprint.resembles _ _ = Fingerprint.resembles _ _
        rw [same last (by simp), before survivor (survivors_subset front member)]
      rw [List.map_append, List.map_singleton, of_records_snoc, of_records_snoc,
        induction before, choose, choose]
      dsimp only
      rw [found]
      cases (ofRecords front).survivors.find? fun survivor => last.resembles survivor with
      | none => simp
      | some survivor =>
          simp only [Option.map_some, List.map_append, List.map_singleton]
          rfl

end Chosen

/-- Line breaks change nothing in a fingerprint but the surname, and that only by a joining
word that is not followed by a space in the raw text but is on one line, or the other way
round. Records whose fingerprints do not change have the same duplicates. -/
theorem compared_on_one_line (entry : Entry) (records : List Record) :
    entry.ComparedOnLine ∧
      ((∀ record ∈ records, record.entry.onOneLine.fingerprint = record.entry.fingerprint) →
        (mergeDuplicates (records.map Record.onOneLine)).2 =
          (mergeDuplicates records).2.map Duplicate.onOneLine) := by
  constructor
  · exact entry.compared_on_line
  · intro same
    rw [duplicates_chosen, duplicates_chosen, Chosen.of_records_on_one_line same]

def logicBy (key authors title : String) : Entry :=
  ⟨"article".toList, key.toList, .ofList [("author".toList, ⟨authors.toList, .braces⟩),
    ("title".toList, ⟨title.toList, .braces⟩)], []⟩

/-- A break in front of the "and" does no harm. Behind it, it makes the last author the first
one, and a duplicate is found only once the values stand on one line. -/
theorem wrapped_authors_compared :
    let early := logicBy "early" "John Smith\n  and Jane Doe" "On\n  Logic"
    let plain := logicBy "plain" "John Smith and Jane Doe" "On Logic"
    let late := logicBy "late" "John Smith and\n  Jane Doe" "On Logic"
    let places := fun records : List Record =>
      (mergeDuplicates records).2.map fun duplicate =>
        (duplicate.record.position, duplicate.survivor)
    let harmless := Record.ofEntries [early, plain]
    let harmful := Record.ofEntries [plain, late]
    (∀ record ∈ harmless, record.entry.onOneLine.fingerprint = record.entry.fingerprint) ∧
      places harmless = [(1, 0)] ∧
      (mergeDuplicates (harmless.map Record.onOneLine)).2 =
        (mergeDuplicates harmless).2.map Duplicate.onOneLine ∧
      late.fingerprint.authorTitle = "doe:onlogic".toList ∧
      late.onOneLine.fingerprint.authorTitle = "smith:onlogic".toList ∧
      places harmful = [] ∧ places (harmful.map Record.onOneLine) = [(1, 0)] := by
  intro early plain late places harmless harmful
  have steady : ∀ record ∈ harmless, ∀ authors ∈ record.entry.get? "author".toList,
      Steady authors.text := by
    decide +kernel
  have same : ∀ record ∈ harmless,
      record.entry.onOneLine.fingerprint = record.entry.fingerprint :=
    fun record member => (compared_on_one_line record.entry []).1.steady (steady record member)
  refine ⟨same, ?_, (compared_on_one_line early harmless).2 same, ?_, ?_, ?_, ?_⟩
  · decide +kernel
  · decide +kernel
  · decide +kernel
  · decide +kernel
  · decide +kernel

end Bibliography
