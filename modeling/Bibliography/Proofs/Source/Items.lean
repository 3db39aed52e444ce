import Bibliography.Proofs.Source.Sound

/-!
Reading a text piece by piece. A piece leads through if, whatever follows it, the
whole text is read exactly when the rest is, and its own items come first. Pieces
that lead through can be put one behind the other.
-/

namespace Bibliography.Source

open Text

/-- The whole text is read and consists of these items. -/
def Gives (seen : Bool) (text : Text) (items : List Item) : Prop :=
  ∃ overrun, readItems seen text = (items, .finished overrun)

theorem gives_nil (seen : Bool) (items : List Item) : Gives seen [] items ↔ items = [] := by
  unfold Gives
  rw [readItems]
  constructor
  · intro found
    rcases found with ⟨overrun, read⟩
    exact (Prod.mk.inj read).1.symm
  · intro same
    subst same
    exact ⟨0, rfl⟩

theorem read_items_step {seen : Bool} {text rest : Text} {found : List Item} {overrun : Nat}
    (nonempty : text ≠ []) (stepped : step seen text = ⟨found, .ok rest, overrun⟩) :
    readItems seen text =
      if rest = [] then (found, .finished overrun)
      else (found ++ (readItems (seen || found.any Item.isPreamble) rest).1,
        (readItems (seen || found.any Item.isPreamble) rest).2) := by
  rw [readItems, dif_neg nonempty]
  simp only
  split
  · next failed =>
      rw [stepped] at failed
      simp at failed
  · next other again =>
      have next := congrArg Step.next stepped
      have same := Except.ok.inj (again.symm.trans next)
      subst same
      rw [stepped]

theorem gives_step_iff {seen : Bool} {text rest : Text} {found items : List Item} {overrun : Nat}
    (nonempty : text ≠ []) (stepped : step seen text = ⟨found, .ok rest, overrun⟩) :
    Gives seen text items ↔
      ∃ more, Gives (seen || found.any Item.isPreamble) rest more ∧ items = found ++ more := by
  unfold Gives
  rw [read_items_step nonempty stepped]
  by_cases last : rest = []
  · rw [if_pos last, last]
    constructor
    · intro found
      rcases found with ⟨_, read⟩
      obtain ⟨rfl, _⟩ := Prod.mk.inj read
      exact ⟨[], (gives_nil _ _).2 rfl, (List.append_nil found).symm⟩
    · intro found
      rcases found with ⟨more, given, rfl⟩
      rw [(gives_nil _ _).1 given, List.append_nil]
      exact ⟨overrun, rfl⟩
  · rw [if_neg last]
    constructor
    · intro found
      rcases found with ⟨final, read⟩
      obtain ⟨rfl, ending⟩ := Prod.mk.inj read
      exact ⟨_, ⟨final, Prod.ext rfl ending⟩, rfl⟩
    · intro found
      rcases found with ⟨more, ⟨final, read⟩, rfl⟩
      exact ⟨final, by rw [read]⟩

theorem not_gives_of_fault {seen : Bool} {text : Text} {items : List Item} {fault : Fault}
    (nonempty : text ≠ []) (stepped : (step seen text).next = .error fault) :
    ¬ Gives seen text items := by
  intro found
  rcases found with ⟨overrun, read⟩
  rw [readItems, dif_neg nonempty] at read
  simp only at read
  split at read
  · simp at read
  · next again =>
      rw [stepped] at again
      simp at again

theorem parse_ok_iff {text : Text} {document : Document} :
    Document.parse text = .ok document ↔
      ∃ items, Gives false text items ∧ (Draft.addAll {} items).finish.document = document := by
  unfold Document.parse Gives
  cases read : readItems false text with
  | mk items ending =>
      cases ending with
      | finished overrun =>
          constructor
          · intro parsed
            exact ⟨items, ⟨overrun, rfl⟩, Except.ok.inj parsed⟩
          · intro found
            rcases found with ⟨other, ⟨_, same⟩, built⟩
            obtain ⟨rfl, _⟩ := Prod.mk.inj same
            exact congrArg Except.ok built
      | stopped fault =>
          constructor
          · intro parsed
            simp at parsed
          · intro found
            rcases found with ⟨other, ⟨_, same⟩, _⟩
            simp at same

theorem parse_error_iff {text : Text} {error : ParseError} :
    Document.parse text = .error error ↔
      ∃ items fault, readItems false text = (items, .stopped fault) ∧
        fault.locate text = error := by
  unfold Document.parse
  cases read : readItems false text with
  | mk items ending =>
      cases ending with
      | finished overrun => simp
      | stopped fault => simp

/-- The text gives its items and leaves what follows to itself. -/
def Leads (seen : Bool) (chunk : Text) (found : List Item) (after : Bool) : Prop :=
  ∀ rest items, Gives seen (chunk ++ rest) items ↔
    ∃ more, Gives after rest more ∧ items = found ++ more

theorem leads_nil (seen : Bool) : Leads seen [] [] seen := by
  intro rest items
  constructor
  · intro given
    exact ⟨items, given, rfl⟩
  · intro found
    rcases found with ⟨more, given, rfl⟩
    exact given

theorem leads_append {seen middle after : Bool} {front back : Text} {first second : List Item}
    (leadsFirst : Leads seen front first middle) (leadsSecond : Leads middle back second after) :
    Leads seen (front ++ back) (first ++ second) after := by
  intro rest items
  rw [List.append_assoc, leadsFirst]
  constructor
  · intro found
    rcases found with ⟨more, given, rfl⟩
    obtain ⟨others, last, rfl⟩ := (leadsSecond rest more).1 given
    exact ⟨others, last, (List.append_assoc first second others).symm⟩
  · intro found
    rcases found with ⟨others, last, rfl⟩
    exact ⟨second ++ others, (leadsSecond rest _).2 ⟨others, last, rfl⟩,
      List.append_assoc first second others⟩

theorem leads_flat_map {Part : Type} {parts : List Part} {seen : Bool} (write : Part → Text)
    (items : Part → List Item)
    (leads : ∀ part ∈ parts, Leads seen (write part) (items part) seen) :
    Leads seen (parts.flatMap write) (parts.flatMap items) seen := by
  induction parts with
  | nil => exact leads_nil seen
  | cons part rest induction =>
      rw [List.flatMap_cons, List.flatMap_cons]
      exact leads_append (leads part (by simp))
        (induction fun other member => leads other (by simp [member]))

theorem gives_of_leads {seen after : Bool} {text : Text} {items : List Item}
    (leads : Leads seen text items after) : Gives seen text items := by
  have whole := (leads [] items).2 ⟨[], (gives_nil _ _).2 rfl, (List.append_nil items).symm⟩
  rwa [List.append_nil] at whole

theorem leads_of_step {seen : Bool} {chunk : Text} {found : List Item} (nonempty : chunk ≠ [])
    (stepped : ∀ rest, ∃ overrun, step seen (chunk ++ rest) = ⟨found, .ok rest, overrun⟩) :
    Leads seen chunk found (seen || found.any Item.isPreamble) := by
  intro rest items
  obtain ⟨overrun, same⟩ := stepped rest
  exact gives_step_iff (List.append_ne_nil_of_left_ne_nil nonempty rest) same

theorem first_line {line : Text} (single : '\n' ∉ line) (rest : Text) :
    (line ++ '\n' :: rest).takeWhile (fun char => char != '\n') = line ∧
      nextLine (line ++ '\n' :: rest) = rest := by
  have inside : ∀ char ∈ line, (char != '\n') = true := by
    intro char member
    rw [bne_iff_ne]
    intro same
    subst same
    exact single member
  have outside : ∀ char ∈ ('\n' :: rest).head?, (char != '\n') = false := by
    intro char member
    obtain rfl : '\n' = char := Option.some.inj member
    rfl
  refine ⟨take_while_exact inside outside, ?_⟩
  rw [nextLine, drop_while_exact inside outside]
  rfl

theorem line_step_ok {line : Text} (single : '\n' ∉ line) (rest : Text) (items : List Item) :
    lineStep (line ++ '\n' :: rest) items = ⟨items, .ok rest, 0⟩ := by
  rw [lineStep, (first_line single rest).2, if_pos (by simp)]

theorem leads_blank_line (seen : Bool) : Leads seen ['\n'] [] seen := by
  have leads : Leads seen ['\n'] [] (seen || [].any Item.isPreamble) := by
    apply leads_of_step (by simp)
    intro rest
    exact ⟨0, line_step_ok (List.not_mem_nil) rest []⟩
  simpa using leads

theorem leads_comment (seen : Bool) {comment : Text} (line : CommentText comment) :
    Leads seen ('%' :: (comment ++ ['\n'])) [.comment comment] seen := by
  have leads : Leads seen ('%' :: (comment ++ ['\n'])) [.comment comment]
      (seen || [Item.comment comment].any Item.isPreamble) := by
    apply leads_of_step (by simp)
    intro rest
    have single : '\n' ∉ '%' :: comment := by
      intro member
      rcases List.mem_cons.1 member with same | later
      · simp at same
      · exact line.1 later
    have ends : EndsSolid ('%' :: comment) := by
      by_cases empty : comment = []
      · rw [empty]
        exact ends_solid_singleton (by decide)
      · exact ends_solid_append ['%'] line.2 empty
    have trimmed : trim ('%' :: comment) = '%' :: comment :=
      trim_solid (starts_solid_cons comment (by decide)) ends
    have parts : '%' :: (comment ++ ['\n']) ++ rest = ('%' :: comment) ++ '\n' :: rest := by simp
    refine ⟨0, ?_⟩
    rw [parts]
    unfold step
    simp only [(first_line single rest).1, trimmed, after_cons]
    rw [if_neg (by simp)]
    exact line_step_ok single rest _
  simpa [Item.isPreamble] using leads

theorem trim_cons_solid {char : Char} (solid : isBlank char = false) (rest : Text) :
    ∃ tail, trim (char :: rest) = char :: tail := by
  obtain ⟨lead, gap, leadBlanks, gapBlanks, parts⟩ := trim_split (char :: rest)
  rw [List.append_assoc] at parts
  have noLead : lead = [] := by
    apply gap_eq_nil leadBlanks
    rw [← parts]
    exact starts_solid_cons rest solid
  rw [noLead, List.nil_append] at parts
  cases trimmed : trim (char :: rest) with
  | nil =>
      rw [trimmed, List.nil_append] at parts
      have blank := gapBlanks char (by rw [← parts]; simp)
      rw [solid] at blank
      simp at blank
  | cons first tail =>
      rw [trimmed] at parts
      exact ⟨tail, by rw [(List.cons.inj parts).1]⟩

theorem kind_starts_solid {kind : Text} (kinded : KindText kind) (rest : Text) :
    StartsSolid (kind ++ rest) := by
  obtain ⟨first, others, rfl, letter, _⟩ := kinded
  apply starts_solid_cons
  have small : first.toNat < 128 := by
    rcases Bool.or_eq_true_iff.1 letter with alpha | underscore
    · exact small_of_alpha alpha
    · rw [beq_iff_eq] at underscore
      subst underscore
      decide
  have checked := ascii_all (fun char => !(char.isAlpha || char == '_') || !isBlank char)
    (by decide) small
  simpa [letter] using checked

theorem read_header_braces {kind : Text} (kinded : KindText kind) (body : Text) :
    readHeader? ('@' :: (kind ++ '{' :: body)) = some ⟨kind, .braces, body⟩ := by
  have solid := kind_starts_solid kinded ('{' :: body)
  obtain ⟨first, others, rfl, letter, words⟩ := kinded
  have ending : ∀ char ∈ ('{' :: body).head?, isWord char = false := by
    intro char member
    obtain rfl : '{' = char := Option.some.inj member
    decide
  have opened : skipBlank ('{' :: body) = '{' :: body :=
    skip_blank_solid (starts_solid_cons body (by decide))
  simp only [readHeader?, after_cons, skip_blank_solid solid]
  simp only [List.cons_append, letter, if_true, drop_while_exact words ending,
    take_while_exact words ending, opened]
  rfl

theorem step_block (seen : Bool) {kind : Text} (kinded : KindText kind) (body : Text) :
    step seen ('@' :: (kind ++ '{' :: body)) =
      match readBlock seen ('@' :: (kind ++ '{' :: body)) ⟨kind, .braces, body⟩ with
      | .error fault => ⟨[], .error fault, 0⟩
      | .ok (items, rest) => ⟨items, .ok rest, 0⟩ := by
  have header := read_header_braces kinded body
  have found : findHeader? ('@' :: (kind ++ '{' :: body)) =
      some ([], '@' :: (kind ++ '{' :: body), ⟨kind, .braces, body⟩) := by
    rw [findHeader?, if_neg (by decide), header]
  have line : ('@' :: (kind ++ '{' :: body)).takeWhile (fun char => char != '\n') =
      '@' :: (kind ++ '{' :: body).takeWhile fun char => char != '\n' := rfl
  obtain ⟨tail, trimmed⟩ := trim_cons_solid (show isBlank '@' = false by decide)
    ((kind ++ '{' :: body).takeWhile fun char => char != '\n')
  have noPercent : after? '%' ('@' :: tail) = none := by simp [after?]
  simp only [step, line, trimmed, noPercent, found]
  rw [if_neg (by simp)]
  cases readBlock seen ('@' :: (kind ++ '{' :: body)) ⟨kind, .braces, body⟩ <;> rfl

theorem leads_block {seen : Bool} {kind body : Text} {items : List Item} (kinded : KindText kind)
    (read : ∀ rest, readBlock seen ('@' :: (kind ++ '{' :: (body ++ rest)))
      ⟨kind, .braces, body ++ rest⟩ = .ok (items, rest)) :
    Leads seen ('@' :: (kind ++ '{' :: body)) items (seen || items.any Item.isPreamble) := by
  apply leads_of_step (by simp)
  intro rest
  refine ⟨0, ?_⟩
  have parts : '@' :: (kind ++ '{' :: body) ++ rest = '@' :: (kind ++ '{' :: (body ++ rest)) := by
    simp
  rw [parts, step_block seen kinded, read rest]

theorem block_of_gives {seen : Bool} {kind body : Text} {items : List Item}
    (kinded : KindText kind) (given : Gives seen ('@' :: (kind ++ '{' :: body)) items) :
    ∃ found, readBlock seen ('@' :: (kind ++ '{' :: body)) ⟨kind, .braces, body⟩ = .ok found := by
  have stepped := step_block seen kinded body
  cases read : readBlock seen ('@' :: (kind ++ '{' :: body)) ⟨kind, .braces, body⟩ with
  | ok found => exact ⟨found, rfl⟩
  | error fault =>
      rw [read] at stepped
      exact absurd given (not_gives_of_fault (by simp) (congrArg Step.next stepped))

theorem read_block_entry {kind : Text} (ordinary : lower kind ∉ blockKinds) (seen : Bool)
    (opening body : Text) :
    readBlock seen opening ⟨kind, .braces, body⟩ =
      (readEntry kind .braces opening body).map fun read => ([.entry read.1], read.2) := by
  unfold blockKinds at ordinary
  rw [List.mem_cons, List.mem_cons, List.mem_singleton, not_or, not_or] at ordinary
  unfold readBlock
  simp only
  rw [if_neg ordinary.1, if_neg ordinary.2.1, if_neg ordinary.2.2]

theorem leads_entry (seen : Bool) {kind body key : Text} {listed : List Field}
    (kinded : KindText kind) (ordinary : lower kind ∉ blockKinds)
    (written : EntryText '}' body key listed) :
    Leads seen ('@' :: (kind ++ '{' :: body)) [.entry (entryOf kind key listed)] seen := by
  have leads : Leads seen ('@' :: (kind ++ '{' :: body)) [.entry (entryOf kind key listed)]
      (seen || [Item.entry (entryOf kind key listed)].any Item.isPreamble) := by
    apply leads_block kinded
    intro rest
    have closer : EntryText Enclosure.braces.closer body key listed := written
    rw [read_block_entry ordinary, read_entry_complete kind _ rest closer]
    rfl
  simpa [Item.isPreamble] using leads

theorem read_value_before_brace {value : Value} (sound : SoundValue value) {lead : Text}
    (blanks : IsGap lead) (rest : Text) :
    readValue (lead ++ value.written ++ '}' :: rest) = .ok (value, '}' :: rest) :=
  read_value_complete sound blanks (ends_value_gap is_gap_nil rest (by decide) (by decide))

theorem expect_brace (context rest : Text) :
    expect [Enclosure.braces.closer] context ('}' :: rest) = .ok ('}', rest) :=
  expect_complete context rest is_gap_nil (by decide) (by decide)

theorem read_preamble_complete {value : Value} (sound : SoundValue value) (rest : Text) :
    readPreamble .braces (value.written ++ '}' :: rest) = .ok (value, rest) := by
  have read := read_value_before_brace sound is_gap_nil rest
  rw [List.nil_append] at read
  unfold readPreamble
  rw [read]
  dsimp only
  rw [expect_brace]

theorem leads_preamble {value : Value} (sound : SoundValue value) :
    Leads false ('@' :: ("preamble".toList ++ '{' :: (value.written ++ ['}'])))
      [.preamble value] true := by
  have kinded : KindText "preamble".toList := ⟨'p', "reamble".toList, rfl, rfl,
    List.all_eq_true.1 (by decide)⟩
  apply leads_block kinded
  intro rest
  have same : lower "preamble".toList = "preamble".toList := by decide
  unfold readBlock
  dsimp only
  rw [same, if_neg (by decide), if_pos rfl, if_neg (by simp), List.append_assoc,
    List.singleton_append, read_preamble_complete sound]
  rfl

theorem read_abbreviation_complete {abbreviation : Abbreviation}
    (sound : SoundAbbreviation abbreviation) (rest : Text) :
    readAbbreviation .braces (abbreviation.name ++ [' '] ++
      '=' :: ([' '] ++ (abbreviation.value.written ++ '}' :: rest))) =
        .ok (abbreviation, rest) := by
  have space : IsGap [' '] := is_gap_cons.2 ⟨by decide, is_gap_nil⟩
  have solid : StartsSolid (abbreviation.name ++ [' '] ++
      '=' :: ([' '] ++ (abbreviation.value.written ++ '}' :: rest))) := by
    rw [List.append_assoc]
    exact name_starts_solid sound.named _
  have read := read_value_before_brace sound.valued is_gap_nil rest
  rw [List.nil_append] at read
  unfold readAbbreviation
  dsimp only
  rw [skip_blank_solid solid, read_assignment_complete sound.named space space
    (value_starts_solid sound.valued ('}' :: rest))]
  dsimp only
  rw [read]
  dsimp only
  rw [expect_brace]

theorem leads_abbreviation (seen : Bool) {abbreviation : Abbreviation}
    (sound : SoundAbbreviation abbreviation) :
    Leads seen ('@' :: ("string".toList ++ '{' :: (abbreviation.name ++ [' '] ++
      '=' :: ([' '] ++ (abbreviation.value.written ++ ['}']))))) [.abbreviation abbreviation]
      seen := by
  have kinded : KindText "string".toList := ⟨'s', "tring".toList, rfl, rfl,
    List.all_eq_true.1 (by decide)⟩
  have leads : Leads seen ('@' :: ("string".toList ++ '{' :: (abbreviation.name ++ [' '] ++
      '=' :: ([' '] ++ (abbreviation.value.written ++ ['}']))))) [.abbreviation abbreviation]
      (seen || [Item.abbreviation abbreviation].any Item.isPreamble) := by
    apply leads_block kinded
    intro rest
    have same : lower "string".toList = "string".toList := by decide
    have parts : abbreviation.name ++ [' '] ++
        '=' :: ([' '] ++ (abbreviation.value.written ++ ['}'])) ++ rest =
        abbreviation.name ++ [' '] ++
          '=' :: ([' '] ++ (abbreviation.value.written ++ '}' :: rest)) := by simp
    unfold readBlock
    dsimp only
    rw [same, if_neg (by decide), if_neg (by decide), if_pos rfl, parts,
      read_abbreviation_complete sound]
    rfl
  simpa [Item.isPreamble] using leads

end Bibliography.Source

namespace Bibliography

/-- There is a result, and it passes the check. -/
def passes {Failure Result : Type} (outcome : Except Failure Result) (check : Result → Bool) :
    Bool :=
  match outcome with
  | .ok result => check result
  | .error _ => false

theorem ok_of_passes {Failure Result : Type} {outcome : Except Failure Result}
    {check : Result → Bool} (passed : passes outcome check = true) :
    ∃ result, outcome = .ok result ∧ check result = true := by
  cases outcome with
  | ok result => exact ⟨result, rfl, passed⟩
  | error failure => exact absurd passed (by simp [passes])

end Bibliography
