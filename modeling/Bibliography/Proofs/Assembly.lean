import Bibliography.Proofs.Lists
import Bibliography.Proofs.Render
import Bibliography.Proofs.Source.Draft
import Bibliography.Proofs.Source.Items

/-!
An assembled document is read back piece by piece. The lines before and after the
entries come back as they are, and each entry comes back with its kind in lower case,
its written names, and values that stand for what was rendered.
-/

namespace Bibliography

open Text Source

/-- Every kind consists of ASCII characters, so that its lower case is a kind too. -/
def AsciiKind (kind : Text) : Prop := ∀ char ∈ kind, char.toNat < 128

namespace Text

theorem lower_after_ascii (afterCased : Bool) {text : Text} (ascii : AsciiKind text) :
    lowerAfter afterCased text = text.map Char.toLower := by
  induction text generalizing afterCased with
  | nil => rfl
  | cons char rest induction =>
      have small := ascii char (by simp)
      have noSigma : char ≠ 'Σ' := by
        intro same
        subst same
        exact absurd small (by decide)
      have single : lowerChar char = [char.toLower] := if_pos small
      rw [lowerAfter, if_neg noSigma, single,
        induction _ fun other member => ascii other (by simp [member])]
      rfl

theorem ascii_lower {kind : Text} (ascii : AsciiKind kind) : AsciiKind (lower kind) := by
  intro char member
  rw [lower, lower_after_ascii false ascii] at member
  obtain ⟨before, known, rfl⟩ := List.mem_map.1 member
  have small := ascii_all (fun char => decide (char.toLower.toNat < 128)) (by decide)
    (ascii before known)
  exact of_decide_eq_true small

end Text

namespace Source

def lowersInKind (char : Char) : Bool :=
  (!(char.isAlpha || char == '_') || (char.toLower.isAlpha || char.toLower == '_')) &&
    (!isWord char || isWord char.toLower)

theorem kind_text_lower {kind : Text} (kinded : KindText kind) (ascii : AsciiKind kind) :
    KindText (lower kind) := by
  have checked : ∀ char ∈ kind, lowersInKind char = true := fun char member =>
    ascii_all lowersInKind (by decide) (ascii char member)
  rw [lower, lower_after_ascii false ascii]
  obtain ⟨first, others, rfl, letter, words⟩ := kinded
  refine ⟨first.toLower, others.map Char.toLower, rfl, ?_, ?_⟩
  · have found := checked first (by simp)
    simp only [lowersInKind, letter, Bool.not_true, Bool.false_or, Bool.and_eq_true] at found
    exact found.1
  · intro char member
    obtain ⟨before, known, rfl⟩ := List.mem_map.1 member
    have found := checked before (by simp [known])
    simp only [lowersInKind, words before known, Bool.not_true, Bool.false_or,
      Bool.and_eq_true] at found
    exact found.2

end Source

/-- What an entry looks like when its rendered form has been read. -/
structure ReadsBack (options : Options) (entry again : Entry) : Prop where
  kind : again.kind = lower entry.kind
  key : again.key = entry.key
  comments : again.comments = entry.comments
  names : again.fields.names = options.writtenNames entry
  values : ∀ name ∈ again.fields.names,
    (again.get? name).map Value.written = (entry.get? name).map (options.renderValue name)

namespace Options

variable {options : Options}

theorem names_of_rereads {fields again : List Field}
    (rereads : List.Forall₂ options.Rereads fields again) :
    Field.names again = Field.names fields :=
  map_of_related (fun _ _ read => read.named) rereads

theorem find_of_rereads {fields again : List Field}
    (rereads : List.Forall₂ options.Rereads fields again) (name : Text) :
    (Field.find? again name).map Value.written =
      (Field.find? fields name).map (options.renderValue name) := by
  induction rereads with
  | nil => rfl
  | @cons field other _ _ read _ induction =>
      rw [Field.find_cons, Field.find_cons, read.named]
      by_cases same : field.1 = name
      · rw [if_pos same, if_pos same, Option.map_some, Option.map_some, ← same,
          value_text_written read.valued]
      · rw [if_neg same, if_neg same, induction]

theorem find_written_fields {entry : Entry} {name : Text}
    (member : name ∈ options.writtenNames entry) :
    Field.find? (options.writtenFields entry) name = entry.get? name := by
  obtain ⟨value, found⟩ := get_of_mem_names (mem_written_names member)
  have distinct : (Field.names (options.writtenFields entry)).Nodup := by
    rw [names_written_fields]
    exact nodup_written_names options entry
  rw [found, Field.find_eq_some_iff distinct]
  exact List.mem_filterMap.2 ⟨name, member, by rw [found]; rfl⟩

def reread (entry : Entry) (again : List Field) : Entry :=
  ⟨lower entry.kind, entry.key, Fields.ofList again, entry.comments⟩

theorem reads_back_of_rereads {entry : Entry} {again : List Field}
    (rereads : List.Forall₂ options.Rereads (options.writtenFields entry) again) :
    ReadsBack options entry (reread entry again) := by
  have names : Field.names again = options.writtenNames entry := by
    rw [names_of_rereads rereads, names_written_fields]
  have list : (Fields.ofList again).toList = again := by
    apply Fields.of_list_distinct
    rw [names]
    exact nodup_written_names options entry
  have sameNames : (reread entry again).fields.names = options.writtenNames entry := by
    rw [← names, reread, Fields.names, list]
  refine ⟨rfl, rfl, rfl, sameNames, ?_⟩
  intro name member
  rw [sameNames] at member
  rw [← find_written_fields member, ← find_of_rereads rereads]
  unfold Entry.get? reread
  dsimp only
  rw [Fields.get_eq_find, list]

theorem rereads_of_readable {fields : List Field}
    (readable : ∀ field ∈ fields, options.Readable field) :
    ∃ again, List.Forall₂ options.Rereads fields again := by
  induction fields with
  | nil => exact ⟨[], .nil⟩
  | cons field rest induction =>
      obtain ⟨value, valued⟩ := readable field (by simp)
      obtain ⟨others, read⟩ := induction fun other member => readable other (by simp [member])
      exact ⟨(field.1, value) :: others, .cons ⟨rfl, valued⟩ read⟩

/-- The items of an entry: its comments, and the entry without them. -/
def entryItems (entry : Entry) : List Item :=
  entry.comments.map Item.comment ++ [.entry { entry with comments := [] }]

theorem leads_comments (seen : Bool) {comments : List Text}
    (lines : ∀ comment ∈ comments, CommentText comment) :
    Leads seen (renderComments comments) (comments.map Item.comment) seen := by
  rw [← List.flatMap_singleton' (comments.map Item.comment), List.flatMap_map]
  exact leads_flat_map renderComment (fun comment => [Item.comment comment])
    fun comment member => leads_comment seen (lines comment member)

theorem lowered_rereads {fields again : List Field}
    (settled : ∀ field ∈ fields, lower field.1 = field.1)
    (rereads : List.Forall₂ options.Rereads fields again) : again.map lowered = again := by
  induction rereads with
  | nil => rfl
  | @cons field other _ _ read _ induction =>
      rw [List.map_cons, induction fun field member => settled field (by simp [member])]
      congr 1
      rw [lowered, read.named, settled field (by simp), ← read.named]

theorem leads_render_entry (seen : Bool) {entry : Entry} (sound : SoundEntry entry)
    (ascii : AsciiKind entry.kind) {again : List Field}
    (rereads : List.Forall₂ options.Rereads (options.writtenFields entry) again) :
    Leads seen (options.renderEntry entry ++ ['\n']) (entryItems (reread entry again)) seen := by
  have settled : ∀ field ∈ options.writtenFields entry, lower field.1 = field.1 :=
    fun field member => (sound.fields field (mem_written_fields member)).lowered
  have block := leads_entry seen (kind_text_lower sound.kind ascii)
    (by rw [lower_lower]; exact sound.ordinary) (entry_text_render sound rereads)
  rw [entryOf, lowered_rereads settled rereads] at block
  have whole := leads_append (leads_comments seen sound.comments)
    (leads_append block (leads_blank_line seen))
  rw [render_entry_eq, List.append_assoc]
  exact whole

theorem render_entries_eq (options : Options) (entries : List Entry) :
    options.renderEntries entries =
      entries.flatMap fun entry => options.renderEntry entry ++ ['\n'] := by
  unfold renderEntries
  cases entries with
  | nil => rfl
  | cons entry rest =>
      rw [if_neg (by simp)]
      induction rest generalizing entry with
      | nil => simp [joinWith, List.intercalate]
      | cons next others induction =>
          have tail := induction next
          rw [List.map_cons, List.map_cons, join_with_cons_cons, List.flatMap_cons, ← tail]
          simp

theorem leads_render_entries (seen : Bool) {entries : List Entry}
    (sound : ∀ entry ∈ entries, SoundEntry entry) (ascii : ∀ entry ∈ entries, AsciiKind entry.kind)
    (readable : ∀ entry ∈ entries, ∀ field ∈ options.writtenFields entry,
      options.Readable field) :
    ∃ again, List.Forall₂ (ReadsBack options) entries again ∧
      Leads seen (options.renderEntries entries) (again.flatMap entryItems) seen := by
  rw [render_entries_eq]
  induction entries with
  | nil => exact ⟨[], .nil, leads_nil seen⟩
  | cons entry rest induction =>
      obtain ⟨others, reads, leads⟩ := induction
        (fun other member => sound other (by simp [member]))
        (fun other member => ascii other (by simp [member]))
        fun other member => readable other (by simp [member])
      obtain ⟨fields, rereads⟩ := rereads_of_readable (readable entry (by simp))
      refine ⟨reread entry fields :: others, .cons (reads_back_of_rereads rereads) reads, ?_⟩
      rw [List.flatMap_cons, List.flatMap_cons]
      exact leads_append
        (leads_render_entry seen (sound entry (by simp)) (ascii entry (by simp)) rereads) leads

end Options

namespace Source

def headItems (document : Document) : List Item :=
  document.commentsBefore.map Item.comment ++
    (document.preamble.toList.map Item.preamble ++
      document.abbreviations.map Item.abbreviation)

/-- The part of an assembled document that stands before the entries. -/
def renderHead (document : Document) : Text :=
  renderComments document.commentsBefore ++
    (document.preamble.map renderPreamble).getD [] ++
    document.abbreviations.flatMap Abbreviation.render

theorem render_preamble_eq (value : Value) :
    renderPreamble value =
      '@' :: ("preamble".toList ++ '{' :: (value.written ++ ['}'])) ++ ['\n'] := by
  change '@' :: ("preamble".toList ++ ['{']) ++ value.written ++ ['}', '\n'] = _
  generalize "preamble".toList = kind
  simp

theorem render_abbreviation_eq (abbreviation : Abbreviation) :
    abbreviation.render =
      '@' :: ("string".toList ++ '{' :: (abbreviation.name ++ [' '] ++
        '=' :: ([' '] ++ (abbreviation.value.written ++ ['}'])))) ++ ['\n'] := by
  change '@' :: ("string".toList ++ ['{']) ++ abbreviation.name ++ [' ', '=', ' '] ++
    abbreviation.value.written ++ ['}', '\n'] = _
  generalize "string".toList = kind
  simp

theorem leads_render_head {document : Document} (sound : SoundDocument document) :
    Leads false (renderHead document) (headItems document) document.preamble.isSome := by
  have comments := Options.leads_comments false sound.commentsBefore
  have preamble : Leads false ((document.preamble.map renderPreamble).getD [])
      (document.preamble.toList.map Item.preamble) document.preamble.isSome := by
    cases given : document.preamble with
    | none => exact leads_nil false
    | some value =>
        have leads := leads_append (leads_preamble (sound.preamble value given))
          (leads_blank_line true)
        rw [← render_preamble_eq] at leads
        exact leads
  have abbreviations : Leads document.preamble.isSome
      (document.abbreviations.flatMap Abbreviation.render)
      (document.abbreviations.map Item.abbreviation) document.preamble.isSome := by
    rw [← List.flatMap_singleton' (document.abbreviations.map Item.abbreviation),
      List.flatMap_map]
    apply leads_flat_map Abbreviation.render fun abbreviation => [Item.abbreviation abbreviation]
    intro abbreviation member
    have leads := leads_append
      (leads_abbreviation document.preamble.isSome (sound.abbreviations abbreviation member))
      (leads_blank_line document.preamble.isSome)
    rw [← render_abbreviation_eq] at leads
    exact leads
  unfold renderHead headItems
  rw [List.append_assoc]
  exact leads_append comments (leads_append preamble abbreviations)

namespace Draft

theorem add_all_abbreviations (document : Document) (abbreviations : List Abbreviation) :
    addAll ⟨[], document⟩ (abbreviations.map Item.abbreviation) =
      ⟨[], { document with abbreviations := document.abbreviations ++ abbreviations }⟩ := by
  induction abbreviations generalizing document with
  | nil => simp [addAll]
  | cons abbreviation rest induction =>
      have step : add ⟨[], document⟩ (.abbreviation abbreviation) =
          ⟨[], { document with abbreviations := document.abbreviations ++ [abbreviation] }⟩ := by
        simp [add, addAbbreviation, settle]
      rw [List.map_cons, addAll, List.foldl_cons, ← addAll, step, induction]
      simp

theorem add_all_entries (document : Document) (entries : List Entry) :
    addAll ⟨[], document⟩ (entries.flatMap Options.entryItems) =
      ⟨[], { document with entries := document.entries ++ entries }⟩ := by
  induction entries generalizing document with
  | nil => simp [addAll]
  | cons entry rest induction =>
      have step : addAll ⟨[], document⟩ (Options.entryItems entry) =
          ⟨[], { document with entries := document.entries ++ [entry] }⟩ := by
        rw [Options.entryItems, add_all_append, add_all_comments]
        rfl
      rw [List.flatMap_cons, add_all_append, step, induction]
      simp

/-- Comments at the front are settled by the preamble or the first abbreviation. -/
theorem add_all_head {document : Document} (sound : SoundDocument document) :
    addAll {} (headItems document) =
      ⟨[], { document with commentsAfter := [], entries := [] }⟩ := by
  rw [headItems, add_all_append, add_all_append, add_all_comments]
  cases given : document.preamble with
  | some value =>
      have step : addAll ⟨[] ++ document.commentsBefore, {}⟩
          ((some value).toList.map Item.preamble) =
          ⟨[], { preamble := some value, commentsBefore := document.commentsBefore }⟩ := rfl
      rw [step, add_all_abbreviations]
      rfl
  | none =>
      cases listed : document.abbreviations with
      | nil =>
          have noComments : document.commentsBefore = [] := by
            rcases sound.anchored with empty | some | nonempty
            · exact empty
            · rw [given] at some
              simp at some
            · exact absurd listed nonempty
          rw [noComments]
          rfl
      | cons abbreviation rest =>
          have step : add ⟨[] ++ document.commentsBefore, {}⟩ (.abbreviation abbreviation) =
              ⟨[], { commentsBefore := document.commentsBefore
                     abbreviations := [abbreviation] }⟩ := rfl
          have none : addAll ⟨[] ++ document.commentsBefore, {}⟩
              ((none : Option Value).toList.map Item.preamble) =
              ⟨[] ++ document.commentsBefore, {}⟩ := rfl
          rw [none, List.map_cons, addAll, List.foldl_cons, ← addAll, step, add_all_abbreviations]
          rfl

end Draft

end Source

/-- An assembled document whose fields are all readable is read back. -/
theorem assembled_read {options : Options} {document : Document} {entries : List Entry}
    (sound : SoundDocument document) (entriesSound : ∀ entry ∈ entries, SoundEntry entry)
    (ascii : ∀ entry ∈ entries, AsciiKind entry.kind)
    (readable : ∀ entry ∈ entries, ∀ field ∈ options.writtenFields entry,
      options.Readable field) :
    ∃ again, Document.parse (options.assemble document entries) =
        .ok { document with entries := again } ∧
      List.Forall₂ (ReadsBack options) entries again := by
  obtain ⟨again, reads, leads⟩ :=
    Options.leads_render_entries document.preamble.isSome entriesSound ascii readable
  have text : options.assemble document entries =
      renderHead document ++ (options.renderEntries entries ++
        renderComments document.commentsAfter) := by
    rw [Options.assemble, renderHead, List.append_assoc, List.append_assoc, List.append_assoc]
  have whole := leads_append (leads_render_head sound)
    (leads_append leads (Options.leads_comments _ sound.commentsAfter))
  refine ⟨again, ?_, reads⟩
  rw [parse_ok_iff]
  refine ⟨_, by rw [text]; exact gives_of_leads whole, ?_⟩
  rw [Draft.add_all_append, Draft.add_all_append, Draft.add_all_head sound,
    Draft.add_all_entries, Draft.add_all_comments]
  rfl

end Bibliography
