import Bibliography.Proofs.Accounts
import Bibliography.Proofs.Tidy

/-!
What a run does with comments. A comment is written on a line of its own together with
the block it belongs to. The comments of an entry that is merged into another one are not
taken over, so these, and only these, are lost.
-/

namespace Bibliography

open Text Source

namespace Text

theorem split_nonempty (mark : Char) (text : Text) : split mark text ≠ [] := by
  cases text with
  | nil => simp [split]
  | cons char rest =>
      unfold split
      split
      · simp
      · split <;> simp

theorem lines_append (front rest : Text) :
    lines (front ++ '\n' :: rest) = lines front ++ lines rest := by
  induction front with
  | nil => rfl
  | cons char others induction =>
      unfold lines at induction ⊢
      rw [List.cons_append, split]
      by_cases feed : char = '\n'
      · rw [if_pos feed, induction, split, if_pos feed, List.cons_append]
      · rw [if_neg feed, induction]
        conv => rhs; rw [split, if_neg feed]
        cases pieces : split '\n' others with
        | nil => exact absurd pieces (split_nonempty '\n' others)
        | cons first more => rfl

theorem lines_single {line : Text} (single : '\n' ∉ line) : lines line = [line] := by
  induction line with
  | nil => rfl
  | cons char rest induction =>
      rw [List.mem_cons, not_or] at single
      have tail := induction single.2
      unfold lines at tail ⊢
      rw [split, if_neg (Ne.symm single.1), tail]

end Text

/-- How often a comment stands on a line of its own. -/
def commentLines (text comment : Text) : Nat := (lines text).count ('%' :: comment)

def Shows (text : Text) (comments : List Text) : Prop :=
  ∀ rest comment,
    comments.count comment + commentLines rest comment ≤ commentLines (text ++ rest) comment

namespace Shows

theorem nil : Shows [] [] := by
  intro rest comment
  simp

theorem append {front back : Text} {first second : List Text} (showsFirst : Shows front first)
    (showsSecond : Shows back second) : Shows (front ++ back) (first ++ second) := by
  intro rest comment
  have early := showsFirst (back ++ rest) comment
  have late := showsSecond rest comment
  rw [List.append_assoc, List.count_append]
  omega

theorem flat_map {Part : Type} {parts : List Part} (write : Part → Text)
    (comments : Part → List Text) (shows : ∀ part ∈ parts, Shows (write part) (comments part)) :
    Shows (parts.flatMap write) (parts.flatMap comments) := by
  induction parts with
  | nil => exact nil
  | cons part rest induction =>
      rw [List.forall_mem_cons] at shows
      rw [List.flatMap_cons, List.flatMap_cons]
      exact append shows.1 (induction shows.2)

theorem other (front : Text) : Shows (front ++ ['\n']) [] := by
  intro rest comment
  have parts : front ++ ['\n'] ++ rest = front ++ '\n' :: rest := by simp
  unfold commentLines
  rw [parts, lines_append, List.count_append, List.count_nil]
  omega

theorem comment {comment : Text} (line : CommentText comment) :
    Shows (renderComment comment) [comment] := by
  intro rest other
  have single : '\n' ∉ '%' :: comment := by
    intro member
    rcases List.mem_cons.1 member with same | inside
    · exact absurd same (by decide)
    · exact line.1 inside
  have parts : renderComment comment ++ rest = ('%' :: comment) ++ '\n' :: rest := by
    simp [renderComment]
  unfold commentLines
  rw [parts, lines_append, lines_single single, List.count_append]
  by_cases same : comment = other
  · simp [same]
  · simp [same]

theorem comments {listed : List Text} (lines : ∀ comment ∈ listed, CommentText comment) :
    Shows (renderComments listed) listed := by
  have shows := flat_map renderComment (fun comment => [comment])
    fun other member => comment (lines other member)
  rw [List.flatMap_singleton'] at shows
  exact shows

theorem entry (options : Options) {entry : Entry}
    (lines : ∀ comment ∈ entry.comments, CommentText comment) :
    Shows (options.renderEntry entry ++ ['\n']) entry.comments := by
  have block := other ('@' :: (lower entry.kind ++ '{' :: (entry.key ++ ",\n".toList ++
    joinWith ",\n".toList (options.renderFields entry) ++ "\n\x7d".toList)))
  have whole := append (comments lines) block
  rw [List.append_nil, ← List.append_assoc] at whole
  exact whole

theorem entries (options : Options) {entries : List Entry}
    (lines : ∀ entry ∈ entries, ∀ comment ∈ entry.comments, CommentText comment) :
    Shows (options.renderEntries entries) (entries.flatMap Entry.comments) := by
  rw [Options.render_entries_eq]
  exact flat_map _ Entry.comments fun part member => entry options (lines part member)

theorem blocks (document : Document) :
    Shows ((document.preamble.map renderPreamble).getD [] ++
      document.abbreviations.flatMap Abbreviation.render) [] := by
  have preamble : Shows ((document.preamble.map renderPreamble).getD []) [] := by
    cases document.preamble with
    | none => exact nil
    | some value =>
        have shows := other ('@' :: ("preamble".toList ++ '{' :: (value.written ++ ['}'])))
        rw [← render_preamble_eq] at shows
        exact shows
  have abbreviations : Shows (document.abbreviations.flatMap Abbreviation.render) [] := by
    have shows : Shows (document.abbreviations.flatMap Abbreviation.render)
        (document.abbreviations.flatMap fun _ => []) := by
      apply flat_map
      intro abbreviation _
      rw [render_abbreviation_eq]
      exact other _
    rw [List.flatMap_eq_nil_iff.2 fun _ _ => rfl] at shows
    exact shows
  exact append preamble abbreviations

end Shows

/-- The comments written with a document whose entries have become these records. -/
def Document.writtenComments (document : Document) (records : List Record) : List Text :=
  document.commentsBefore ++ records.flatMap (fun record => record.entry.comments) ++
    document.commentsAfter

/-- The comments of entries that were merged away. -/
def Tidied.lostComments (tidied : Tidied) : List Text :=
  tidied.duplicates.flatMap fun duplicate => duplicate.record.entry.comments

namespace Options

variable (options : Options)

theorem shows_assembled {document : Document} {records : List Record}
    (lines : ∀ comment ∈ document.writtenComments records, CommentText comment) :
    Shows (options.assemble document (records.map Record.entry))
      (document.writtenComments records) := by
  have before := Shows.comments fun comment member =>
    lines comment (List.mem_append_left _ (List.mem_append_left _ member))
  have after := Shows.comments fun comment member =>
    lines comment (List.mem_append_right _ member)
  have inside : ∀ entry ∈ records.map Record.entry, ∀ comment ∈ entry.comments,
      CommentText comment := by
    intro entry member comment known
    rcases List.mem_map.1 member with ⟨record, listed, rfl⟩
    apply lines comment
    exact List.mem_append_left _ (List.mem_append_right _
      (List.mem_flatMap.2 ⟨record, listed, known⟩))
  have whole := ((before.append (Shows.blocks document)).append
    (Shows.entries options inside)).append after
  rw [List.append_nil, List.flatMap_map, ← List.append_assoc (renderComments _)] at whole
  exact whole

theorem entry_comments_divided (document : Document) :
    ((options.tidy document).records.flatMap (fun record => record.entry.comments) ++
      (options.tidy document).lostComments).Perm (document.entries.flatMap Entry.comments) := by
  have written := (options.tidy_records_perm document).flatMap_right
    fun record => record.entry.comments
  have lost : (options.tidy document).lostComments =
      (options.mergeRecords (Record.ofEntries document.entries)).2.flatMap
        fun duplicate => duplicate.record.entry.comments := by
    rw [Tidied.lostComments, tidy_duplicates_eq, List.flatMap_map]
    simp only [key_record_entry]
  have divided := (options.merge_records_divided document).all.flatMap_right
    fun record => record.entry.comments
  have read : (Record.ofEntries document.entries).flatMap (fun record => record.entry.comments) =
      document.entries.flatMap Entry.comments := by
    rw [← Record.map_entry_of_entries document.entries, List.flatMap_map,
      Record.map_entry_of_entries]
  rw [List.flatMap_map] at written
  simp only [(options.finish_survivor_copy document _).comments] at written
  rw [List.flatMap_append, List.flatMap_map, List.flatMap_map, List.flatMap_map,
    List.flatMap_map] at divided
  rw [lost, ← read]
  exact (written.append_right _).trans divided

theorem comments_divided (document : Document) :
    (document.writtenComments (options.tidy document).records ++
      (options.tidy document).lostComments).Perm document.comments := by
  have divided := options.entry_comments_divided document
  apply List.perm_iff_count.2
  intro comment
  have counted := divided.count_eq comment
  simp only [Document.writtenComments, Document.comments, List.count_append] at counted ⊢
  omega

end Options

/-- Every comment of a text that is read is written or belonged to an entry that was
merged away; without merging all are written. -/
theorem comments_written_or_merged {text : Text} {document : Document}
    (parsed : Document.parse text = .ok document) (options : Options) :
    (document.writtenComments (options.tidy document).records ++
        (options.tidy document).lostComments).Perm document.comments ∧
      (∀ comment, document.comments.count comment ≤
        commentLines (options.tidy document).text comment +
          (options.tidy document).lostComments.count comment) ∧
      (options.merge = false → ∀ comment, document.comments.count comment ≤
        commentLines (options.tidy document).text comment) := by
  have sound := parse_sound parsed
  have divided := options.comments_divided document
  have lines : ∀ comment ∈ document.comments, CommentText comment := by
    intro comment member
    rcases List.mem_append.1 member with front | behind
    · rcases List.mem_append.1 front with before | inside
      · exact sound.commentsBefore comment before
      · rcases List.mem_flatMap.1 inside with ⟨entry, listed, known⟩
        exact (sound.entries entry listed).comments comment known
    · exact sound.commentsAfter comment behind
  have shows : Shows (options.tidy document).text
      (document.writtenComments (options.tidy document).records) :=
    options.shows_assembled fun comment member =>
      lines comment (divided.subset (List.mem_append_left _ member))
  have counted : ∀ comment, document.comments.count comment ≤
      commentLines (options.tidy document).text comment +
        (options.tidy document).lostComments.count comment := by
    intro comment
    have written := shows [] comment
    have parts := divided.count_eq comment
    rw [List.append_nil] at written
    rw [List.count_append] at parts
    omega
  refine ⟨divided, counted, ?_⟩
  intro off comment
  have kept := counted comment
  rw [Tidied.lostComments, options.tidy_duplicates_unmerged document off] at kept
  exact kept

/-- Two entries with one identifier, and a comment on the second. -/
def twins : Text :=
  ("@misc\x7bx, doi = \x7b10.1/a\x7d\x7d\n% Read this\n" ++
    "@misc\x7by, doi = \x7b10.1/a\x7d\x7d\n").toList

theorem merged_comment_not_written :
    let options : Options := { merge := true }
    ∃ document, Document.parse twins = .ok document ∧
      document.comments = [" Read this".toList] ∧
      commentLines (options.tidy document).text " Read this".toList = 0 ∧
      (options.tidy document).lostComments = [" Read this".toList] ∧
      document.comments.count " Read this".toList ≤
        commentLines (options.tidy document).text " Read this".toList +
          (options.tidy document).lostComments.count " Read this".toList := by
  intro options
  have passed : passes (Document.parse twins) (fun document =>
      decide (document.comments = [" Read this".toList] ∧
        commentLines (options.tidy document).text " Read this".toList = 0 ∧
        (options.tidy document).lostComments = [" Read this".toList])) = true := by
    decide +kernel
  rcases ok_of_passes passed with ⟨document, parsed, found⟩
  rcases of_decide_eq_true found with ⟨comments, unwritten, lost⟩
  exact ⟨document, parsed, comments, unwritten, lost,
    (comments_written_or_merged parsed options).2.1 " Read this".toList⟩

end Bibliography
