import Bibliography.Source.Block

/-!
A document in the making: what has been read so far and the comments that wait
for the block after them. An entry takes the waiting comments; a preamble or an
abbreviation sends them to the front of the document, the end of the text to
its back.
-/

namespace Bibliography.Source

structure Draft where
  waiting : List Text := []
  document : Document := {}

namespace Draft

/-- Waiting comments go to the front of the document. -/
def settle (draft : Draft) : Draft :=
  ⟨[], { draft.document with
    commentsBefore := draft.document.commentsBefore ++ draft.waiting }⟩

def setPreamble (draft : Draft) (value : Value) : Draft :=
  { draft with document := { draft.document with preamble := some value } }

def addAbbreviation (draft : Draft) (abbreviation : Abbreviation) : Draft :=
  { draft with document := { draft.document with
    abbreviations := draft.document.abbreviations ++ [abbreviation] } }

def addEntry (draft : Draft) (entry : Entry) : Draft :=
  ⟨[], { draft.document with
    entries := draft.document.entries ++ [{ entry with comments := draft.waiting }] }⟩

def add (draft : Draft) : Item → Draft
  | .comment text => { draft with waiting := draft.waiting ++ [text] }
  | .preamble value => (draft.setPreamble value).settle
  | .abbreviation abbreviation => (draft.addAbbreviation abbreviation).settle
  | .entry entry => draft.addEntry entry

def addAll (draft : Draft) (items : List Item) : Draft := items.foldl add draft

/-- Keeps what an unfinished block leaves behind. The comments before it go on
waiting unless it is an entry. -/
def keep (draft : Draft) : Salvage → Draft
  | .nothing => draft
  | .preamble value => draft.setPreamble value
  | .abbreviation abbreviation => draft.addAbbreviation abbreviation
  | .openEntry => { draft with waiting := [] }

/-- At the end of the text the waiting comments go to the back. -/
def finish (draft : Draft) : Draft :=
  ⟨[], { draft.document with
    commentsAfter := draft.document.commentsAfter ++ draft.waiting }⟩

end Draft

end Bibliography.Source
