import Bibliography.Latex
import Bibliography.Layout
import Bibliography.Options
import Bibliography.Record

/-!
The written form of values, entries and documents. Every value is put on one
line, changed as the options ask, and enclosed again; a field takes a line of
its own with its name padded to a fixed width.
-/

namespace Bibliography

open Text

/-- Known fields in the order in which sorted fields are written. -/
def fieldOrder : List Text :=
  ["title", "shorttitle", "author", "year", "month", "day", "journal", "booktitle", "location",
    "on", "publisher", "address", "series", "volume", "number", "pages", "doi", "isbn", "issn",
    "url", "urldate", "copyright", "category", "note", "metadata"].map String.toList

def fieldRank (name : Text) : Nat := fieldOrder.idxOf name

/-- Known names first, in the fixed order; the rest keep their order. -/
def orderNames (names : List Text) : List Text :=
  names.mergeSort fun left right => decide (fieldRank left ≤ fieldRank right)

def monthNames : List Text :=
  ["jan", "feb", "mar", "apr", "may", "jun", "jul", "aug", "sep", "oct", "nov", "dec"].map
    String.toList

def isNumeral (text : Text) : Bool := !text.isEmpty && text.all isAsciiDigit

def dropLeadingZeros (numeral : Text) : Text :=
  match numeral.dropWhile fun char => char == '0' with
  | [] => ['0']
  | digits => digits

namespace Options

def tidyText (options : Options) (name text : Text) : Text :=
  let joined := Layout.joinLines text
  let stripped := if options.stripBraces then Layout.stripBraces joined else joined
  let cased :=
    if options.dropCaps && Layout.isAllCaps stripped then Layout.titleCase stripped else stripped
  let escaped := if options.escape then Latex.escape cased else cased
  if name = "pages".toList then Layout.pageRange escaped else escaped

def monthName? (name text : Text) : Option Text :=
  let short := lower (text.take 3)
  if name = "month".toList ∧ short ∈ monthNames then some short else none

/-- A numeral or month without delimiter, if the options ask for that. -/
def bareForm? (options : Options) (name text : Text) : Option Text :=
  if options.numeric then
    if isNumeral text then some (dropLeadingZeros text) else monthName? name text
  else none

def renderValue (options : Options) (name : Text) (value : Value) : Text :=
  let text := options.tidyText name value.text
  match options.bareForm? name text with
  | some bare => bare
  | none => (if options.curly then Delimiter.braces else value.delimiter).enclose text

def fieldWidth : Nat := 14

def renderField (options : Options) (name : Text) (value : Value) : Text :=
  options.indent ++ padRight fieldWidth name ++ "= ".toList ++ options.renderValue name value

/-- The names of the fields to write, in the order of writing. -/
def writtenNames (options : Options) (entry : Entry) : List Text :=
  let names := entry.fields.names.filter fun name => !options.omitted.contains name
  if options.sortFields then orderNames names else names

end Options

def renderComment (comment : Text) : Text := '%' :: (comment ++ ['\n'])

def renderComments (comments : List Text) : Text := comments.flatMap renderComment

namespace Options

def renderFields (options : Options) (entry : Entry) : List Text :=
  (options.writtenNames entry).filterMap fun name =>
    (entry.get? name).map (options.renderField name)

def renderEntry (options : Options) (entry : Entry) : Text :=
  renderComments entry.comments ++
    '@' :: (lower entry.kind ++ '{' :: (entry.key ++ ",\n".toList ++
      joinWith ",\n".toList (options.renderFields entry) ++ "\n\x7d".toList))

def renderEntries (options : Options) (entries : List Entry) : Text :=
  if entries.isEmpty then []
  else joinWith ['\n'] (entries.map options.renderEntry) ++ ['\n']

end Options

def renderPreamble (value : Value) : Text :=
  "@preamble\x7b".toList ++ value.written ++ "\x7d\n".toList

def Abbreviation.render (abbreviation : Abbreviation) : Text :=
  "@string\x7b".toList ++ abbreviation.name ++ " = ".toList ++ abbreviation.value.written ++
    "\x7d\n".toList

/-- The document with the given entries in place of its own. -/
def Options.assemble (options : Options) (document : Document) (entries : List Entry) : Text :=
  renderComments document.commentsBefore ++
    (document.preamble.map renderPreamble).getD [] ++
    document.abbreviations.flatMap Abbreviation.render ++
    options.renderEntries entries ++
    renderComments document.commentsAfter

end Bibliography
