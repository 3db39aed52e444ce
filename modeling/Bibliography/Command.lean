import Bibliography.Arguments
import Bibliography.FileTree
import Bibliography.Host
import Bibliography.Report

/-!
The command that tidies a file. It is a function from its surroundings, the files it
finds and its arguments to what it prints and the files it leaves. Nothing is written
before the input has been read, parsed and tidied as a whole. A text that standard output
refuses ends the run where it stands.
-/

namespace Bibliography.Command

open Text Arguments

structure Outcome where
  exit : Nat
  output : RawText
  errors : RawText
  files : FileTree

def program : Text := "bibtex-tidy".toList

def paragraph (lines : List String) : Text := lines.flatMap fun line => line.toList ++ ['\n']

def usage : Text := paragraph
  ["usage: bibtex-tidy [-h] [-o OUTPUT] [-r REPORT_FILE] [-v] [--check]",
   "                   [--omit FIELD [FIELD ...]] [--curly] [--numeric]",
   "                   [--space N] [--tab] [--tex FILE] [--metadata]",
   "                   [--sort [FIELD ...]] [--merge] [--strip-enclosing-braces]",
   "                   [--drop-all-caps] [--no-escape] [--sort-properties]",
   "                   input_file"]

def help : Text := usage ++ paragraph
  ["",
   "BibTeX Tidy - Reformat, sort and merge duplicate BibTeX entries",
   "",
   "positional arguments:",
   "  input_file            Input BibTeX file",
   "",
   "options:",
   "  -h, --help            show this help message and exit",
   "  -o OUTPUT, --output OUTPUT",
   "                        Output file (default: print to stdout)",
   "  -r REPORT_FILE, --report-file REPORT_FILE",
   "                        Save report to file",
   "  -v, --verbose         Verbose output",
   "  --check               Check that pybtex can read the tidied output",
   "  --omit FIELD [FIELD ...]",
   "                        Properties to remove (eg. abstract)",
   "  --curly               Enclose property values in curly brackets",
   "  --numeric             Don't enclose numeric/month values",
   "  --space N             Indent using n spaces (default: 2)",
   "  --tab                 Indent using tabs",
   "  --tex FILE            LaTeX contents to search for occurrences within",
   "  --metadata            Generate metadata for each entry",
   "  --sort [FIELD ...]    Sort entries alphabetically by id, or by the given",
   "                        fields",
   "  --merge               Merge duplicate entries",
   "  --strip-enclosing-braces",
   "                        Where an entire value is enclosed in double braces,",
   "                        remove the extra braces",
   "  --drop-all-caps       Where values are all caps, make them title case",
   "  --no-escape           Do not escape special characters, such as umlaut",
   "  --sort-properties     Sort the properties within entries",
   "",
   "Examples:",
   "  # Print a tidied copy",
   "  bibtex-tidy input.bib",
   "",
   "  # Merge duplicates, sort by year then title, save to a file",
   "  bibtex-tidy input.bib --merge --sort year title -o tidy.bib",
   "",
   "  # Drop abstracts, use bare numbers and months",
   "  bibtex-tidy input.bib --omit abstract --numeric",
   "",
   "  # Count citations in a LaTeX document",
   "  bibtex-tidy input.bib --tex paper.tex --metadata -o tidy.bib",
   "        "]

def switch (takes : Takes) (names : List String) : Switch := ⟨names.map String.toList, takes⟩

def grammar : Grammar where
  operand := "input_file".toList
  switches :=
    [switch .help ["-h", "--help"],
      switch .text ["-o", "--output"],
      switch .text ["-r", "--report-file"],
      switch .nothing ["-v", "--verbose"],
      switch .nothing ["--check"],
      switch .oneOrMore ["--omit"],
      switch .nothing ["--curly"],
      switch .nothing ["--numeric"],
      switch .integer ["--space"],
      switch .nothing ["--tab"],
      switch .text ["--tex"],
      switch .nothing ["--metadata"],
      switch .any ["--sort"],
      switch .nothing ["--merge"],
      switch .nothing ["--strip-enclosing-braces"],
      switch .nothing ["--drop-all-caps"],
      switch .nothing ["--no-escape"],
      switch .nothing ["--sort-properties"]]

def cleanPath (path : RawText) : RawText :=
  let inner := path.trim
  let isQuoted (mark : Char) : Bool :=
    inner.head? == some (.char mark) && inner.getLast? == some (.char mark)
  RawText.trim
    (if isQuoted '"' || isQuoted '\x27' then (inner.drop 1).dropLast else inner)

/-- A path that may be missing; an empty one counts as missing. -/
def namedPath (path : Option RawText) : Option RawText :=
  match path.map cleanPath with
  | none => none
  | some [] => none
  | some cleaned => some cleaned

/-- A command line, with its paths cleaned. -/
structure Invocation where
  input : RawText
  output : Option RawText
  report : Option RawText
  verbose : Bool
  check : Bool
  tex : Option RawText
  sortNames : List RawText
  settings : List (OptionName × Setting)

def flagSetting (parsed : Parsed) (option : OptionName) (name : String) : OptionName × Setting :=
  (option, .flag (parsed.has name.toList))

/-- Field names as settings. One with a surrogate is the name of no field. -/
def textsSetting (texts : List RawText) : Setting :=
  .list (texts.map fun text => .text text.blanked)

def sortSetting (parsed : Parsed) : Setting :=
  match parsed.values? "--sort".toList with
  | none => .flag false
  | some [] => .flag true
  | some fields => textsSetting fields

def namesToSort (parsed : Parsed) : List RawText :=
  match parsed.values? "--sort".toList with
  | none => []
  | some [] => [raw "id".toList]
  | some fields => fields.map RawText.lower

/-- The switch for the width stands for an empty list when it has no value, which
is no width. -/
def spaceSetting (parsed : Parsed) : Setting :=
  match parsed.values? "--space".toList with
  | none => .integer 2
  | some [] => .list []
  | some (value :: _) => .integer (value.readInteger.getD 2)

def optionSettings (parsed : Parsed) : List (OptionName × Setting) :=
  [(.omitted, textsSetting ((parsed.values? "--omit".toList).getD [])),
    flagSetting parsed .curly "--curly",
    flagSetting parsed .numeric "--numeric",
    (.space, spaceSetting parsed),
    flagSetting parsed .tab "--tab",
    flagSetting parsed .metadata "--metadata",
    flagSetting parsed .merge "--merge",
    flagSetting parsed .stripBraces "--strip-enclosing-braces",
    flagSetting parsed .dropCaps "--drop-all-caps",
    (.escape, .flag (!parsed.has "--no-escape".toList)),
    flagSetting parsed .sortFields "--sort-properties",
    (.sort, sortSetting parsed)]

/-- Only an empty name for the LaTeX text counts as missing, before it is cleaned. -/
def texPath (parsed : Parsed) : Option RawText :=
  match parsed.value? "--tex".toList with
  | none => none
  | some [] => none
  | some path => some (cleanPath path)

def Invocation.ofParsed (parsed : Parsed) : Invocation where
  input := cleanPath parsed.operand
  output := namedPath (parsed.value? "--output".toList)
  report := namedPath (parsed.value? "--report-file".toList)
  verbose := parsed.has "--verbose".toList
  check := parsed.has "--check".toList
  tex := texPath parsed
  sortNames := namesToSort parsed
  settings := optionSettings parsed

/-- Why a run ends before its input is tidied. -/
inductive Failure
  | unreadable (path : RawText) (error : ReadError)
  | badOptions (error : OptionsError)
  | badSource (path : RawText) (error : Source.ParseError)

def line (text : RawText) : RawText := text ++ [.char '\n']

def errorLine (message : RawText) : RawText := line (raw "Error: ".toList ++ message)

def sourceNotice (path : RawText) (error : Source.ParseError) : RawText :=
  let plain (text : Text) : RawText := line (raw text)
  plain ('\n' :: rule) ++ plain "ERROR: Failed to parse BibTeX file".toList ++ plain rule ++
    plain ('\n' :: error.message ++ ['\n']) ++
    plain "Common issues: missing commas, missing braces, or unclosed quotes.".toList ++
    line (raw ("Look around line ".toList ++ ofNat error.line ++ " of ".toList) ++ path ++
      raw ".".toList) ++
    plain rule

def savedNotice (path : RawText) : RawText := raw "\n✓ Tidied BibTeX saved to: ".toList ++ path

def reportNotice (path : RawText) : RawText := raw "\n✓ Report saved to: ".toList ++ path

def misuse (files : FileTree) (message : RawText) : Outcome :=
  ⟨2, [], raw usage ++ line (raw (program ++ ": error: ".toList) ++ message), files⟩

/-- Help is printed before there is anything that handles a failure. What is said about
one beside its message is left out here. -/
def printHelp (console : Console) (files : FileTree) : Outcome :=
  match console.refusal? (raw help) with
  | none => ⟨0, raw help, [], files⟩
  | some message => ⟨1, [], line (raw message), files⟩

namespace Outcome

def fail (before : Outcome) (message : RawText) : Outcome :=
  { before with exit := 1, errors := before.errors ++ errorLine message }

def note (before : Outcome) (text : RawText) : Outcome :=
  { before with errors := before.errors ++ text }

def print (console : Console) (before : Outcome) (text ending : RawText) :
    Except Outcome Outcome :=
  match console.refusal? text with
  | none => .ok { before with output := before.output ++ text ++ ending }
  | some message => .error (before.fail (raw message))

def printLine (console : Console) (before : Outcome) (text : RawText) : Except Outcome Outcome :=
  before.print console text [.char '\n']

def save (before : Outcome) (name : RawText) (text : Text) : Except Outcome Outcome :=
  match before.files.writeText name text with
  | .ok files => .ok { before with files }
  | .error error => .error (before.fail (error.message name))

def last : Except Outcome Outcome → Outcome
  | .ok done => done
  | .error ended => ended

end Outcome

namespace Invocation

def log (invocation : Invocation) (messages : List RawText) : RawText :=
  if invocation.verbose then
    messages.flatMap fun message => line (raw "[INFO] ".toList ++ message)
  else []

/-- The options; the LaTeX text is read before they are checked. -/
def options (invocation : Invocation) (files : FileTree) : Except Failure Options :=
  let resolve (more : List (OptionName × Setting)) : Except Failure Options :=
    match Options.ofResolved (invocation.settings ++ more) with
    | .error error => .error (.badOptions error)
    | .ok options => .ok options
  match invocation.tex with
  | none => resolve []
  | some path =>
      match files.readText path with
      | .error error => .error (.unreadable path error)
      | .ok text => resolve [(.tex, .text text)]

def document (invocation : Invocation) (files : FileTree) : Except Failure Document :=
  match files.readText invocation.input with
  | .error error => .error (.unreadable invocation.input error)
  | .ok text =>
      match Document.parse text with
      | .error error => .error (.badSource invocation.input error)
      | .ok document => .ok document

def fail (files : FileTree) (errors : RawText) : Failure → Outcome
  | .unreadable path error => ⟨1, [], errors ++ errorLine (error.message path), files⟩
  | .badOptions error => misuse files (raw error.message)
  | .badSource path error =>
      ⟨1, [], errors ++ sourceNotice path error ++ errorLine (raw error.message), files⟩

def tidyMessages (invocation : Invocation) (options : Options) (document : Document)
    (tidied : Tidied) : List RawText :=
  [raw ("Loaded ".toList ++ ofNat document.entries.length ++ " entries".toList),
    raw ("Tidying ".toList ++ ofNat document.entries.length ++ " entries".toList)] ++
    (if options.merge then
      [raw ("Merged ".toList ++ ofNat tidied.duplicates.length ++ " duplicate entries".toList)]
    else []) ++
    (if options.sort.isEmpty then []
    else [raw "Sorted by: ".toList ++
      List.intercalate (raw ", ".toList) invocation.sortNames])

/-- What the check of the text gives, if one is asked for. -/
def readBack? (invocation : Invocation) (host : Host) (text : Text) : Option ReadBack :=
  if invocation.check then some (host.readBack text) else none

def warnings (invocation : Invocation) (host : Host) (text : Text) : List Text :=
  ((invocation.readBack? host text).map ReadBack.warnings).getD []

def checkText (invocation : Invocation) (host : Host) (text : Text) (before : Outcome) :
    Except Outcome Outcome :=
  match invocation.readBack? host text with
  | none => .ok before
  | some (.broken message) => .error (before.fail (raw message))
  | some readBack => .ok (before.note (invocation.log (readBack.remarks.map raw)))

def deliverText (invocation : Invocation) (console : Console) (text : Text) (before : Outcome) :
    Except Outcome Outcome :=
  match invocation.output with
  | none => before.print console (raw text) []
  | some path => do
      let saved ← before.save path text
      let noted := saved.note (invocation.log [raw "Saved to: ".toList ++ path])
      noted.printLine console (savedNotice path)

/-- Prints a line where the tidied text does not go. -/
def say (invocation : Invocation) (console : Console) (text : RawText) (before : Outcome) :
    Except Outcome Outcome :=
  if invocation.output.isSome then before.printLine console text
  else .ok (before.note (line text))

def deliverReport (invocation : Invocation) (console : Console) (report : Text)
    (before : Outcome) : Except Outcome Outcome :=
  match invocation.report with
  | none => invocation.say console (raw report) before
  | some path => do
      let saved ← before.save path report
      invocation.say console (reportNotice path) saved

/-- What follows once the input has been tidied. -/
def deliver (invocation : Invocation) (host : Host) (tidied : Tidied) (before : Outcome) :
    Except Outcome Outcome := do
  let checked ← invocation.checkText host tidied.text before
  let printed ← invocation.deliverText host.console tidied.text checked
  let report := tidied.report (invocation.warnings host tidied.text)
  invocation.deliverReport host.console report printed

def run (invocation : Invocation) (host : Host) (files : FileTree) : Outcome :=
  match invocation.options files with
  | .error failure => fail files [] failure
  | .ok options =>
      let loading := invocation.log [raw "Loading BibTeX file: ".toList ++ invocation.input]
      match invocation.document files with
      | .error failure => fail files loading failure
      | .ok document =>
          let tidied := options.tidy document
          let messages := invocation.log (invocation.tidyMessages options document tidied)
          Outcome.last (invocation.deliver host tidied ⟨0, [], loading ++ messages, files⟩)

end Invocation

def run (host : Host) (files : FileTree) (arguments : List RawText) : Outcome :=
  match grammar.parse arguments with
  | .error .help => printHelp host.console files
  | .error (.misuse message) => misuse files message
  | .ok parsed => (Invocation.ofParsed parsed).run host files

end Bibliography.Command
