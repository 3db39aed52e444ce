import Bibliography.Arguments
import Bibliography.FileTree
import Bibliography.Source.Reading

/-!
The command that lists the structure of a file. All its messages go to standard
output, which is taken to accept them here, and a file that is no readable text is an
error of its own.
-/

namespace Bibliography.Outline

open Text Arguments

def line (text : Text) : Text := text ++ ['\n']

def entryLine (entry : Entry) : Text :=
  "  @".toList ++ lower entry.kind ++ ['{'] ++ entry.key ++ "\x7d: ".toList ++
    joinWith ", ".toList entry.fields.names

def ofDocument (document : Document) : Text :=
  line ("Preamble: ".toList ++
      if document.preamble.isSome then "yes".toList else "no".toList) ++
    line ("Strings: ".toList ++ ofNat document.abbreviations.length) ++
    line ("Comments: ".toList ++ ofNat document.commentsBefore.length ++ " before, ".toList ++
      ofNat document.commentsAfter.length ++ " after".toList) ++
    line ("Entries: ".toList ++ ofNat document.entries.length) ++
    document.entries.flatMap fun entry => line (entryLine entry)

def usage (program : Text) : Text := "usage: ".toList ++ program ++ " [-h] input_file\n".toList

def help (program : Text) : Text :=
  usage program ++
    ["",
      "BibTeX Reader - List the structure of a BibTeX file",
      "",
      "positional arguments:",
      "  input_file  Input BibTeX file",
      "",
      "options:",
      "  -h, --help  show this help message and exit"].flatMap fun text => line text.toList

def grammar : Grammar where
  operand := "input_file".toList
  switches := [⟨["-h".toList, "--help".toList], .help⟩]

structure Outcome where
  exit : Nat
  output : RawText
  errors : RawText

/-- A file that exists and cannot be read as text. -/
structure Unreadable where
  path : RawText
  error : ReadError

def ofFile (files : FileTree) (path : RawText) : Except Unreadable Outcome :=
  match files.readText path with
  | .error (.file .notFound) =>
      let message := raw "Error: ".toList ++ FileError.notFound.message path
      .ok ⟨1, message ++ [.char '\n'], []⟩
  | .error error => .error ⟨path, error⟩
  | .ok text =>
      match Document.parse text with
      | .error error => .ok ⟨1, raw (line ("✗ ".toList ++ error.message)), []⟩
      | .ok document => .ok ⟨0, raw (ofDocument document), []⟩

def run (program : Text) (files : FileTree) (arguments : List RawText) :
    Except Unreadable Outcome :=
  match grammar.parse arguments with
  | .error .help => .ok ⟨0, raw (help program), []⟩
  | .error (.misuse message) =>
      let notice := raw (program ++ ": error: ".toList) ++ message ++ [.char '\n']
      .ok ⟨2, [], raw (usage program) ++ notice⟩
  | .ok parsed => ofFile files parsed.operand

end Bibliography.Outline
