import Bibliography.Document

/-!
Why a source text cannot be read. A fault blames a place and remembers where
reading stopped; both are kept as the text from there to the end, so a fault
means the same wherever the text stands in a larger one. Line numbers are only
computed once the whole text is known.
-/

namespace Bibliography.Source

inductive Enclosure
  | braces
  | parens
  deriving DecidableEq

def Enclosure.closer : Enclosure → Char
  | braces => '}'
  | parens => ')'

inductive Cause
  | unclosedBrace
  | unclosedQuote
  | missingValue
  | unexpected (allowed : Text) (context : Text) (found : Option Char)
  | unclosedComment
  | secondPreamble
  | malformedAbbreviation
  | missingKey (kind : Text)
  | unclosedEntry (key : Text)
  | malformedField (key : Text) (atPercent : Bool)
  | missingBlock

def Cause.message : Cause → Text
  | unclosedBrace => "Unclosed brace in value".toList
  | unclosedQuote => "Unclosed quote in value".toList
  | missingValue => "Missing value".toList
  | unexpected allowed context found =>
      "Expected ".toList ++
        Text.joinWith " or ".toList (allowed.map fun char => Text.quoted [char]) ++
        [' '] ++ context ++ ", found ".toList ++
        match found with
        | some char => Text.quoted [char]
        | none => "end of file".toList
  | unclosedComment => "Unclosed @comment block".toList
  | secondPreamble => "Multiple @preamble blocks".toList
  | malformedAbbreviation => "Expected 'name = value' in @string".toList
  | missingKey kind => "Missing citation key in @".toList ++ kind
  | unclosedEntry key => "Entry '".toList ++ key ++ "' is not closed".toList
  | malformedField key atPercent =>
      "Expected 'field = value' in entry '".toList ++ key ++ "'".toList ++
        if atPercent then " (% comments are not allowed inside an entry)".toList else []
  | missingBlock => "Expected @type\x7b or @type(".toList

/-- What a block that was not read to its end leaves behind. -/
inductive Salvage
  | nothing
  | preamble (value : Value)
  | abbreviation (abbreviation : Abbreviation)
  /-- The entry is lost together with the comments that waited for it. -/
  | openEntry

structure Fault where
  cause : Cause
  place : Text
  rest : Text
  salvage : Salvage := .nothing

/-- A fault with its line, counted from one. -/
structure ParseError where
  line : Nat
  cause : Cause

def ParseError.message (error : ParseError) : Text :=
  "Line ".toList ++ Text.ofNat error.line ++ ": ".toList ++ error.cause.message

def lineOf (text place : Text) : Nat := Text.lineFeeds text - Text.lineFeeds place + 1

def Fault.locate (fault : Fault) (text : Text) : ParseError :=
  ⟨lineOf text fault.place, fault.cause⟩

end Bibliography.Source
