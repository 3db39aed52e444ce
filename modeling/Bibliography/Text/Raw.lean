import Bibliography.Text.Class
import Bibliography.Text.Case
import Bibliography.Text.Number
import Bibliography.Text.Quoted

/-!
Text as it comes from outside. Bytes that are part of no character arrive as single
surrogates, code points that are no characters and that no text read from a file can
hold. A surrogate is no blank and no digit and has no case.
-/

namespace Bibliography

/-- Surrogates are numbered from U+D800 on. -/
inductive CodePoint
  | char (value : Char)
  | surrogate (index : Fin 0x800)
  deriving DecidableEq

abbrev RawText := List CodePoint

def Text.raw (text : Text) : RawText := text.map .char

namespace CodePoint

open Text

def char? : CodePoint → Option Char
  | char value => some value
  | surrogate _ => none

def isSurrogate (point : CodePoint) : Bool := point.char?.isNone

def isBlank : CodePoint → Bool
  | char value => Text.isBlank value
  | surrogate _ => false

/-- A surrogate by its code, as it is written wherever it cannot stand itself. -/
def surrogateCode (index : Fin 0x800) : Text := '\\' :: 'u' :: hexDigits 4 (0xD800 + index)

def escapeQuoted (mark : Char) : CodePoint → Text
  | char value => Text.escapeQuoted mark value
  | surrogate index => surrogateCode index

end CodePoint

namespace RawText

open Text

def toText? (text : RawText) : Option Text := text.mapM CodePoint.char?

/-- A blank in place of every surrogate. No name in a source holds either. -/
def blanked (text : RawText) : Text := text.map fun point => point.char?.getD ' '

def trim (text : RawText) : RawText :=
  ((text.dropWhile CodePoint.isBlank).reverse.dropWhile CodePoint.isBlank).reverse

/-- The characters up to the first surrogate, then each surrogate with those behind it. -/
def runs : RawText → Text × List (Fin 0x800 × Text)
  | [] => ([], [])
  | .char value :: rest => (value :: (runs rest).1, (runs rest).2)
  | .surrogate index :: rest => ([], (index, (runs rest).1) :: (runs rest).2)

/-- Lower case. The case of a character does not depend on what a surrogate parts from it. -/
def lower (text : RawText) : RawText :=
  raw (Text.lower text.runs.1) ++
    text.runs.2.flatMap fun run => .surrogate run.1 :: raw (Text.lower run.2)

def quoted (text : RawText) : Text :=
  let mark := quoteMark (text.filterMap CodePoint.char?)
  mark :: text.flatMap (CodePoint.escapeQuoted mark) ++ [mark]

def readInteger (text : RawText) : Option Int := text.toText?.bind Text.readInteger

end RawText

end Bibliography
