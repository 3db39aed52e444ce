import Bibliography.Text.Class
import Bibliography.Text.Number
import Bibliography.Text.Case

/-!
Changes to the text of a single value: joining of lines, removal of an outer
pair of braces, title case, and the dash of a page range.
-/

namespace Bibliography.Layout

open Text

def joinRun (run : Text) : Text := if run.contains '\n' then [' '] else run

/-- Joins lines; `run` holds the blanks just before the text. -/
def joinLinesAfter (run : Text) : Text → Text
  | [] => joinRun run
  | char :: rest =>
      if isBlank char then joinLinesAfter (run ++ [char]) rest
      else joinRun run ++ char :: joinLinesAfter [] rest

def joinLines (text : Text) : Text := trim (joinLinesAfter [] text)

/-- The depth at the end, unless a closing brace brings it back to zero before. -/
def depthToEnd (depth : Int) : Text → Option Int
  | [] => some depth
  | char :: rest =>
      if char = '{' then depthToEnd (depth + 1) rest
      else if char = '}' then
        if depth = 1 ∧ rest ≠ [] then none else depthToEnd (depth - 1) rest
      else depthToEnd depth rest

def stripBraces (text : Text) : Text :=
  if 2 ≤ text.length ∧ text.head? = some '{' ∧ text.getLast? = some '}' ∧
      depthToEnd 0 text = some 0 then (text.drop 1).dropLast
  else text

def isAllCaps (text : Text) : Bool := !text.isEmpty && text.all fun char => !char.isLower

/-- Every word starts with a capital and goes on in lower case. A word reaches
from its first word character to the next blank. -/
def titleCase (text : Text) : Text :=
  match text with
  | [] => []
  | char :: rest =>
      if isWord char then
        have : (rest.dropWhile fun next => !isBlank next).length ≤ rest.length :=
          (List.dropWhile_suffix _).length_le
        upperChar char ++ lower (rest.takeWhile fun next => !isBlank next) ++
          titleCase (rest.dropWhile fun next => !isBlank next)
      else char :: titleCase rest
termination_by text.length

def rangeEnd? (text : Text) : Option Text :=
  match after? '-' (skipBlank text) with
  | none => none
  | some rest =>
      let last := skipBlank rest
      if last.head?.any isDigit then some last else none

/-- The first range of two digits with one hyphen takes two hyphens. -/
def pageRange : Text → Text
  | [] => []
  | char :: rest =>
      match if isDigit char then rangeEnd? rest else none with
      | some last => char :: '-' :: '-' :: last
      | none => char :: pageRange rest

end Bibliography.Layout
