/-!
Text as a list of code points. Positions, lengths and cuts all count code
points, and two texts are ordered by the code points at the first difference.
Nothing here knows about character classes; those have modules of their own.
-/

namespace Bibliography

abbrev Text := List Char

namespace Text

def inRanges (ranges : List (Nat × Nat)) (code : Nat) : Bool :=
  ranges.any fun range => decide (range.1 ≤ code) && decide (code ≤ range.2)

def after? (mark : Char) : Text → Option Text
  | [] => none
  | char :: rest => if char = mark then some rest else none

def split (mark : Char) : Text → List Text
  | [] => [[]]
  | char :: rest =>
      if char = mark then [] :: split mark rest
      else match split mark rest with
        | [] => [[char]]
        | first :: others => (char :: first) :: others

def lines (text : Text) : List Text := split '\n' text

def joinWith (separator : Text) (pieces : List Text) : Text :=
  List.intercalate separator pieces

/-- Decimal digits of a count, without leading zeros. -/
def ofNat (number : Nat) : Text := Nat.toDigits 10 number

def ofInt : Int → Text
  | .ofNat number => ofNat number
  | .negSucc number => '-' :: ofNat (number + 1)

def padRight (width : Nat) (text : Text) : Text :=
  text ++ List.replicate (width - text.length) ' '

def padLeft (width : Nat) (text : Text) : Text :=
  List.replicate (width - text.length) ' ' ++ text

/-- Code point order: a text stands before every proper extension of it. -/
def atMost : Text → Text → Bool
  | [], _ => true
  | _ :: _, [] => false
  | left :: lefts, right :: rights =>
      if left = right then atMost lefts rights else decide (left.toNat < right.toNat)

/-- Counts matches of a non-empty word from left to right. After a match the
next `skip` characters belong to it and start no further one. -/
def occurrencesFrom (word : Text) : Nat → Text → Nat
  | _, [] => 0
  | skip + 1, _ :: rest => occurrencesFrom word skip rest
  | 0, char :: rest =>
      if word.isPrefixOf (char :: rest) then
        occurrencesFrom word (word.length - 1) rest + 1
      else occurrencesFrom word 0 rest

/-- Non-overlapping occurrences of a word; the empty word occurs before every
character and once at the end. -/
def occurrences (text word : Text) : Nat :=
  if word = [] then text.length + 1 else occurrencesFrom word 0 text

def lineFeeds (text : Text) : Nat := text.count '\n'

end Text

end Bibliography
