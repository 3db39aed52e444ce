import Bibliography.Text.Class

/-!
Decimal digits of every script, and whole numbers as they are typed: blanks around them,
a sign, digits, and single underscores between digits. Numbers of more than 4300 digits
are refused. Each range of the table is a whole number of runs zero to nine, so a digit's
value follows from its place in its range.
-/

namespace Bibliography.Text

def digitRanges : List (Nat × Nat) :=
  [(48, 57), (1632, 1641), (1776, 1785), (1984, 1993), (2406, 2415), (2534, 2543), (2662, 2671),
   (2790, 2799), (2918, 2927), (3046, 3055), (3174, 3183), (3302, 3311), (3430, 3439),
   (3558, 3567), (3664, 3673), (3792, 3801), (3872, 3881), (4160, 4169), (4240, 4249),
   (6112, 6121), (6160, 6169), (6470, 6479), (6608, 6617), (6784, 6793), (6800, 6809),
   (6992, 7001), (7088, 7097), (7232, 7241), (7248, 7257), (42528, 42537), (43216, 43225),
   (43264, 43273), (43472, 43481), (43504, 43513), (43600, 43609), (44016, 44025),
   (65296, 65305), (66720, 66729), (68912, 68921), (69734, 69743), (69872, 69881),
   (69942, 69951), (70096, 70105), (70384, 70393), (70736, 70745), (70864, 70873),
   (71248, 71257), (71360, 71369), (71472, 71481), (71904, 71913), (72016, 72025),
   (72784, 72793), (73040, 73049), (73120, 73129), (92768, 92777), (92864, 92873),
   (93008, 93017), (120782, 120831), (123200, 123209), (123632, 123641), (125264, 125273),
   (130032, 130041)]

def digitValue? (char : Char) : Option Nat :=
  (digitRanges.find? fun range =>
    decide (range.1 ≤ char.toNat) && decide (char.toNat ≤ range.2)).map
      fun range => (char.toNat - range.1) % 10

def isDigit (char : Char) : Bool := inRanges digitRanges char.toNat

/-- The ten ASCII digits only. -/
def isAsciiDigit (char : Char) : Bool := decide ('0' ≤ char) && decide (char ≤ '9')

def maxDigits : Nat := 4300

/-- Blanks that may stand around a number; the information separators may not. -/
def isNumberBlank (char : Char) : Bool :=
  if char.toNat < 128 then char == ' ' || (decide (9 ≤ char.toNat) && decide (char.toNat ≤ 13))
  else isBlank char

/-- Goes on with a number after at least one digit. -/
def readDigitsAfter (value : Nat) : Text → Option Nat
  | [] => some value
  | '_' :: char :: rest =>
      match digitValue? char with
      | some digit => readDigitsAfter (10 * value + digit) rest
      | none => none
  | char :: rest =>
      match digitValue? char with
      | some digit => readDigitsAfter (10 * value + digit) rest
      | none => none

def readDigits : Text → Option Nat
  | [] => none
  | char :: rest =>
      match digitValue? char with
      | some digit => readDigitsAfter digit rest
      | none => none

def trimNumber (text : Text) : Text :=
  ((text.dropWhile isNumberBlank).reverse.dropWhile isNumberBlank).reverse

def readInteger (text : Text) : Option Int :=
  if maxDigits < (text.filter isDigit).length then none
  else match trimNumber text with
    | '-' :: digits => (readDigits digits).map fun number => -(number : Int)
    | '+' :: digits => (readDigits digits).map fun number => (number : Int)
    | digits => (readDigits digits).map fun number => (number : Int)

end Bibliography.Text
