import Bibliography.Text.Quoted

/-!
A value given for an option, before it is known what the option takes: nothing,
a flag, a number, a text, a list or a table.
-/

namespace Bibliography

open Text

inductive Setting
  | absent
  | flag (on : Bool)
  | integer (number : Int)
  /-- The units divided by ten to the number of places. -/
  | decimal (units : Int) (places : Nat)
  | text (content : Text)
  | list (items : List Setting)
  | table (rows : List (Text × Setting))
  deriving Inhabited

namespace Setting

/-- Whether the setting switches a flag on: everything but nothing, zero and the
empty text, list and table. -/
def isOn : Setting → Bool
  | absent => false
  | flag on => on
  | integer number => number != 0
  | decimal units _ => units != 0
  | text content => !content.isEmpty
  | list items => !items.isEmpty
  | table rows => !rows.isEmpty

/-- Digits with a point, without superfluous zeros at the end. -/
def writeDecimal (units : Int) (places : Nat) : Text :=
  let digits := Nat.toDigits 10 units.natAbs
  let padded := List.replicate (places + 1 - digits.length) '0' ++ digits
  let whole := padded.take (padded.length - places)
  let part := padded.drop (padded.length - places)
  let kept := (part.reverse.dropWhile fun char => char == '0').reverse
  (if units < 0 then ['-'] else []) ++ whole ++ '.' :: if kept.isEmpty then ['0'] else kept

mutual

def describe : Setting → Text
  | absent => "None".toList
  | flag true => "True".toList
  | flag false => "False".toList
  | integer number => ofInt number
  | decimal units places => writeDecimal units places
  | text content => quoted content
  | list items => '[' :: (describeItems items ++ [']'])
  | table rows => '{' :: (describeRows rows ++ ['}'])

def describeItems : List Setting → Text
  | [] => []
  | [item] => describe item
  | item :: others => describe item ++ ", ".toList ++ describeItems others

def describeRows : List (Text × Setting) → Text
  | [] => []
  | [(name, item)] => quoted name ++ ": ".toList ++ describe item
  | (name, item) :: others =>
      quoted name ++ ": ".toList ++ describe item ++ ", ".toList ++ describeRows others

end

end Setting

end Bibliography
