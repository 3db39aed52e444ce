import Bibliography.Text.Raw

/-!
Command lines with switches and one operand. Long switches may be cut short as
long as they stay unambiguous and may take a value after an equals sign; short
ones may be joined, also after an equals sign. Every argument is first told apart
as switch or operand, so an ambiguous switch is reported before anything else.
-/

namespace Bibliography.Arguments

open Text

inductive Takes
  | help
  | nothing
  | text
  | integer
  | oneOrMore
  | any
  deriving DecidableEq

structure Switch where
  names : List Text
  takes : Takes
  deriving DecidableEq

structure Grammar where
  switches : List Switch
  operand : Text

/-- Why a command line is not followed. -/
inductive Stop
  | help
  | misuse (message : RawText)

def Switch.refuse (switch : Switch) (message : Text) : Stop :=
  .misuse (raw ("argument ".toList ++ joinWith ['/'] switch.names ++ ": ".toList ++ message))

def Switch.ignoredValue (switch : Switch) (value : RawText) : Stop :=
  switch.refuse ("ignored explicit argument ".toList ++ value.quoted)

def Switch.isPlain (switch : Switch) : Bool :=
  switch.takes = .nothing || switch.takes = .help

/-- A switch as an argument names it, with the text attached to it there. -/
structure Reading where
  switch : Switch
  name : Text
  attached : Option RawText

inductive Token
  | operand (text : RawText)
  | divider
  | switch (text : RawText) (reading : Reading)
  | unknown (text : RawText)

namespace Token

def text : Token → RawText
  | operand content => content
  | divider => raw "--".toList
  | switch content _ => content
  | unknown content => content

def isSwitch : Token → Bool
  | switch _ _ => true
  | unknown _ => true
  | _ => false

def isDivider : Token → Bool
  | divider => true
  | _ => false

def operand? : Token → Option RawText
  | operand content => some content
  | _ => none

end Token

namespace Grammar

def names (grammar : Grammar) : List (Text × Switch) :=
  grammar.switches.flatMap fun switch => switch.names.map fun name => (name, switch)

def find? (grammar : Grammar) (name : RawText) : Option (Text × Switch) :=
  grammar.names.find? fun entry => raw entry.1 == name

end Grammar

def splitEquals (argument : RawText) : Option (RawText × RawText) :=
  match argument.dropWhile fun point => point != .char '=' with
  | [] => none
  | _ :: value => some (argument.takeWhile fun point => point != .char '=', value)

def isLong (name : RawText) : Bool := (raw "--".toList).isPrefixOf name

def Grammar.candidates (grammar : Grammar) (argument : RawText) : List Reading :=
  if isLong argument then
    let cut := splitEquals argument
    let start := (cut.map Prod.fst).getD argument
    (grammar.names.filter fun entry => start.isPrefixOf (raw entry.1)).map fun entry =>
      ⟨entry.2, entry.1, cut.map Prod.snd⟩
  else
    grammar.names.filterMap fun entry =>
      if raw entry.1 = argument.take 2 then some ⟨entry.2, entry.1, some (argument.drop 2)⟩
      else if argument.isPrefixOf (raw entry.1) then some ⟨entry.2, entry.1, none⟩
      else none

def isDigits (text : Text) : Bool := !text.isEmpty && text.all isDigit

/-- A minus sign and a number, with or without a fraction. A line feed at the end
does not count. -/
def isNegativeNumber (argument : Text) : Bool :=
  let line := if argument.getLast? = some '\n' then argument.dropLast else argument
  match line with
  | '-' :: number =>
      isDigits number ||
        match after? '.' (number.dropWhile isDigit) with
        | some fraction => isDigits fraction
        | none => false
  | _ => false

def ambiguous (argument : RawText) (readings : List Reading) : Stop :=
  .misuse (raw "ambiguous option: ".toList ++ argument ++
    raw (" could match ".toList ++ joinWith ", ".toList (readings.map Reading.name)))

/-- Tells a single argument apart. Negative numbers and texts with a space are
operands unless they name a switch. -/
def Grammar.classify (grammar : Grammar) (argument : RawText) : Except Stop Token :=
  if argument.head? ≠ some (.char '-') then .ok (.operand argument)
  else match grammar.find? argument with
    | some (name, switch) => .ok (.switch argument ⟨switch, name, none⟩)
    | none =>
        if argument.length = 1 then .ok (.operand argument)
        else
          let exact := (splitEquals argument).bind fun (start, value) =>
            (grammar.find? start).map fun (name, switch) =>
              (⟨switch, name, some value⟩ : Reading)
          match exact with
          | some reading => .ok (.switch argument reading)
          | none =>
              match grammar.candidates argument with
              | [reading] => .ok (.switch argument reading)
              | [] =>
                  if argument.toText?.any isNegativeNumber || argument.contains (.char ' ') then
                    .ok (.operand argument)
                  else .ok (.unknown argument)
              | readings => .error (ambiguous argument readings)

def Grammar.tokens (grammar : Grammar) : List RawText → Except Stop (List Token)
  | [] => .ok []
  | argument :: rest =>
      if argument = raw "--".toList then .ok (.divider :: rest.map .operand)
      else match grammar.classify argument with
        | .error stop => .error stop
        | .ok token =>
            match grammar.tokens rest with
            | .error stop => .error stop
            | .ok tokens => .ok (token :: tokens)

/-- How an argument with joined switches ends. -/
inductive Tail
  /-- The values follow in arguments of their own. -/
  | following (switch : Switch)
  | attached (switch : Switch) (value : RawText)

/-- Takes the text attached to a short switch apart: a switch without values goes
on as the switch of the next letter, any other takes all that is left. -/
def Grammar.unjoin (grammar : Grammar) (switch : Switch) :
    RawText → Except Stop (List Switch × Tail)
  | [] =>
      if switch.isPlain then .error (switch.ignoredValue [])
      else .ok ([], .attached switch [])
  | letter :: more =>
      if !switch.isPlain then .ok ([], .attached switch (letter :: more))
      else match grammar.find? [.char '-', letter] with
        | none => .error (switch.ignoredValue (letter :: more))
        | some (_, other) =>
            if more = [] then .ok ([switch], .following other)
            else (grammar.unjoin other more).map fun result => (switch :: result.1, result.2)

/-- The switches of one argument; a long one is never joined with others. -/
def Grammar.readingTail (grammar : Grammar) (reading : Reading) :
    Except Stop (List Switch × Tail) :=
  match reading.attached with
  | none => .ok ([], .following reading.switch)
  | some value =>
      if isLong (raw reading.name) && reading.switch.isPlain then
        .error (reading.switch.ignoredValue value)
      else grammar.unjoin reading.switch value

/-- A switch with its values. -/
structure Given where
  switch : Switch
  values : List RawText

def Given.check (given : Given) : Except Stop Unit :=
  match given.switch.takes with
  | .help => .error .help
  | .integer =>
      match given.values.find? fun value => value.readInteger.isNone with
      | some value =>
          .error (given.switch.refuse ("invalid int value: ".toList ++ value.quoted))
      | none => .ok ()
  | _ => .ok ()

def Given.checkAll : List Given → Except Stop Unit
  | [] => .ok ()
  | given :: rest =>
      match given.check with
      | .error stop => .error stop
      | .ok () => checkAll rest

/-- What has been taken from a command line so far. -/
structure Taken where
  operand : Option RawText := none
  given : List Given := []
  extras : List RawText := []

def leadingOperands (tokens : List Token) : List RawText :=
  (tokens.takeWhile fun token => token.operand?.isSome).filterMap Token.operand?

/-- The values that follow a switch. They are the first tokens after it. -/
def followingValues (switch : Switch) (tokens : List Token) : Except Stop (List RawText) :=
  match switch.takes, leadingOperands tokens with
  | .help, _ => .ok []
  | .nothing, _ => .ok []
  | .text, value :: _ => .ok [value]
  | .text, [] => .error (switch.refuse "expected one argument".toList)
  | .integer, value :: _ => .ok [value]
  | .integer, [] => .error (switch.refuse "expected one argument".toList)
  | .oneOrMore, [] => .error (switch.refuse "expected at least one argument".toList)
  | .oneOrMore, values => .ok values
  | .any, values => .ok values

/-- A divider is no value, not even where it is attached to its switch. -/
def attachedValues (value : RawText) : List RawText :=
  if value = raw "--".toList then [] else [value]

def takeOperand (tokens : List Token) : Option (RawText × List Token) :=
  match tokens.dropWhile Token.isDivider with
  | .operand text :: rest => some (text, rest.dropWhile Token.isDivider)
  | _ => none

/-- A switch with the switches joined to it and its values, and how many of the
tokens after it were its values. -/
def Grammar.switchParts (grammar : Grammar) (reading : Reading) (rest : List Token) :
    Except Stop (List Given × Nat) :=
  match grammar.readingTail reading with
  | .error stop => .error stop
  | .ok (joined, tail) =>
      let flags := joined.map fun switch => (⟨switch, []⟩ : Given)
      match tail with
      | .attached switch value => .ok (flags ++ [⟨switch, attachedValues value⟩], 0)
      | .following switch =>
          match followingValues switch rest with
          | .error stop => .error stop
          | .ok values => .ok (flags ++ [⟨switch, values⟩], values.length)

def Grammar.takeSwitch (grammar : Grammar) (reading : Reading) (rest : List Token)
    (taken : Taken) : Except Stop (Taken × Nat) :=
  match grammar.switchParts reading rest with
  | .error stop => .error stop
  | .ok (given, used) =>
      match Given.checkAll given with
      | .error stop => .error stop
      | .ok () => .ok ({ taken with given := taken.given ++ given }, used)

/-- Operands between switches: the first may be the operand that the grammar asks
for, the others are superfluous. -/
def Taken.addOperands (taken : Taken) (tokens : List Token) : Taken :=
  match taken.operand, takeOperand tokens with
  | none, some (text, others) =>
      { taken with operand := some text, extras := taken.extras ++ others.map Token.text }
  | _, _ => { taken with extras := taken.extras ++ tokens.map Token.text }

def Grammar.take (grammar : Grammar) (tokens : List Token) (taken : Taken) :
    Except Stop Taken :=
  match tokens with
  | [] => .ok taken
  | .unknown text :: rest => grammar.take rest { taken with extras := taken.extras ++ [text] }
  | .switch _ reading :: rest =>
      match grammar.takeSwitch reading rest taken with
      | .error stop => .error stop
      | .ok (next, used) => grammar.take (rest.drop used) next
  | token :: rest =>
      grammar.take (rest.dropWhile fun token => !token.isSwitch)
        (taken.addOperands (token :: rest.takeWhile fun token => !token.isSwitch))
termination_by tokens.length
decreasing_by
  · exact Nat.lt_succ_self _
  · exact Nat.lt_succ_of_le (List.drop_suffix _ rest).length_le
  · exact Nat.lt_succ_of_le (List.dropWhile_suffix _).length_le

/-- A command line that fits its grammar. -/
structure Parsed where
  operand : RawText
  given : List Given

def Grammar.parse (grammar : Grammar) (arguments : List RawText) : Except Stop Parsed :=
  match grammar.tokens arguments with
  | .error stop => .error stop
  | .ok tokens =>
      match grammar.take tokens {} with
      | .error stop => .error stop
      | .ok taken =>
          match taken.operand, taken.extras with
          | none, _ =>
              .error (.misuse
                (raw ("the following arguments are required: ".toList ++ grammar.operand)))
          | some operand, [] => .ok ⟨operand, taken.given⟩
          | some _, extras =>
              .error (.misuse
                (raw "unrecognized arguments: ".toList ++ List.intercalate [.char ' '] extras))

namespace Parsed

def values? (parsed : Parsed) (name : Text) : Option (List RawText) :=
  (parsed.given.reverse.find? fun given => given.switch.names.contains name).map Given.values

def has (parsed : Parsed) (name : Text) : Bool := (parsed.values? name).isSome

def value? (parsed : Parsed) (name : Text) : Option RawText :=
  (parsed.values? name).bind List.head?

end Parsed

end Bibliography.Arguments
