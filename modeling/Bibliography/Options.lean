import Bibliography.Setting
import Bibliography.Text.Case

/-!
The options of a tidy run. Options are given by name; some have a second
spelling. The last value given under any spelling of an option counts, an
unknown name is refused before any value is looked at.
-/

namespace Bibliography

open Text

inductive OptionName
  | omitted
  | curly
  | numeric
  | space
  | tab
  | tex
  | metadata
  | sort
  | merge
  | stripBraces
  | dropCaps
  | escape
  | sortFields
  deriving DecidableEq

namespace OptionName

def all : List OptionName :=
  [omitted, curly, numeric, space, tab, tex, metadata, sort, merge, stripBraces, dropCaps,
    escape, sortFields]

def name : OptionName → Text
  | omitted => "omit".toList
  | curly => "curly".toList
  | numeric => "numeric".toList
  | space => "space".toList
  | tab => "tab".toList
  | tex => "tex".toList
  | metadata => "metadata".toList
  | sort => "sort".toList
  | merge => "merge".toList
  | stripBraces => "strip_enclosing_braces".toList
  | dropCaps => "drop_all_caps".toList
  | escape => "escape_special_characters".toList
  | sortFields => "sort_properties".toList

def aliases : OptionName → List Text
  | stripBraces => ["stripEnclosingBraces".toList]
  | dropCaps => ["dropAllCaps".toList]
  | escape => ["escapeSpecialCharacters".toList, "escape".toList]
  | sortFields => ["sortProperties".toList]
  | _ => []

def ofName? (text : Text) : Option OptionName := all.find? fun option => option.name == text

def ofSpelling? (text : Text) : Option OptionName :=
  all.find? fun option => option.name == text || option.aliases.contains text

def summary : OptionName → Text
  | omitted => "Properties to remove (eg. abstract)".toList
  | curly => "Enclose property values in curly brackets".toList
  | numeric => "Don't enclose numeric/month values".toList
  | space => "Indent using n spaces".toList
  | tab => "Indent using tabs".toList
  | tex => "LaTeX contents to search for occurrences within".toList
  | metadata => "Generate metadata for each entry".toList
  | sort => "Sort entries alphabetically by id, or by the given fields".toList
  | merge => "Merge duplicate entries".toList
  | stripBraces =>
      "Where an entire value is enclosed in double braces, remove the extra braces".toList
  | dropCaps => "Where values are all caps, make them title case".toList
  | escape => "Escape special characters, such as umlaut".toList
  | sortFields => "Sort the properties within entries".toList

end OptionName

structure Options where
  omitted : List Text := []
  curly : Bool := false
  numeric : Bool := false
  space : Nat := 2
  tab : Bool := false
  tex : Text := []
  metadata : Bool := false
  /-- The fields to sort by; without any the document's order is kept. -/
  sort : List Text := []
  merge : Bool := false
  stripBraces : Bool := false
  dropCaps : Bool := false
  escape : Bool := true
  sortFields : Bool := false
  deriving DecidableEq

inductive OptionsError
  | unknown (name : Text)
  | notFieldNames (option : OptionName)
  | badSpace (given : Setting)
  | badTex

def OptionsError.message : OptionsError → Text
  | unknown name => "Unknown option '".toList ++ name ++ "'".toList
  | notFieldNames option =>
      "Option '".toList ++ option.name ++ "' must be a list of field names".toList
  | badSpace given =>
      "Option 'space' must be a non-negative integer, got ".toList ++ given.describe
  | badTex => "Option 'tex' must be a string".toList

namespace Setting

def text? : Setting → Option Text
  | text content => some content
  | _ => none

/-- Field names in lower case: none, one, a list of them, or the names of a table. -/
def fieldNames? : Setting → Option (List Text)
  | absent => some []
  | text name => some [lower name]
  | list items => (items.mapM text?).map fun names => names.map lower
  | table rows => some (rows.map fun row => lower row.1)
  | _ => none

/-- The fields to sort by; a flag stands for the citation key or for nothing. -/
def sortFields? : Setting → Option (List Text)
  | flag true => some ["id".toList]
  | flag false => some []
  | setting => setting.fieldNames?

def width? : Setting → Option Nat
  | integer (.ofNat width) => some width
  | _ => none

def contents? : Setting → Option Text
  | absent => some []
  | text content => some content
  | _ => none

end Setting

namespace Options

/-- The options that the names stand for, up to the first unknown name. -/
def resolve : List (Text × Setting) → Except OptionsError (List (OptionName × Setting))
  | [] => .ok []
  | (name, setting) :: rest =>
      match OptionName.ofSpelling? name with
      | none => .error (.unknown name)
      | some option => (resolve rest).map fun resolved => (option, setting) :: resolved

def last? (settings : List (OptionName × Setting)) (option : OptionName) : Option Setting :=
  (settings.reverse.find? fun setting => setting.1 == option).map Prod.snd

/-- Reads a setting if there is one and keeps the default otherwise. -/
def read {Result : Type} (settings : List (OptionName × Setting)) (option : OptionName)
    (reader : Setting → Option Result) (refuse : Setting → OptionsError) (default : Result) :
    Except OptionsError Result :=
  match last? settings option with
  | none => .ok default
  | some setting =>
      match reader setting with
      | some result => .ok result
      | none => .error (refuse setting)

def flag (settings : List (OptionName × Setting)) (option : OptionName) (default : Bool) : Bool :=
  match last? settings option with
  | none => default
  | some setting => setting.isOn

def ofResolved (settings : List (OptionName × Setting)) : Except OptionsError Options := do
  let omitted ← read settings .omitted Setting.fieldNames? (fun _ => .notFieldNames .omitted) []
  let sort ← read settings .sort Setting.sortFields? (fun _ => .notFieldNames .sort) []
  let space ← read settings .space Setting.width? .badSpace 2
  let tex ← read settings .tex Setting.contents? (fun _ => .badTex) []
  return {
    omitted, sort, space, tex
    curly := flag settings .curly false
    numeric := flag settings .numeric false
    tab := flag settings .tab false
    metadata := flag settings .metadata false
    merge := flag settings .merge false
    stripBraces := flag settings .stripBraces false
    dropCaps := flag settings .dropCaps false
    escape := flag settings .escape true
    sortFields := flag settings .sortFields false }

def ofSettings (settings : List (Text × Setting)) : Except OptionsError Options :=
  match resolve settings with
  | .error error => .error error
  | .ok resolved => ofResolved resolved

def indent (options : Options) : Text :=
  if options.tab then ['\t'] else List.replicate options.space ' '

def setting (options : Options) : OptionName → Setting
  | .omitted => .list (options.omitted.map .text)
  | .curly => .flag options.curly
  | .numeric => .flag options.numeric
  | .space => .integer options.space
  | .tab => .flag options.tab
  | .tex => .text options.tex
  | .metadata => .flag options.metadata
  | .sort => if options.sort.isEmpty then .flag false else .list (options.sort.map .text)
  | .merge => .flag options.merge
  | .stripBraces => .flag options.stripBraces
  | .dropCaps => .flag options.dropCaps
  | .escape => .flag options.escape
  | .sortFields => .flag options.sortFields

end Options

/-- The summary of an option, with its default unless that is off or empty. -/
def OptionName.help (option : OptionName) : Text :=
  let default := Options.setting {} option
  if default.isOn then
    option.summary ++ " (default: ".toList ++ default.describe ++ ")".toList
  else option.summary

end Bibliography
