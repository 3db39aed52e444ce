import Bibliography.Text.Quoted

/-!
A bibliography as a value. A field value keeps the delimiter it was written with: two
values with the same text and different delimiters differ. The fields of an entry stand
under distinct names, in order; a name keeps the place where it was first inserted,
whatever is inserted under it later. The comments of an entry are the loose lines that
stood before it in the source, without the percent sign; the other comments of a document
stand before its first block or after its last one.
-/

namespace Bibliography

inductive Delimiter
  | braces
  | quotes
  | bare
  deriving DecidableEq

namespace Delimiter

def name : Delimiter → Text
  | braces => "curly".toList
  | quotes => "quote".toList
  | bare => "none".toList

def ofName? (name : Text) : Option Delimiter :=
  if name = braces.name then some braces
  else if name = quotes.name then some quotes
  else if name = bare.name then some bare
  else none

def unknownMessage (name : Text) : Text :=
  "Unknown brace style '".toList ++ name ++ ['\x27']

def enclose : Delimiter → Text → Text
  | braces, text => '{' :: (text ++ ['}'])
  | quotes, text => '"' :: (text ++ ['"'])
  | bare, text => text

end Delimiter

structure Value where
  text : Text
  delimiter : Delimiter := .braces
  deriving DecidableEq

namespace Value

def written (value : Value) : Text := value.delimiter.enclose value.text

def describe (value : Value) : Text :=
  "Property(".toList ++ Text.quoted value.text ++ ", ".toList ++
    Text.quoted value.delimiter.name ++ [')']

end Value

/-- A name with its value, as listed in a source or in an entry. -/
abbrev Field := Text × Value

namespace Field

def names (fields : List Field) : List Text := fields.map Prod.fst

def put (name : Text) (value : Value) : List Field → List Field
  | [] => [(name, value)]
  | field :: rest =>
      if field.1 = name then (name, value) :: rest else field :: put name value rest

theorem names_put (name : Text) (value : Value) (fields : List Field) :
    names (put name value fields) =
      if name ∈ names fields then names fields else names fields ++ [name] := by
  induction fields with
  | nil => simp [put, names]
  | cons field rest induction =>
      by_cases same : field.1 = name
      · simp [put, names, same]
      · have apart : ¬ name = field.1 := fun equal => same equal.symm
        have step : names (put name value (field :: rest)) =
            field.1 :: names (put name value rest) := by simp [put, names, same]
        have unfolded : names (field :: rest) = field.1 :: names rest := rfl
        rw [step, induction, unfolded]
        by_cases member : name ∈ names rest <;> simp [member, apart]

end Field

structure Fields where
  toList : List Field
  nodup : (Field.names toList).Nodup

namespace Fields

def empty : Fields := ⟨[], List.nodup_nil⟩

def names (fields : Fields) : List Text := Field.names fields.toList

def get? (fields : Fields) (name : Text) : Option Value :=
  (fields.toList.find? fun field => field.1 == name).map Prod.snd

def contains (fields : Fields) (name : Text) : Bool := (fields.get? name).isSome

theorem nodup_put {fields : List Field} (distinct : (Field.names fields).Nodup)
    (name : Text) (value : Value) : (Field.names (Field.put name value fields)).Nodup := by
  rw [Field.names_put]
  split
  · exact distinct
  · next absent =>
      rw [List.nodup_append]
      refine ⟨distinct, by simp, ?_⟩
      intro left member right single equal
      rw [List.mem_singleton] at single
      exact absent (single ▸ equal ▸ member)

def insert (fields : Fields) (name : Text) (value : Value) : Fields :=
  ⟨Field.put name value fields.toList, nodup_put fields.nodup name value⟩

def insertNew (fields : Fields) (name : Text) (value : Value) : Fields :=
  if fields.contains name then fields else fields.insert name value

theorem nodup_erase {fields : List Field} (distinct : (Field.names fields).Nodup)
    (name : Text) : (Field.names (fields.filter fun field => field.1 != name)).Nodup :=
  distinct.sublist (List.filter_sublist.map Prod.fst)

def erase (fields : Fields) (name : Text) : Fields :=
  ⟨fields.toList.filter fun field => field.1 != name, nodup_erase fields.nodup name⟩

def ofList (fields : List Field) : Fields :=
  fields.foldl (fun built field => built.insert field.1 field.2) empty

/-- Takes over what is missing, in the order in which the other fields stand. -/
def fillFrom (fields others : Fields) : Fields :=
  others.toList.foldl (fun built field => built.insertNew field.1 field.2) fields

end Fields

structure Entry where
  kind : Text
  key : Text
  fields : Fields := Fields.empty
  comments : List Text := []

namespace Entry

def get? (entry : Entry) (name : Text) : Option Value := entry.fields.get? name

def describe (entry : Entry) : Text :=
  "Entry(@".toList ++ entry.kind ++ ['{'] ++ entry.key ++ "\x7d, ".toList ++
    Text.ofNat entry.fields.toList.length ++ " properties)".toList

end Entry

/-- A name that a source text gives to a value, for use in other values. -/
structure Abbreviation where
  name : Text
  value : Value

structure Document where
  preamble : Option Value := none
  abbreviations : List Abbreviation := []
  commentsBefore : List Text := []
  commentsAfter : List Text := []
  entries : List Entry := []

/-- Every comment of the document, those of the entries in their order. -/
def Document.comments (document : Document) : List Text :=
  document.commentsBefore ++ document.entries.flatMap Entry.comments ++ document.commentsAfter

end Bibliography
