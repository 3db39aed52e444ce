import Bibliography.Text.CaseTable

/-!
Full case mapping. A character can map to several (the dotted capital I, the
sharp s, the ligatures), and a capital sigma at the end of a word becomes the
final form: the nearest neighbour to its left that is not skipped over has a
case, and the nearest one to its right has none or is missing.
-/

namespace Bibliography.Text

def mapRuns (runs : List CaseRun) (char : Char) : Char :=
  match runs.find? fun run => run.covers char.toNat with
  | some run => Char.ofNat (run.image char.toNat)
  | none => char

/-- In ASCII the apostrophe, full stop, colon, circumflex and grave accent. -/
def isCaseIgnorable (char : Char) : Bool :=
  if char.toNat < 128 then [39, 46, 58, 94, 96].contains char.toNat
  else inRanges caseIgnorableRanges char.toNat

def isCased (char : Char) : Bool :=
  if char.toNat < 128 then char.isAlpha else inRanges casedRanges char.toNat

def lowerChar (char : Char) : Text :=
  if char.toNat < 128 then [char.toLower]
  else if char = 'İ' then ['i', Char.ofNat 0x307]
  else [mapRuns lowerRuns char]

def upperChar (char : Char) : Text :=
  if char.toNat < 128 then [char.toUpper]
  else match upperExpansions.lookup char.toNat with
    | some codes => codes.map Char.ofNat
    | none => [mapRuns upperRuns char]

def startsCased (text : Text) : Bool :=
  match text.dropWhile isCaseIgnorable with
  | [] => false
  | char :: _ => isCased char

/-- Lower case of text that follows a cased character exactly if `afterCased`. -/
def lowerAfter : Bool → Text → Text
  | _, [] => []
  | afterCased, char :: rest =>
      let image :=
        if char = 'Σ' then [if afterCased && !startsCased rest then 'ς' else 'σ']
        else lowerChar char
      let next := if isCaseIgnorable char then afterCased else isCased char
      image ++ lowerAfter next rest

def lower (text : Text) : Text := lowerAfter false text

end Bibliography.Text
