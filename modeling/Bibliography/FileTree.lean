import Bibliography.Text.Encoding

/-!
The files and folders that a command can reach, as a value. Names are bytes here, and a
name from outside is encoded before it is looked up piece by piece, so a missing folder
and a file used as a folder are told apart; a name that ends in a slash means a folder.

Opening a file for writing and writing it is one step, which happens as a whole or not at
all. A write that breaks off half way, as on a full disk, is not represented.
-/

namespace Bibliography

open Text

abbrev Piece := List UInt8

abbrev Path := List Piece

inductive Node
  | file (bytes : List UInt8)
  | folder

structure FileTree where
  nodes : List (Path × Node) := []

inductive FileError
  | notFound
  | isFolder
  | notFolder
  | nullCharacter
  | unencodable (error : EncodeError)

inductive ReadError
  | file (error : FileError)
  | decode (error : DecodeError)

def FileError.message (name : RawText) : FileError → RawText
  | notFound => raw "File '".toList ++ name ++ raw "' not found".toList
  | isFolder => raw ("[Errno 21] Is a directory: ".toList ++ name.quoted)
  | notFolder => raw ("[Errno 20] Not a directory: ".toList ++ name.quoted)
  | nullCharacter => raw "embedded null byte".toList
  | unencodable error => raw error.message

def ReadError.message (name : RawText) : ReadError → RawText
  | file error => error.message name
  | decode error => raw error.message

namespace Path

def here : Piece := encode ['.']

def up : Piece := encode ['.', '.']

def slash : UInt8 := 0x2F

def root : Piece := [slash]

/-- One piece further; the piece for the folder above undoes a step down. -/
def enter (path : Path) (piece : Piece) : Path :=
  if piece = [] ∨ piece = here then path
  else if piece = up then
    match path.getLast? with
    | none => [up]
    | some last => if last = up then path ++ [up] else if last = root then path else path.dropLast
  else path ++ [piece]

def start (name : List UInt8) : Path := if name.head? = some slash then [root] else []

def pieces (name : List UInt8) : List Piece :=
  (name.splitOn slash).filter fun piece => !piece.isEmpty

end Path

namespace FileTree

/-- The starting folder and those above it always exist. -/
def find? (tree : FileTree) (path : Path) : Option Node :=
  if path.all fun piece => piece == Path.up || piece == Path.root then some .folder
  else (tree.nodes.find? fun node => node.1 == path).map Prod.snd

def walk (tree : FileTree) (path : Path) : List Piece → Except FileError Path
  | [] => .ok path
  | piece :: rest =>
      let next := path.enter piece
      match tree.find? next with
      | none => .error .notFound
      | some (.file _) => .error .notFolder
      | some .folder => walk tree next rest

/-- Where a name leads, and whether it is written as the name of a folder. -/
structure Place where
  path : Path
  asFolder : Bool

def locateBytes (tree : FileTree) (name : List UInt8) : Except FileError Place :=
  if name.contains 0 then .error .nullCharacter
  else if name = [] then .error .notFound
  else match (Path.pieces name).getLast? with
    | none => .ok ⟨Path.start name, true⟩
    | some last =>
        match tree.walk (Path.start name) (Path.pieces name).dropLast with
        | .error error => .error error
        | .ok path => .ok ⟨path.enter last, name.getLast? == some Path.slash⟩

def locate (tree : FileTree) (name : RawText) : Except FileError Place :=
  match encodeRaw escapedByte? name with
  | .error error => .error (.unencodable error)
  | .ok bytes => tree.locateBytes bytes

def read (tree : FileTree) (name : RawText) : Except FileError (List UInt8) :=
  match tree.locate name with
  | .error error => .error error
  | .ok place =>
      match tree.find? place.path with
      | none => .error .notFound
      | some .folder => .error .isFolder
      | some (.file bytes) => if place.asFolder then .error .notFolder else .ok bytes

def readText (tree : FileTree) (name : RawText) : Except ReadError Text :=
  match tree.read name with
  | .error error => .error (.file error)
  | .ok bytes =>
      match decode bytes with
      | .error error => .error (.decode error)
      | .ok text => .ok (unifyLineEnds text)

def put (tree : FileTree) (path : Path) (node : Node) : FileTree :=
  ⟨(path, node) :: tree.nodes.filter fun other => other.1 != path⟩

def write (tree : FileTree) (name : RawText) (bytes : List UInt8) : Except FileError FileTree :=
  match tree.locate name with
  | .error error => .error error
  | .ok place =>
      if place.asFolder then .error .isFolder
      else match tree.find? place.path with
        | some .folder => .error .isFolder
        | _ => .ok (tree.put place.path (.file bytes))

def writeText (tree : FileTree) (name : RawText) (text : Text) : Except FileError FileTree :=
  tree.write name (encode text)

end FileTree

end Bibliography
