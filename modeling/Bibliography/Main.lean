import Bibliography.Command

/-!
The outer layer of the command: it looks up the files that the arguments may
name, runs the command on them, and writes what the command has changed. Arguments
are well formed here and standard output takes every text; reading back is left to
the library's own reader.
-/

namespace Bibliography.Main

def host : Host where
  console := .keeping
  readBack text :=
    match Document.parse text with
    | .ok document => .entries document.entries.length
    | .error error => .unreadable error.message

/-- Bytes that were text, as text again. -/
def shown (bytes : List UInt8) : String :=
  match Text.decode bytes with
  | .ok text => String.ofList text
  | .error _ => ""

def written (path : Path) : String := shown (List.intercalate [Path.slash] path)

def steps (name : RawText) : List Path :=
  match Text.encodeRaw Text.escapedByte? name with
  | .error _ => []
  | .ok bytes =>
      let pieces := Path.pieces bytes
      (List.range (pieces.length + 1)).map fun count =>
        (pieces.take count).foldl Path.enter (Path.start bytes)

def lookUp (path : Path) : IO (List (Path × Node)) := do
  let place := (← IO.currentDir) / written path
  if ← place.isDir then return [(path, .folder)]
  if ← place.pathExists then
    return [(path, .file (← IO.FS.readBinFile place).toList)]
  return []

/-- What an argument may name: itself, or any end of it after a switch. -/
def possibleNames (argument : RawText) : List RawText :=
  if argument.head? = some (.char '-') then (List.range argument.length).map argument.drop
  else [argument]

def gather (arguments : List RawText) : IO FileTree := do
  let mut nodes : List (Path × Node) := []
  for argument in arguments do
    for value in possibleNames argument do
      for path in steps (Command.cleanPath value) do
        nodes := nodes ++ (← lookUp path)
  return ⟨nodes⟩

def isSame (before : FileTree) (path : Path) (bytes : List UInt8) : Bool :=
  match before.find? path with
  | some (.file old) => old == bytes
  | _ => false

def save (before after : FileTree) : IO Unit := do
  for (path, node) in after.nodes do
    match node with
    | .folder => pure ()
    | .file bytes =>
        if !isSame before path bytes then
          IO.FS.writeBinFile ((← IO.currentDir) / written path) (ByteArray.mk bytes.toArray)

def printed (text : RawText) : String :=
  String.ofList (text.flatMap fun point =>
    match point with
    | .char value => [value]
    | .surrogate index => CodePoint.surrogateCode index)

end Bibliography.Main

open Bibliography in
def main (arguments : List String) : IO UInt32 := do
  let texts := arguments.map fun argument => Text.raw argument.toList
  let files ← Main.gather texts
  let outcome := Command.run Main.host files texts
  Main.save files outcome.files
  (← IO.getStdout).putStr (Main.printed outcome.output)
  (← IO.getStderr).putStr (Main.printed outcome.errors)
  return UInt32.ofNat outcome.exit
