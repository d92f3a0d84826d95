import Scaffold.Disk.FileTree
import Scaffold.Path

/-! A disk: a tree, the directory that relative paths start from, and the temporary files that
are waiting to be moved into the tree. A path is followed name by name; `locate` says where it
leads. Temporary files have names nobody asks for, so they are kept apart from the tree, by the
directory they lie in. -/

namespace Scaffold

/-- Whether something is a directory or a file. -/
inductive Kind where
  | dir | file
  deriving DecidableEq, Repr

def Node.kind : Node → Kind
  | .dir => .dir
  | .file _ => .file

/-- Why a path cannot be followed or read. -/
inductive PathError where
  | missing
  | notDirectory
  | isDirectory
  | badName
  deriving DecidableEq, Repr

/-- A temporary file in a directory. -/
structure Temporary where
  folder : Location
  content : ByteArray

instance : DecidableEq Temporary
  | ⟨l, b⟩, ⟨l', b'⟩ =>
    haveI := ByteArray.decEq b b'
    decidable_of_iff (l = l' ∧ b = b') (by simp)

/-- A tree of files seen from a directory. -/
structure Disk where
  tree : FileTree
  here : Location := []
  temporaries : List Temporary := []

/-- Whether a name can be given to a file: at most 255 bytes, and none of them zero. -/
def Text.isFileName (t : Text) : Bool :=
  t.byteSize ≤ 255 && !t.contains '\x00'

/-- Whether a path can be followed at all: at most 4095 bytes, and none of them zero. -/
def Path.isFollowable (p : Path) : Bool :=
  p.text.byteSize ≤ 4095 && !p.text.contains '\x00'

/-- Follow the parts of a path from a location. Every part but the last must lead to a
directory; the last may lead to nothing. -/
def FileTree.walk (t : FileTree) : Location → List Text → Except PathError Location
  | l, [] => .ok l
  | l, part :: parts =>
    match t.get? l with
    | none => .error .missing
    | some (.file _) => .error .notDirectory
    | some .dir =>
      if Path.isIdle part then t.walk l parts
      else if part = ['.', '.'] then t.walk l.dropLast parts
      else if part.isFileName then t.walk (l ++ [part]) parts
      else .error .badName

namespace Disk

/-- Where a path starts. -/
def start (d : Disk) (p : Path) : Location :=
  if p.isAbsolute then [] else d.here

/-- Where a path leads, if it can be followed. The empty path leads nowhere. -/
def locate (d : Disk) (p : Path) : Except PathError Location :=
  if !p.isFollowable then .error .badName
  else if p.text.isEmpty then .error .missing
  else d.tree.walk (d.start p) (Text.splitOn '/' p.text)

/-- What lies at the end of a path. -/
def node? (d : Disk) (p : Path) : Option Node :=
  match d.locate p with
  | .ok l => d.tree.get? l
  | .error _ => none

/-- What sort of thing lies at the end of a path. -/
def kind? (d : Disk) (p : Path) : Option Kind :=
  (d.node? p).map Node.kind

/-- Read a file. -/
def read (d : Disk) (p : Path) : Except PathError ByteArray := do
  match d.tree.get? (← d.locate p) with
  | none => .error .missing
  | some .dir => .error .isDirectory
  | some (.file content) => .ok content

/-- Where a new entry of the given path would go: the path must end in a name, and not in a
slash or dots. -/
def target? (d : Disk) (p : Path) : Option Location :=
  match (Text.splitOn '/' p.text).getLast? with
  | some name =>
    if Path.isIdle name || name == ['.', '.'] then none else (d.locate p).toOption
  | none => none

/-- Replace the tree. -/
def withTree (d : Disk) (t : FileTree) : Disk :=
  { d with tree := t }

/-- Make a directory. -/
def makeDir? (d : Disk) (p : Path) : Option Disk := do
  return d.withTree (← d.tree.makeDir? (← d.target? p))

/-- Remove an empty directory; a temporary file in it keeps it. -/
def removeDir? (d : Disk) (p : Path) : Option Disk := do
  let l ← d.target? p
  if d.temporaries.any fun t => t.folder == l then none
  else return d.withTree (← d.tree.removeDir? l)

/-- Write a file. -/
def writeFile? (d : Disk) (p : Path) (content : ByteArray) : Option Disk := do
  return d.withTree (← d.tree.writeFile? (← d.target? p) content)

/-- Remove a file. -/
def removeFile? (d : Disk) (p : Path) : Option Disk := do
  return d.withTree (← d.tree.removeFile? (← d.target? p))

/-- The path that a temporary file in a directory has: it is given from the root. Which name is
chosen does not matter, but it has ten characters. -/
def temporaryPath (d : Disk) (folder : Path) : Path :=
  let here : Path := ⟨'/' :: Text.join ['/'] d.here⟩
  (here.join folder).join ".temporary"

/-- Make a temporary file in a directory. -/
def stage? (d : Disk) (folder : Path) (content : ByteArray) : Option (Temporary × Disk) :=
  match d.locate folder with
  | .ok l =>
    if d.tree.get? l = some .dir && (d.temporaryPath folder).isFollowable then
      let t : Temporary := ⟨l, content⟩
      some (t, { d with temporaries := t :: d.temporaries })
    else none
  | .error _ => none

/-- Remove a temporary file. -/
def unstage (d : Disk) (t : Temporary) : Disk :=
  { d with temporaries := d.temporaries.erase t }

/-- Move a temporary file to a path. It replaces a file there, but no directory. -/
def persist? (d : Disk) (t : Temporary) (p : Path) : Option Disk := do
  return (← d.writeFile? p t.content).unstage t

end Disk
end Scaffold
