import FuzzCampaign.CommandLine.Host
import FuzzCampaign.Text.Split
import FuzzCampaign.Text.Utf8

/-!
# A disk in memory

Files and directories with the refusals of a real disk, and what was printed beside them.

* `DiskError`;
* `Disk`, `Disk.bytes`, `Disk.write`, `Disk.makeDirectories`; `Disk.host`.
-/

namespace FuzzCampaign

/-- Why a disk refuses an operation. -/
inductive DiskError
  | noEntry
  | alreadyExists
  | notDirectory
  | isDirectory
  deriving DecidableEq, Repr

/-- The words of the system. -/
def DiskError.message : DiskError → String
  | .noEntry => "No such file or directory (os error 2)"
  | .alreadyExists => "File exists (os error 17)"
  | .notDirectory => "Not a directory (os error 20)"
  | .isDirectory => "Is a directory (os error 21)"

/-- The parts of a path. -/
abbrev DiskPath : Type := List String

/-- Files and directories by their paths, and the text printed. -/
structure Disk where
  files : List (DiskPath × List UInt8)
  directories : List DiskPath
  out : String := ""
  err : String := ""

namespace Disk

/-- The parts of a path between slashes; a path from the root has the root as its first part. -/
def parts (path : String) : DiskPath :=
  let segments := (path.toList.splitOn '/').map String.ofList
  let named := segments.filter fun p => p ≠ "" && p ≠ "."
  if path.toList.head? = some '/' then "/" :: named else named

/-- The file of a path. -/
def file? (d : Disk) (path : DiskPath) : Option (List UInt8) :=
  (d.files.find? fun f => f.1 = path).map (·.2)

/-- Whether a path is a directory; the place where one stands and the root always are. -/
def isDirectory (d : Disk) (path : DiskPath) : Bool :=
  path = [] || path = ["/"] || d.directories.contains path

/-- Go down to a path from the directory `above`, through directories only. -/
def walk (d : Disk) (above : DiskPath) : DiskPath → Except DiskError Unit
  | [] | [_] => .ok ()
  | part :: rest =>
    let here := above ++ [part]
    if d.isDirectory here then d.walk here rest
    else if (d.file? here).isSome then .error .notDirectory
    else .error .noEntry

/-- The bytes of a file. -/
def bytes (d : Disk) (path : DiskPath) : Except DiskError (List UInt8) := do
  d.walk [] path
  if path ≠ [] && d.isDirectory path then throw .isDirectory
  match d.file? path with
  | some bytes => return bytes
  | none => throw .noEntry

/-- The disk with a file written. -/
def write (d : Disk) (path : DiskPath) (bytes : List UInt8) : Except DiskError Disk := do
  d.walk [] path
  if path = [] then throw .noEntry
  if d.isDirectory path then throw .isDirectory
  return { d with files := d.files.filter (fun f => f.1 ≠ path) ++ [(path, bytes)] }

/-- The disk with a directory made below `above`, and those between them. -/
def makeBelow (d : Disk) (above : DiskPath) : DiskPath → Except DiskError Disk
  | [] => .ok d
  | part :: rest =>
    let here := above ++ [part]
    if d.isDirectory here then d.makeBelow here rest
    else if (d.file? here).isSome then .error (if rest = [] then .alreadyExists else .notDirectory)
    else { d with directories := d.directories ++ [here] }.makeBelow here rest

/-- The disk with a directory made, and those above it. -/
def makeDirectories (d : Disk) (path : DiskPath) : Except DiskError Disk := d.makeBelow [] path

/-- Replace the disk, unless the operation is refused. -/
def orRefuse : Except DiskError Disk → StateM Disk (Except String Unit)
  | .ok d => do
    set d
    return .ok ()
  | .error e => return .error e.message

/-- The disk as the world of a command. -/
def host : CommandHost (StateM Disk) where
  fileBytes path := return ((← get).bytes (parts path)).mapError (·.message)
  writeFile path text := do
    orRefuse ((← get).write (parts path) (Utf8.encode text.toList))
  makeDirectories path := do orRefuse ((← get).makeDirectories (parts path))
  isDirectory path := return (← get).isDirectory (parts path)
  printOut text := modify fun d => { d with out := d.out ++ text }
  printErr text := modify fun d => { d with err := d.err ++ text }

end Disk

end FuzzCampaign
