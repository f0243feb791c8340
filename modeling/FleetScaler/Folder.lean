import FleetScaler.Terminated

/-!
# Files by their paths

A working folder holds some files and no folders. A path leads to a file by the name of the file,
with steps that stay where they are (`.`, or nothing between two slashes) and steps upwards (`..`)
before it. No step leads through a name, since names are names of files, and nothing may follow
one, not even a slash.

The limits are those of the file systems in common use: 255 bytes for a name and 4095 for a path.
Of the folders above the working folder nothing is known but that they are there, and of the
folders that are reached from the root only the root itself.
-/

namespace FleetScaler

/-- What is found at a path on opening it for reading. -/
inductive Found where
  /-- There is nothing to open. -/
  | nothing
  /-- A folder, which can be opened although nothing can be read from it. -/
  | folder
  /-- A file with its text. -/
  | text (contents : String)
  deriving DecidableEq, Repr

/-- What becomes of a text that is to be written at a path. -/
inductive Written where
  /-- There is no file to open for writing. -/
  | notOpened
  /-- The file could be opened, but did not take all of the text. -/
  | broken
  /-- The text is in the file. -/
  | whole
  deriving DecidableEq, Repr

/-- Where a path leads, seen from the working folder. -/
inductive Location where
  /-- The working folder itself or a folder above it. -/
  | folder
  /-- The file of a name in the folder that is so many levels above the working folder. -/
  | file (levels : Nat) (name : String)
  deriving DecidableEq, Repr

namespace Location

/-- The bytes that a name may have. -/
def nameLimit : Nat := 255

/-- The bytes that a path may have. -/
def pathLimit : Nat := 4095

/-- What stands between the slashes of a text. -/
def splitSlashes : List Char → List (List Char)
  | [] => [[]]
  | c :: rest =>
    if c = '/' then [] :: splitSlashes rest
    else
      match splitSlashes rest with
      | [] => [[c]]
      | step :: steps => (c :: step) :: steps

/-- The steps of a path. -/
def steps (path : String) : List String := (splitSlashes path.toList).map String.ofList

/-- Where the steps of a path lead from a folder that is so many levels above the working folder. -/
def follow (levels : Nat) : List String → Option Location
  | [] => some folder
  | step :: rest =>
    if step = "" || step = "." then follow levels rest
    else if step = ".." then follow (levels + 1) rest
    else if rest = [] && step.utf8ByteSize ≤ nameLimit then some (file levels step)
    else none

/-- Where a path leads, if it leads anywhere. -/
def ofPath (path : String) : Option Location :=
  let path := beforeNul path
  if path = "" || pathLimit < path.utf8ByteSize then none
  else
    match follow 0 (steps path) with
    | some (file levels name) => if path.startsWith "/" then none else some (file levels name)
    | found => found

end Location

/-- The files in and above a working folder: each the path and the text that it was written with.
Of two texts for one file the later one is kept. -/
structure Folder where
  files : List (String × String) := []
  deriving Repr

namespace Folder

/-- What is found at a path. -/
def find (f : Folder) (path : String) : Found :=
  match Location.ofPath path with
  | none => .nothing
  | some .folder => .folder
  | some location =>
    match (f.files.filter fun (path, _) => Location.ofPath path = some location).getLast? with
    | none => .nothing
    | some (_, text) => .text text

/-- A file can be written at a path. -/
def isWritable (path : String) : Bool :=
  match Location.ofPath path with
  | some (.file _ _) => true
  | _ => false

/-- What becomes of a text that is to be written at a path, where a file takes whatever it is
given. -/
def written (path : String) : Written := if isWritable path then .whole else .notOpened

end Folder

end FleetScaler
