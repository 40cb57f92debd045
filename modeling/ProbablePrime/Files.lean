/-
  ProbablePrime.Files — files and directories as a value.

  A snapshot holds every file and directory under its full name, the list of the names on the way
  from the root.  A path is walked name by name: each step needs a directory to stand in, and only
  the last name may be missing, which is an error for reading and a new file for writing.  A name
  with a slash behind it can only be that of a directory, so nothing can be written there.
-/
namespace ProbablePrime

/-! ## §1. Faults. -/

/-- Why a file cannot be read or written. -/
inductive FileFault where
  /-- There is nothing of this name. -/
  | notFound
  /-- There is a directory of this name. -/
  | isDirectory
  /-- A name on the way is not a directory. -/
  | notDirectory
  /-- A name, or the whole path, takes more bytes than names and paths may. -/
  | nameTooLong
  /-- The content is not text in UTF-8. -/
  | notText
  /-- Something else, in the words of the system. -/
  | other (message : String)
  deriving DecidableEq, Repr

/-- The wording of a fault. -/
def FileFault.message : FileFault → String
  | .notFound => "No such file or directory (os error 2)"
  | .isDirectory => "Is a directory (os error 21)"
  | .notDirectory => "Not a directory (os error 20)"
  | .nameTooLong => "File name too long (os error 36)"
  | .notText => "stream did not contain valid UTF-8"
  | .other message => message

/-! ## §2. Snapshots. -/

/-- What a name stands for. -/
inductive Entry where
  /-- A file with its content. -/
  | file (content : ByteArray)
  /-- A directory. -/
  | directory

/-- A snapshot of files and directories. -/
structure Files where
  /-- The working directory. -/
  here : List String
  /-- Everything below the root, by its full name. -/
  entries : List (List String × Entry)

namespace Files

/-- What stands under a full name; the root is a directory. -/
def entry? (files : Files) (name : List String) : Option Entry :=
  if name.isEmpty then some .directory else files.entries.lookup name

/-- The same snapshot with an entry added or replaced. -/
def put (files : Files) (name : List String) (entry : Entry) : Files :=
  { files with entries := (name, entry) :: files.entries.filter fun e => e.1 != name }

/-- The greatest number of bytes in a name. -/
def longestName : Nat := 255

/-- The greatest number of bytes in a path. -/
def longestPath : Nat := 4095

/-- Takes one step of a path from where it stands. -/
def walkStep (files : Files) (place : List String) (part : String) :
    Except FileFault (List String) :=
  match files.entry? place with
  | none => .error .notFound
  | some (.file _) => .error .notDirectory
  | some .directory =>
    -- Every step is taken from a directory, even one that stays where it is.
    if part = "" ∨ part = "." then .ok place
    else if part = ".." then .ok place.dropLast
    else if longestName < part.utf8ByteSize then .error .nameTooLong
    else .ok (place ++ [part])

/-- The place that the parts of a path lead to. -/
def walkParts (files : Files) (path : String) : Except FileFault (List String) :=
  (path.splitOn "/").foldlM files.walkStep (if path.startsWith "/" then [] else files.here)

/-- Refuses a path that is too long, wherever it leads. -/
def measure (path : String) : Except FileFault Unit :=
  if longestPath < path.utf8ByteSize then .error .nameTooLong else .ok ()

/-- The full name that a path leads to. -/
def walk (files : Files) (path : String) : Except FileFault (List String) := do
  measure path
  files.walkParts path

/-! ## §3. Reading and writing. -/

/-- The content of the file at a path. -/
def read (files : Files) (path : String) : Except FileFault ByteArray := do
  match files.entry? (← files.walk path) with
  | none => .error .notFound
  | some .directory => .error .isDirectory
  | some (.file content) => .ok content

/-- The text of the file at a path. -/
def readText (files : Files) (path : String) : Except FileFault String := do
  match String.fromUTF8? (← files.read path) with
  | some text => .ok text
  | none => .error .notText

/-- What stands in a path in front of a last name that has slashes behind it.  The signs for staying
and for going back are no such names. -/
def beforeSlashedName? (path : String) : Option String :=
  let back := path.toList.reverse
  let named := back.dropWhile (· == '/')
  let name := named.takeWhile (· != '/')
  if back.head? != some '/' || name.isEmpty || name == ['.'] || name == ['.', '.'] then none
  else some (String.ofList (named.dropWhile (· != '/')).reverse)

/-- The full name under which a file can be written at a path. -/
def walkToWrite (files : Files) (path : String) : Except FileFault (List String) := do
  measure path
  match beforeSlashedName? path with
  | none => files.walkParts path
  | some before =>
    -- The way there is walked first, and has faults of its own.
    let _ ← files.walkParts before
    .error .isDirectory

/-- The snapshot after a file was written at a path. -/
def write (files : Files) (path : String) (content : ByteArray) : Except FileFault Files := do
  let name ← files.walkToWrite path
  match files.entry? name with
  | some .directory => .error .isDirectory
  | _ => .ok (files.put name (.file content))

/-- The path of a file in a directory. -/
def join (directory file : String) : String :=
  if directory.endsWith "/" then directory ++ file else directory ++ "/" ++ file

end Files

end ProbablePrime
