import ParseReport.CommandLine.Source

/-!
# Folders in memory

A folder of files with their contents, read as the system reads one: a path is
followed name by name, and the first name that cannot be followed decides the
error. A file may lie in subfolders, which its name gives. The folder itself
lies below the root, where no path finds it by name, and around it there is only
what every system has.
-/

namespace ParseReport

/-- Files by their paths from a folder, which every path starts from unless it starts at the
root. -/
structure Folder where
  files : List (Text × ByteArray)
  /-- The names that lead from the root to the folder. A new folder has a name that nobody knows:
  one with a slash in it, which no path spells. -/
  location : List Text := ["tmp".toList, "/".toList]

namespace Folder

/-- The names on a path. Two slashes in a row have an empty name between them. -/
def names (path : Text) : List Text := path.splitOn '/'

/-- Whether a name stays where it is. -/
def isStay (name : Text) : Bool := name = [] ∨ name = ['.']

/-- What a path leads to. -/
inductive Place
  | file (bytes : ByteArray)
  /-- A directory, by the names that lead to it from the root. -/
  | directory (names : List Text)

/-- Directories that every system has. -/
def systemDirectories : List (List Text) :=
  ["/", "/bin", "/dev", "/etc", "/home", "/lib", "/opt", "/proc", "/run", "/sys", "/tmp", "/usr",
    "/usr/bin", "/usr/lib", "/var"].map fun path => (names path.toList).filter (!isStay ·)

/-- Files that every system has and in which there is nothing to read. -/
def systemEmptyFiles : List (List Text) :=
  ["/dev/null", "/dev/stdin"].map fun path => (names path.toList).filter (!isStay ·)

/-- The files with the names that lead to them from the root. -/
def entries (f : Folder) : List (List Text × ByteArray) :=
  f.files.map fun (name, bytes) => (f.location ++ (names name).filter (!isStay ·), bytes)

/-- Whether there is a directory with the given names. -/
def hasDirectory (f : Folder) (path : List Text) : Bool :=
  path.isPrefixOf f.location || f.entries.any (path.isPrefixOf ·.1)
    || systemDirectories.contains path

/-- The place with the given names, if there is one. -/
def place? (f : Folder) (path : List Text) : Option Place :=
  match f.entries.find? (·.1 = path) with
  | some (_, bytes) => some (.file bytes)
  | none =>
    if f.hasDirectory path then some (.directory path)
    else if systemEmptyFiles.contains path then some (.file .empty)
    else none

/-- Follows one name. Only a directory can be followed on, the root is above itself, and no
directory holds a name of more than 255 bytes. -/
def follow (f : Folder) (place : Place) (name : Text) : Except ReadError Place :=
  match place with
  | .file _ => .error .notDirectory
  | .directory path =>
    if isStay name then .ok place
    else if name = "..".toList then .ok (.directory path.dropLast)
    else if 255 < name.size then .error .nameTooLong
    else
      match f.place? (path ++ [name]) with
      | some place => .ok place
      | none => .error .notFound

/-- Where a path leads. -/
def find (f : Folder) (path : Text) : Except ReadError Place :=
  if path = [] then .error .notFound
  else if 4095 < path.size then .error .nameTooLong
  else (names path).foldlM f.follow (.directory (if path.head? = some '/' then [] else f.location))

/-- Reads the text of a file. -/
def read (f : Folder) (path : Text) : Except ReadError Text := do
  match ← f.find path with
  | .file bytes => decodeSource bytes
  | .directory _ => throw .isDirectory

end Folder

end ParseReport
