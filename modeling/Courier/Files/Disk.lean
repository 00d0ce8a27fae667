import Courier.Files.Path

/-!
# Files

What can be found under a path.  A disk holds files and directories by the names
that lead to them from the root, and a working directory for paths that do not
start there.
-/

namespace Courier

/-- What a path leads to. -/
inductive FileEntry where
  | file (text : String)
  | directory
deriving DecidableEq, Repr, Inhabited

namespace FileEntry

/-- The text of a file. -/
def text? : FileEntry → Option String
  | file text => some text
  | directory => none

end FileEntry

/-- Files and directories, each with the names that lead to it. -/
structure Disk where
  /-- The working directory. -/
  here : List String
  files : List (List String × String) := []
  directories : List (List String) := []
deriving Inhabited

namespace Disk

/-- Whether names lead to a directory. -/
def isDirectory (d : Disk) (names : List String) : Bool :=
  d.directories.contains names

/-- What names lead to. -/
def entry? (d : Disk) (names : List String) : Option FileEntry :=
  match d.files.lookup names with
  | some text => some (.file text)
  | none => if d.isDirectory names then some .directory else none

/-- The place that steps lead to from a directory; only directories can be passed
through. -/
def walk (d : Disk) : List String → List Path.Step → Option (List String)
  | place, [] => some place
  | place, step :: rest =>
      match step with
      | .root => walk d [] rest
      | .here => if d.isDirectory place then walk d place rest else none
      | .up => if d.isDirectory place then walk d place.dropLast rest else none
      | .down name => if d.isDirectory place then walk d (place ++ [name]) rest else none

/-- The place that a path names, whether or not there is anything. -/
def place? (d : Disk) (path : String) : Option (List String) :=
  if path = "" then none else d.walk d.here (Path.steps path)

/-- What a path leads to.  Only a directory can be written with a slash at the
end. -/
def look (d : Disk) (path : String) : Option FileEntry :=
  let asDirectory := path.toList.getLast? == some '/' || path.endsWith "/."
  ((d.place? path).bind d.entry?).filter fun e => !asDirectory || e == .directory

/-- Make a directory and those around it. -/
def addDirectory (d : Disk) (names : List String) : Disk :=
  let around := (List.range (names.length + 1)).map names.take
  { d with directories := d.directories ++ around.filter fun p => !d.isDirectory p }

/-- Make a file and the directories around it; a file that is there is
replaced. -/
def addFile (d : Disk) (names : List String) (text : String) : Disk :=
  let d := d.addDirectory names.dropLast
  { d with files := (names, text) :: d.files.filter fun f => f.1 ≠ names }

/-- The place that steps lead to from a directory, with all directories on the way
made if they are missing. -/
def reach (d : Disk) : List String → List Path.Step → Disk × List String
  | place, [] => (d, place)
  | _, .root :: rest => reach d [] rest
  | place, .here :: rest => reach d place rest
  | place, .up :: rest => reach d place.dropLast rest
  | place, .down name :: rest => reach (d.addDirectory (place ++ [name])) (place ++ [name]) rest

/-- Open a file for appending: the place of the file, which is made if it is
missing. -/
def openFile (d : Disk) (directory name : String) : Disk × List String :=
  let (d, place) := d.reach d.here (Path.steps directory)
  let file := place ++ [name]
  match d.files.lookup file with
  | some _ => (d, file)
  | none => (d.addFile file "", file)

end Disk

end Courier
