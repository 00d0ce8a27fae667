/-!
# Paths

The path of a file as text, and as the steps that it describes.  Empty parts
between slashes, and points that lead nowhere, are no steps.
-/

namespace Courier.Path

/-- A step of a path. -/
inductive Step where
  /-- To the root of all directories. -/
  | root
  /-- Nowhere, at the front of a path. -/
  | here
  /-- To the directory around this one. -/
  | up
  | down (name : String)
deriving DecidableEq, Repr, Inhabited

namespace Step

/-- How a step is written. -/
def text : Step → String
  | root => "/"
  | here => "."
  | up => ".."
  | down name => name

end Step

/-- Whether a path starts at the root. -/
def isAbsolute (path : String) : Bool :=
  path.toList.head? == some '/'

/-- The step that a part between slashes describes, if it is one. -/
def stepOf? (part : String) : Option Step :=
  if part = "" ∨ part = "." then none
  else if part = ".." then some .up
  else some (.down part)

/-- The steps of a path. -/
def steps (path : String) : List Step :=
  let parts := path.splitOn "/"
  let first : List Step :=
    if isAbsolute path then [.root]
    else if parts.head? = some "." then [.here]
    else []
  first ++ parts.filterMap stepOf?

/-- The path of steps. -/
def ofSteps : List Step → String
  | [] => ""
  | .root :: rest => "/" ++ "/".intercalate (rest.map Step.text)
  | steps => "/".intercalate (steps.map Step.text)

/-- A path seen from a directory; one that starts at the root stays what it is. -/
def join (directory path : String) : String :=
  if isAbsolute path || directory = "" then path
  else if directory.toList.getLast? = some '/' then directory ++ path
  else directory ++ "/" ++ path

/-- The name at the end of a path, if it ends in one. -/
def fileName? (path : String) : Option String :=
  match (steps path).getLast? with
  | some (.down name) => some name
  | _ => none

/-- What follows the last point of a name, unless that point is its first
character. -/
def extensionOf? (name : String) : Option String :=
  let after := (name.toList.reverse.takeWhile fun c => c != '.').reverse
  if after.length + 1 < name.length then some (String.ofList after) else none

/-- The extension of the name at the end of a path. -/
def extension? (path : String) : Option String :=
  (fileName? path).bind extensionOf?

/-- The path without its last step; a root has nothing around it. -/
def parent? (path : String) : Option String :=
  match (steps path).getLast? with
  | none | some .root => none
  | some _ => some (ofSteps (steps path).dropLast)

/-- The directories around a directory, from itself to the root; `fuel` bounds
their number. -/
def ancestors : (fuel : Nat) → String → List String
  | 0, _ => []
  | fuel + 1, path =>
      path ::
        match parent? path with
        | some outer => ancestors fuel outer
        | none => []

/-- The steps from one absolute path to another: up to what they share, then
down. -/
def stepsBetween : (start goal : List Step) → List Step
  | [], goal => goal
  | start, [] => start.map fun _ => .up
  | a :: start, b :: goal =>
      if a = b then stepsBetween start goal
      else (a :: start).map (fun _ => .up) ++ b :: goal

/-- A path as it is shown from a directory: relative to it, if that takes fewer
steps. -/
def shownFrom (directory path : String) : String :=
  let relative := stepsBetween (steps directory) (steps path)
  if relative.length < (steps path).length then ofSteps relative else path

end Courier.Path
