import Courier.Files.Disk
import Courier.Settings.Environment
import Courier.Settings.Layer
import Courier.Settings.Profile
import Courier.Settings.Validation
import Courier.Toml.Document

/-!
# Loading settings

A loader gathers layers in a fixed order: the defaults, what the program merges
in, the file of the profile, the main file and the environment variables.  It
reads at most one main file, either a given one or the first that is found, and
the file of the profile only beside a main file that was found.
-/

namespace Courier

/-- What a loader can see of the machine. -/
structure Machine where
  /-- What a path leads to, seen from the working directory. -/
  look : String → Option FileEntry
  workingDirectory : String
  /-- The directory for the settings of the user. -/
  userDirectory : Option String := none
  /-- The environment variables, in their order. -/
  environment : List (String × String) := []

namespace Machine

/-- The value of an environment variable. -/
def valueOf? (m : Machine) (name : String) : Option String :=
  m.environment.lookup name

/-- Whether a path leads anywhere. -/
def has (m : Machine) (path : String) : Bool :=
  (m.look path).isSome

/-- The text of a file with the path under which it is found.  A path that does
not start at the root is also tried from the directories around the working
one. -/
def readFile? (m : Machine) (path : String) : Option (String × String) :=
  let places :=
    if Path.isAbsolute path then [path]
    else
      (Path.ancestors (m.workingDirectory.length + 1) m.workingDirectory).map fun directory =>
        Path.join directory path
  places.findSome? fun place =>
    ((m.look place).bind FileEntry.text?).map fun text => (place, text)

end Machine

/-- How settings are to be loaded. -/
structure Loader where
  /-- Settings that the program gives, in the order in which they count. -/
  merged : List Settings := []
  profile : Profile := .development
  /-- The directories to search; if there are none, the usual ones. -/
  searchPaths : List String := []
  readsVariables : Bool := true
  /-- The file to read instead of searching. -/
  file : Option String := none

/-- What loading settings gives, and what is reported on the way. -/
structure Loading where
  result : Except SettingsError Settings
  log : List LogLine := []

namespace Loader

/-- The loader that the environment suggests. -/
def ofMachine (m : Machine) : Loader :=
  { profile := .ofVariable (m.valueOf? Profile.variableName) }

/-- Choose a profile. -/
def withProfile (l : Loader) (name : String) : Loader :=
  { l with profile := .ofName name }

/-- Search one more directory. -/
def search (l : Loader) (path : String) : Loader :=
  { l with searchPaths := l.searchPaths ++ [path] }

/-- The directory for the settings of the user. -/
def userPath? (m : Machine) : Option String :=
  m.userDirectory.map fun directory => Path.join directory "herald"

/-- Search the directory for the settings of the user. -/
def searchUser (l : Loader) (m : Machine) : Loader :=
  match userPath? m with
  | some path => l.search path
  | none => l

/-- Lay settings over those that are merged so far. -/
def merge (l : Loader) (s : Settings) : Loader :=
  { l with merged := l.merged ++ [s] }

/-- The extension of a file that can be read. -/
def extension : String := "toml"

/-- The names of main files without extension, in the order in which they are
tried. -/
def stems : List String :=
  ["herald", "config"]

/-- The directories that are searched. -/
def directories (l : Loader) (m : Machine) : List String :=
  if l.searchPaths.isEmpty then m.workingDirectory :: (userPath? m).toList
  else l.searchPaths

/-- A place where a main file may be. -/
structure Candidate where
  directory : String
  stem : String
deriving DecidableEq, Repr

namespace Candidate

/-- The path of the main file. -/
def path (c : Candidate) : String :=
  Path.join c.directory (c.stem ++ "." ++ extension)

/-- The path of the file of a profile beside it. -/
def profilePath (c : Candidate) (p : Profile) : String :=
  Path.join c.directory (c.stem ++ "." ++ p.name ++ "." ++ extension)

end Candidate

/-- The places where a main file may be, in the order in which they are tried. -/
def candidates (l : Loader) (m : Machine) : List Candidate :=
  (l.directories m).flatMap fun directory => stems.map fun stem => ⟨directory, stem⟩

/-- The first place where there is a main file. -/
def found? (l : Loader) (m : Machine) : Option Candidate :=
  (l.candidates m).find? fun c => m.has c.path

/-- The layer of a file; a directory in its place is no layer. -/
def fileLayer (m : Machine) (path : String) : List Layer :=
  match m.readFile? path with
  | some (place, text) => [⟨.file (Path.shownFrom m.workingDirectory place), Toml.parse text⟩]
  | none => []

/-- Layers, and what is reported about them. -/
structure Gathered where
  layers : List Layer := []
  log : List LogLine := []

namespace Gathered

/-- Both, one after the other. -/
def append (g h : Gathered) : Gathered :=
  ⟨g.layers ++ h.layers, g.log ++ h.log⟩

end Gathered

/-- A main file. -/
def mainFile (m : Machine) (path : String) : Gathered :=
  ⟨fileLayer m path, [.note .info "Loading configuration file" [("path", path)]]⟩

/-- The file of a profile, if there is one. -/
def profileFile (m : Machine) (path : String) : Gathered :=
  if m.has path then
    ⟨fileLayer m path, [.note .debug "Loading profile-specific config" [("path", path)]]⟩
  else {}

/-- The one file that is asked for. -/
def givenFile (m : Machine) (path : String) : Except SettingsError Gathered :=
  if !m.has path then .error (.fileNotFound path)
  else if Path.extension? path ≠ some extension then
    .error (.parse ("Unsupported or disabled configuration file format: " ++ path))
  else .ok (mainFile m path)

/-- The files that are found. -/
def foundFiles (l : Loader) (m : Machine) : Gathered :=
  match l.found? m with
  | some c => (profileFile m (c.profilePath l.profile)).append (mainFile m c.path)
  | none => ⟨[], [.note .warn "No configuration file found, using defaults" []]⟩

/-- The files that count. -/
def files (l : Loader) (m : Machine) : Except SettingsError Gathered :=
  match l.file with
  | some path => givenFile m path
  | none => .ok (l.foundFiles m)

/-- The environment variables, if they count. -/
def environment (l : Loader) (m : Machine) : Gathered :=
  if l.readsVariables then
    ⟨[⟨.environment, some (Environment.tree m.environment)⟩],
      [.note .trace "Loading environment variables with HERALD_ prefix" []]⟩
  else {}

/-- What the program itself says: the defaults and what it merges in. -/
def program (l : Loader) : List Layer :=
  ({} :: l.merged).map Layer.ofSettings

/-- All layers, the last one on top. -/
def gather (l : Loader) (m : Machine) : Except SettingsError Gathered := do
  let files ← l.files m
  return (⟨l.program, []⟩ : Gathered).append (files.append (l.environment m))

/-- What is reported about settings that are loaded. -/
def loaded (p : Profile) (s : Settings) : LogLine :=
  .note .debug "Configuration loaded successfully"
    [("profile", p.name), ("logging_level", s.logging.level.name),
      ("audit_log", if s.bus.auditLog then "true" else "false")]

/-- Load settings: they have to fit, and to be valid.  The settings are new ones, and
so is the order in which their keys are visited. -/
def load (l : Loader) (m : Machine) (order : KeyOrder := .listed) : Loading :=
  match l.gather m with
  | .error e => ⟨.error e, []⟩
  | .ok g =>
      match (Layer.settings g.layers).bind (·.validate order) with
      | .error e => ⟨.error e, g.log⟩
      | .ok s => ⟨.ok s, g.log ++ [loaded l.profile s]⟩

/-- Load settings from the usual places. -/
def loadUsual (m : Machine) (order : KeyOrder := .listed) : Loading :=
  (ofMachine m).load m order

/-- Load settings from one file. -/
def loadFile (m : Machine) (path : String) (order : KeyOrder := .listed) : Loading :=
  { ofMachine m with file := some path }.load m order

end Loader

end Courier
