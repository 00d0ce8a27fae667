import Courier.Proofs.Settings.Merging

/-!
# Which files count

A loader that searches directories takes the first main file that it finds, and the file of the
profile beside it.  Files in other places do not matter, and without a main file no file of a
profile is read; the environment matters only where a loader asks it (`Loader.load_selected`).

This takes for granted that what is found there can be read there.  Where a directory has the name
of a main file, the search ends; but a reader that is given its path from the working directory
goes on to the directories around that one, and reads what is found there under the same path
(`Loader.load_outerFile`).
-/

namespace Courier

/-! ## Paths -/

namespace Path

theorem isAbsolute_append {directory : String} (absolute : isAbsolute directory = true)
    (path : String) : isAbsolute (directory ++ path) = true := by
  unfold isAbsolute at absolute ⊢
  rw [String.toList_append]
  cases letters : directory.toList with
  | nil =>
      rw [letters] at absolute
      contradiction
  | cons c rest =>
      rw [letters] at absolute
      exact absolute

theorem isAbsolute_join {directory : String} (absolute : isAbsolute directory = true)
    (path : String) : isAbsolute (join directory path) = true := by
  unfold join
  split
  case isTrue asItIs =>
    rcases Bool.or_eq_true_iff.mp asItIs with isAbsolute | isEmpty
    · exact isAbsolute
    · rw [of_decide_eq_true isEmpty] at absolute
      contradiction
  case isFalse =>
    split
    · exact isAbsolute_append absolute path
    · exact isAbsolute_append (isAbsolute_append absolute "/") path

theorem join_of_isAbsolute {path : String} (absolute : isAbsolute path = true)
    (directory : String) : join directory path = path := by
  rw [join, absolute, Bool.true_or, if_pos rfl]

theorem join_ne_empty {path : String} (nonempty : path ≠ "") (directory : String) :
    join directory path ≠ "" := by
  unfold join
  split
  · exact nonempty
  · split <;> simp [nonempty]

end Path

/-! ## Machines on which paths mean what they say -/

namespace Machine

/-- A path that does not start at the root leads where it leads to from the working directory. -/
def Coherent (m : Machine) : Prop :=
  ∀ path, path ≠ "" → Path.isAbsolute path = false →
    m.look (Path.join m.workingDirectory path) = m.look path

/-- A machine with the given files and directories, each at its place from the root. -/
def ofPlaces (places : List (String × FileEntry)) (workingDirectory : String) : Machine where
  look path := if path = "" then none else places.lookup (Path.join workingDirectory path)
  workingDirectory := workingDirectory

theorem coherent_ofPlaces (places : List (String × FileEntry)) {workingDirectory : String}
    (absolute : Path.isAbsolute workingDirectory = true) :
    (ofPlaces places workingDirectory).Coherent := by
  intro path nonempty _
  have joined := Path.isAbsolute_join absolute path
  simp only [ofPlaces]
  rw [if_neg (Path.join_ne_empty nonempty workingDirectory), if_neg nonempty,
    Path.join_of_isAbsolute joined]

/-- A reader does not pass over what a path leads to.  It would pass over a directory, to look
around the working directory for a file, unless the path starts at the root. -/
def ReadsInPlace (m : Machine) (path : String) : Prop :=
  m.look path = some .directory → Path.isAbsolute path = true

variable {m m' : Machine} {path : String}

/-- What is read under a path where there is something is the text of that. -/
theorem readFile?_of_has (coherent : m.Coherent) (nonempty : path ≠ "")
    (inPlace : m.ReadsInPlace path) (has : m.has path = true) :
    m.readFile? path = ((m.look path).bind FileEntry.text?).map fun text =>
      (Path.join m.workingDirectory path, text) := by
  unfold readFile?
  by_cases absolute : Path.isAbsolute path = true
  · rw [if_pos absolute, Path.join_of_isAbsolute absolute, List.findSome?_singleton]
  · rw [if_neg absolute]
    obtain ⟨entry, found⟩ := Option.isSome_iff_exists.mp has
    cases entry with
    | directory => exact absurd (inPlace found) absolute
    | file text =>
        have fromHere : m.look (Path.join m.workingDirectory path) = some (.file text) :=
          (coherent path nonempty (Bool.not_eq_true _ ▸ absolute)).trans found
        rw [Path.ancestors, List.map_cons, List.findSome?_cons, fromHere, found]
        rfl

end Machine

namespace Loader

/-! ## The files that are selected -/

/-- The places that are searched: in each directory the two names of a main file. -/
def places (l : Loader) : List Candidate :=
  l.searchPaths.flatMap fun directory => [⟨directory, "herald"⟩, ⟨directory, "config"⟩]

/-- The candidate is the first place with anything in it. -/
def Selects (l : Loader) (m : Machine) (c : Candidate) : Prop :=
  ∃ before behind, l.places = before ++ c :: behind ∧ m.has c.path = true ∧
    ∀ other ∈ before, m.has other.path = false

/-- There is nothing in any of the places. -/
def SelectsNone (l : Loader) (m : Machine) : Prop :=
  ∀ c ∈ l.places, m.has c.path = false

variable {l : Loader} {m m' : Machine} {c : Candidate} {order : KeyOrder}

theorem candidates_eq_places (searches : l.searchPaths ≠ []) (m : Machine) :
    l.candidates m = l.places := by
  have nonempty : l.searchPaths.isEmpty = false := by
    cases paths : l.searchPaths with
    | nil => exact absurd paths searches
    | cons => rfl
  rw [candidates, directories, nonempty]
  rfl

theorem found?_eq_some_iff (searches : l.searchPaths ≠ []) :
    l.found? m = some c ↔ l.Selects m c := by
  rw [found?, candidates_eq_places searches, List.find?_eq_some_iff_append]
  constructor
  · rintro ⟨has, before, behind, places, nothing⟩
    exact ⟨before, behind, places, has, fun other mem => by simpa using nothing other mem⟩
  · rintro ⟨before, behind, places, has, nothing⟩
    exact ⟨has, before, behind, places, fun other mem => by simpa using nothing other mem⟩

theorem found?_eq_none_iff (searches : l.searchPaths ≠ []) :
    l.found? m = none ↔ l.SelectsNone m := by
  rw [found?, candidates_eq_places searches, List.find?_eq_none]
  simp [SelectsNone]

theorem Candidate.path_ne_empty (c : Candidate) : c.path ≠ "" :=
  Path.join_ne_empty (by simp [extension]) _

theorem Candidate.profilePath_ne_empty (c : Candidate) (p : Profile) : c.profilePath p ≠ "" :=
  Path.join_ne_empty (by simp [extension]) _

/-! ## Machines that differ elsewhere -/

/-- What a loader sees of two machines is the same, but for files. -/
structure SameBesidesFiles (l : Loader) (m m' : Machine) : Prop where
  workingDirectory : m.workingDirectory = m'.workingDirectory
  environment : l.readsVariables = true → m.environment = m'.environment

/-- A path leads to the same on two machines, and a reader does not pass over it. -/
structure SameFile (m m' : Machine) (path : String) : Prop where
  look : m.look path = m'.look path
  inPlace : m.ReadsInPlace path

theorem SameFile.fileLayer_eq {path : String} (file : SameFile m m' path) (coherent : m.Coherent)
    (coherent' : m'.Coherent) (here : m.workingDirectory = m'.workingDirectory)
    (nonempty : path ≠ "") (has : m.has path = true) :
    fileLayer m path = fileLayer m' path := by
  have inPlace' : m'.ReadsInPlace path := by
    intro isDirectory
    exact file.inPlace (file.look.trans isDirectory)
  have has' : m'.has path = true := by
    rw [Machine.has, ← file.look]
    exact has
  unfold fileLayer
  rw [Machine.readFile?_of_has coherent nonempty file.inPlace has,
    Machine.readFile?_of_has coherent' nonempty inPlace' has', file.look, here]

theorem SameFile.profileFile_eq {path : String} (file : SameFile m m' path)
    (coherent : m.Coherent) (coherent' : m'.Coherent)
    (here : m.workingDirectory = m'.workingDirectory) (nonempty : path ≠ "") :
    profileFile m path = profileFile m' path := by
  have sameHas : m.has path = m'.has path := congrArg Option.isSome file.look
  unfold profileFile
  rw [← sameHas]
  cases has : m.has path with
  | false => rfl
  | true => rw [file.fileLayer_eq coherent coherent' here nonempty has]

theorem SameBesidesFiles.environment_eq (same : l.SameBesidesFiles m m') :
    Loader.environment l m = Loader.environment l m' := by
  unfold Loader.environment
  cases reads : l.readsVariables with
  | false => rfl
  | true => rw [same.environment reads]

theorem load_congr (noFile : l.file = none) (files : l.foundFiles m = l.foundFiles m')
    (same : l.SameBesidesFiles m m') : l.load m order = l.load m' order := by
  have gathered : l.gather m = l.gather m' := by
    simp only [gather, Loader.files, noFile, files, same.environment_eq]
  rw [load, load, gathered]

/-- Only the selected files matter. -/
theorem Selects.load_eq (noFile : l.file = none) (searches : l.searchPaths ≠ [])
    (coherent : m.Coherent) (coherent' : m'.Coherent) (same : l.SameBesidesFiles m m')
    (selects : l.Selects m c) (selects' : l.Selects m' c) (main : SameFile m m' c.path)
    (profile : SameFile m m' (c.profilePath l.profile)) : l.load m order = l.load m' order := by
  apply load_congr noFile _ same
  have has : m.has c.path = true := by
    obtain ⟨_, _, _, has, _⟩ := selects
    exact has
  have mainEq : mainFile m c.path = mainFile m' c.path := by
    rw [mainFile, mainFile, main.fileLayer_eq coherent coherent' same.workingDirectory
      c.path_ne_empty has]
  rw [foundFiles, foundFiles, (found?_eq_some_iff searches).mpr selects,
    (found?_eq_some_iff searches).mpr selects']
  dsimp only
  rw [mainEq, profile.profileFile_eq coherent coherent' same.workingDirectory
    (c.profilePath_ne_empty _)]

/-- Without a main file no file matters. -/
theorem SelectsNone.load_eq (noFile : l.file = none) (searches : l.searchPaths ≠ [])
    (same : l.SameBesidesFiles m m') (none : l.SelectsNone m) (none' : l.SelectsNone m') :
    l.load m order = l.load m' order := by
  apply load_congr noFile _ same
  rw [foundFiles, foundFiles, (found?_eq_none_iff searches).mpr none,
    (found?_eq_none_iff searches).mpr none']

/-! ## Loaders and the environment -/

/-- The same machine with other environment variables, and with another directory for the settings
of the user, which depends on such variables. -/
def inEnvironment (m : Machine) (values : List (String × String)) (user : Option String) :
    Machine :=
  { m with environment := values, userDirectory := user }

/-- What a program can ask of a loader before it loads.  The directory for the settings of the user
is searched like others. -/
inductive Request where
  | profile (name : String)
  | search (path : String)
  | file (path : String)
  | merge (s : Settings)
  | readVariables (reads : Bool)

namespace Request

/-- The loader that does as it is asked. -/
def apply (l : Loader) : Request → Loader
  | profile name => l.withProfile name
  | search path => l.search path
  | file path => { l with file := some path }
  | merge s => l.merge s
  | readVariables reads => { l with readsVariables := reads }

end Request

/-- A new loader that is asked for this and that. -/
def prepared (requests : List Request) (m : Machine) : Loader :=
  requests.foldl Request.apply (ofMachine m)

/-- Who asks for a profile gets a loader that does not depend on the profile it started with. -/
theorem foldl_apply_profile {requests : List Request}
    (explicit : ∃ name, .profile name ∈ requests) (l : Loader) (p : Profile) :
    requests.foldl Request.apply { l with profile := p } = requests.foldl Request.apply l := by
  induction requests generalizing l with
  | nil => simp at explicit
  | cons request rest ih =>
      cases request with
      | profile name => rfl
      | search path => exact ih (by simpa using explicit) (l.search path)
      | file path => exact ih (by simpa using explicit) { l with file := some path }
      | merge s => exact ih (by simpa using explicit) (l.merge s)
      | readVariables reads =>
          exact ih (by simpa using explicit) { l with readsVariables := reads }

theorem prepared_inEnvironment {requests : List Request}
    (explicit : ∃ name, .profile name ∈ requests) (m : Machine)
    (values : List (String × String)) (user : Option String) :
    prepared requests (inEnvironment m values user) = prepared requests m :=
  foldl_apply_profile explicit (ofMachine m) _

theorem load_inEnvironment (searches : l.searchPaths ≠ []) (noVariables : l.readsVariables = false)
    (m : Machine) (values : List (String × String)) (user : Option String) :
    l.load (inEnvironment m values user) order = l.load m order := by
  have found : l.found? (inEnvironment m values user) = l.found? m := by
    rw [found?, found?, candidates_eq_places searches, candidates_eq_places searches]
    rfl
  have files : l.files (inEnvironment m values user) = l.files m := by
    rw [Loader.files, Loader.files, foundFiles, foundFiles, found]
    rfl
  have environment : Loader.environment l (inEnvironment m values user) =
      Loader.environment l m := by
    rw [Loader.environment, Loader.environment, noVariables]
    rfl
  rw [load, load, gather, gather, files, environment]

/-- A loader that searches directories reads the first main file in them and the file of the
profile beside it.  On two machines with the same main file first, and the same file of the
profile, it gives the same, whatever other files there are; and if there is no main file, it reads
no file at all.  Unless it reads the environment it gives the same whatever the variables are, and
so does a new loader that was asked for a profile. -/
theorem load_selected (l : Loader) (order : KeyOrder) (noFile : l.file = none)
    (searches : l.searchPaths ≠ []) :
    (∀ m m' c, m.Coherent → m'.Coherent → l.SameBesidesFiles m m' → l.Selects m c →
      l.Selects m' c → SameFile m m' c.path → SameFile m m' (c.profilePath l.profile) →
        l.load m order = l.load m' order) ∧
    (∀ m m', l.SameBesidesFiles m m' → l.SelectsNone m → l.SelectsNone m' →
      l.fileLayers m = [] ∧ l.load m order = l.load m' order) ∧
    (l.readsVariables = false → ∀ m values user,
      l.load (inEnvironment m values user) order = l.load m order) ∧
    ∀ requests m, prepared requests m = l → l.readsVariables = false →
      (∃ name, .profile name ∈ requests) → ∀ values user,
        (prepared requests (inEnvironment m values user)).load
          (inEnvironment m values user) order = l.load m order := by
  refine ⟨?selected, ?nothing, ?unread, ?new⟩
  case selected =>
    intro m m' c coherent coherent' same selects selects' main profile
    exact selects.load_eq noFile searches coherent coherent' same selects' main profile
  case nothing =>
    intro m m' same none none'
    refine ⟨?_, none.load_eq noFile searches same none'⟩
    rw [fileLayers, noFile, (found?_eq_none_iff searches).mpr none]
  case unread => exact load_inEnvironment searches
  case new =>
    rintro requests m rfl noVariables explicit values user
    rw [prepared_inEnvironment explicit]
    exact load_inEnvironment searches noVariables m values user

/-! ### A loader that searches a directory below the working one -/

/-- A machine with the given files and directories, and with `/w` as working directory. -/
def atWork (places : List (String × FileEntry)) : Machine :=
  .ofPlaces places "/w"

/-- What is asked of the loader: to search a directory, in a situation that is named. -/
def requestsAtWork : List Request :=
  [.profile "dev", .search "sub", .readVariables false]

def ofSub : Loader := { searchPaths := ["sub"], readsVariables := false }

/-- A main file, and the file of the profile beside it. -/
def selectedFiles : List (String × FileEntry) :=
  [("/w/sub/config.toml", .file "bus.audit_log = false"),
    ("/w/sub/config.development.toml", .file "logging.level = \"debug\"")]

/-- Files that do not count beside these: for another profile or main file, in the working
directory, or under the same path in the directory around that one. -/
def strayFiles : List (String × FileEntry) :=
  [("/w/sub/config.production.toml", .file "bus = 3"),
    ("/w/sub/herald.development.toml", .file "bus = 3"), ("/w/herald.toml", .file "bus = 3"),
    ("/sub/config.toml", .file "bus = 3"), ("/sub/herald.toml", .file "bus = 3")]

/-- Stray files change nothing, with selected files or without, and neither does a variable. -/
theorem load_selected_atWork :
    let m := inEnvironment (atWork selectedFiles) [("HERALD_PROFILE", "prod")] none
    ofSub.load (atWork (selectedFiles ++ strayFiles)) = ofSub.load (atWork selectedFiles) ∧
      ofSub.load (atWork strayFiles) = ofSub.load (atWork []) ∧
      (prepared requestsAtWork m).load m = ofSub.load (atWork selectedFiles) := by
  obtain ⟨selected, nothing, _, new⟩ := load_selected ofSub .listed rfl (by decide)
  have coherent : ∀ places, (atWork places).Coherent :=
    fun places => Machine.coherent_ofPlaces places (by decide)
  have same : ∀ places places', ofSub.SameBesidesFiles (atWork places) (atWork places') :=
    fun places places' => ⟨rfl, fun _ => rfl⟩
  have selects : ∀ places, (atWork places).has "sub/herald.toml" = false →
      (atWork places).has "sub/config.toml" = true →
        ofSub.Selects (atWork places) ⟨"sub", "config"⟩ := by
    intro places noHerald config
    exact ⟨[⟨"sub", "herald"⟩], [], rfl, config, List.forall_mem_singleton.mpr noHerald⟩
  have none : ∀ places, (atWork places).has "sub/herald.toml" = false →
      (atWork places).has "sub/config.toml" = false → ofSub.SelectsNone (atWork places) := by
    intro places noHerald noConfig
    have there : ofSub.places = [⟨"sub", "herald"⟩, ⟨"sub", "config"⟩] := rfl
    rw [SelectsNone, there, List.forall_mem_cons, List.forall_mem_singleton]
    exact ⟨noHerald, noConfig⟩
  refine ⟨?_, ?_, ?_⟩
  · apply selected _ _ ⟨"sub", "config"⟩ (coherent _) (coherent _) (same _ _)
      (selects _ (by decide +kernel) (by decide +kernel))
      (selects _ (by decide +kernel) (by decide +kernel))
    · exact ⟨by decide +kernel, by unfold Machine.ReadsInPlace; decide +kernel⟩
    · exact ⟨by decide +kernel, by unfold Machine.ReadsInPlace; decide +kernel⟩
  · exact (nothing _ _ (same _ _) (none _ (by decide +kernel) (by decide +kernel))
      (none _ (by decide +kernel) (by decide +kernel))).2
  · exact new requestsAtWork (atWork selectedFiles) (by rfl) rfl ⟨"dev", by simp [requestsAtWork]⟩
      _ _

/-! ### A directory with the name of a main file -/

/-- Where a main file should be there is a directory. -/
def withDirectory (outer : List (String × FileEntry)) : Machine :=
  atWork (("/w/sub/herald.toml", .directory) :: outer)

/-- A malformed file outside of the working directory. -/
def outerFile : List (String × FileEntry) :=
  [("/sub/herald.toml", .file "bus")]

theorem selects_withDirectory (outer : List (String × FileEntry)) :
    ofSub.Selects (withDirectory outer) ⟨"sub", "herald"⟩ :=
  ⟨[], _, rfl, rfl, List.forall_mem_nil _⟩

theorem fileLayers_withDirectory (outer : List (String × FileEntry))
    (noProfile : (withDirectory outer).has "sub/herald.development.toml" = false) :
    ofSub.fileLayers (withDirectory outer) = fileLayer (withDirectory outer) "sub/herald.toml" := by
  have noProfile' : (withDirectory outer).has
      (Candidate.profilePath ⟨"sub", "herald"⟩ ofSub.profile) = false := noProfile
  have found := (found?_eq_some_iff (by decide)).mpr (selects_withDirectory outer)
  have noFile : ofSub.file = none := rfl
  simp only [fileLayers, noFile, found, noProfile']
  rfl

/-- A path is looked up in the working directory, and then in the root. -/
theorem readFile?_atWork (places : List (String × FileEntry)) {path : String}
    (relative : Path.isAbsolute path = false) :
    (atWork places).readFile? path =
      ["/w", "/"].findSome? fun directory =>
        (((atWork places).look (Path.join directory path)).bind FileEntry.text?).map fun text =>
          (Path.join directory path, text) := by
  have around : Path.ancestors ((atWork places).workingDirectory.length + 1)
      (atWork places).workingDirectory = ["/w", "/"] := by
    have here : (atWork places).workingDirectory = "/w" := rfl
    rw [here]
    cbv
  rw [Machine.readFile?, relative, around]
  rfl

theorem layers_withDirectory : ofSub.layers (withDirectory []) = [.ofSettings {}] := by
  have nothing : (withDirectory []).readFile? "sub/herald.toml" = none := by
    rw [withDirectory, readFile?_atWork _ (by decide)]
    decide +kernel
  rw [layers, fileLayers_withDirectory [] (by decide +kernel), fileLayer, nothing]
  rfl

theorem layers_outerFile :
    ∃ origin, ofSub.layers (withDirectory outerFile) = [.ofSettings {}, ⟨origin, none⟩] := by
  have outer : (withDirectory outerFile).readFile? "sub/herald.toml" =
      some ("/sub/herald.toml", "bus") := by
    rw [withDirectory, readFile?_atWork _ (by decide)]
    decide +kernel
  have malformed : Toml.parse "bus" = none := by decide +kernel
  rw [layers, fileLayers_withDirectory outerFile (by decide +kernel), fileLayer, outer]
  refine ⟨.file (Path.shownFrom "/w" "/sub/herald.toml"), ?_⟩
  dsimp only
  rw [malformed]
  rfl

/-- A directory with the name of a main file makes a file count that is in no directory of the
search: the one under the same path outside of the working directory. -/
theorem load_outerFile :
    let m := withDirectory []
    let m' := withDirectory outerFile
    m.Coherent ∧ m'.Coherent ∧ ofSub.SameBesidesFiles m m' ∧
      ofSub.Selects m ⟨"sub", "herald"⟩ ∧ ofSub.Selects m' ⟨"sub", "herald"⟩ ∧
      (∀ c ∈ ofSub.places, (m'.look c.path).bind FileEntry.text? = none) ∧
      (∀ path, Path.join "/w" path ≠ "/sub/herald.toml" → m.look path = m'.look path) ∧
      ∀ order, (ofSub.load m order).result = .ok {} ∧
        (ofSub.load m' order).result = .error (Layer.failure "TOML parse error") := by
  refine ⟨Machine.coherent_ofPlaces _ (by decide), Machine.coherent_ofPlaces _ (by decide),
    ⟨rfl, fun _ => rfl⟩, selects_withDirectory [], selects_withDirectory outerFile,
    by decide +kernel, ?_, fun order => ⟨?_, ?_⟩⟩
  · intro path elsewhere
    simp [withDirectory, outerFile, atWork, Machine.ofPlaces, lookup_cons_eq_ite, elsewhere]
  · rw [load_result, layers_withDirectory]
    have defaults : Layer.settings [.ofSettings {}] = .ok {} := Layer.settings_ofSettings []
    have valid : ({} : Settings).validate = .ok {} := rfl
    rw [defaults]
    exact Settings.validate_of_order valid order
  · obtain ⟨origin, layers⟩ := layers_outerFile
    rw [load_result, layers]
    rfl

end Loader

end Courier
