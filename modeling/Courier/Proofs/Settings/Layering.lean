import Courier.Proofs.Settings.Document
import Courier.Proofs.Settings.Sources
import Courier.Proofs.Settings.Verdict

/-!
# Layers of settings

A loader lays what its sources say over each other, and only the whole is decoded.  Where every
layer can be read and suits the shape of settings, the settings that are loaded have at each leaf
the value of the last layer that says anything there, and whatever the layers below say there
makes no difference, neither for the settings nor for what is reported instead of them
(`Loader.load_decides`).
-/

namespace Courier

open Courier.Tree

namespace Layer

/-- What a layer says at a place. -/
def valueAt? (keys : List String) (layer : Layer) : Option Tree :=
  layer.content.bind (Tree.at? keys)

/-- The last layer that says anything at a place decides: its origin, and what it says. -/
def decider? (layers : List Layer) (keys : List String) : Option (Origin × Tree) :=
  layers.reverse.findSome? fun layer => (layer.valueAt? keys).map fun value => (layer.origin, value)

/-- The layer can be read, and it has tables where settings have tables and single values at
their leaves. -/
def Fits (layer : Layer) : Prop :=
  ∃ t, layer.content = some t ∧ t.Suits Settings.shape

/-- Two lists of layers that differ in nothing but in what lower layers say at leaves where a
higher one says something, too. -/
inductive Shadowed : List Layer → List Layer → Prop
  | nil : Shadowed [] []
  | cons {layer layer' : Layer} {above above' : List Layer} (origin : layer.origin = layer'.origin)
      (leaves : ∀ keys, Settings.shape.Leaf keys → layer.valueAt? keys = layer'.valueAt? keys ∨
        ∃ higher ∈ above, higher.reaches keys = true)
      (rest : Shadowed above above') : Shadowed (layer :: above) (layer' :: above')

variable {layer : Layer} {layers above layers' : List Layer} {keys rest : List String}

/-! ## Who decides -/

theorem decider?_cons (layer : Layer) (above : List Layer) (keys : List String) :
    decider? (layer :: above) keys =
      (decider? above keys).or ((layer.valueAt? keys).map fun value => (layer.origin, value)) := by
  rw [decider?, List.reverse_cons, List.findSome?_append]
  simp [decider?]

theorem originOf?_cons (layer : Layer) (above : List Layer) (keys : List String) :
    originOf? (layer :: above) keys =
      (originOf? above keys).or (if layer.reaches keys then some layer.origin else none) := by
  rw [originOf?, originOf?, List.reverse_cons, List.find?_append]
  cases above.reverse.find? (reaches keys) with
  | some higher => rfl
  | none => cases reached : layer.reaches keys <;> simp [reached]

theorem isSome_decider?_of_reaches {higher : Layer} (mem : higher ∈ layers)
    (reached : higher.reaches keys = true) : (decider? layers keys).isSome = true := by
  rw [decider?, List.findSome?_isSome_iff]
  exact ⟨higher, List.mem_reverse.mpr mem, by rwa [Option.isSome_map]⟩

/-- At a leaf the same layer decides in the same way. -/
theorem Shadowed.decider?_eq (shadowed : Shadowed layers layers')
    (leaf : Settings.shape.Leaf keys) : decider? layers keys = decider? layers' keys := by
  induction shadowed with
  | nil => rfl
  | cons origin leaves _ ih =>
      rw [decider?_cons, decider?_cons, ← ih, ← origin]
      rcases leaves keys leaf with same | ⟨higher, mem, reached⟩
      · rw [same]
      · obtain ⟨decision, decided⟩ :=
          Option.isSome_iff_exists.mp (isSome_decider?_of_reaches mem reached)
        rw [decided]
        rfl

end Layer

/-! ## Places inside leaves -/

theorem Tree.at?_append (keys rest : List String) (t : Tree) :
    t.at? (keys ++ rest) = (t.at? keys).bind (at? rest) := by
  induction keys generalizing t with
  | nil => rfl
  | cons key keys ih =>
      cases t with
      | table entries =>
          rw [List.cons_append, at?, at?]
          cases entries.lookup key with
          | none => rfl
          | some value => exact ih value
      | list items =>
          rw [List.cons_append, at?, at?]
          cases key.toNat?.bind fun i => items[i]? with
          | none => rfl
          | some item => exact ih item
      | _ => rfl

namespace Layer

variable {layer : Layer} {layers layers' above : List Layer} {keys rest : List String}

theorem valueAt?_append (layer : Layer) (keys rest : List String) :
    layer.valueAt? (keys ++ rest) = (layer.valueAt? keys).bind (at? rest) := by
  unfold valueAt?
  cases layer.content with
  | none => rfl
  | some t => exact at?_append keys rest t

theorem reaches_eq (keys : List String) (layer : Layer) :
    layer.reaches keys = (layer.valueAt? keys).isSome :=
  rfl

/-- A part of what is decided at a place comes from where the whole does. -/
theorem originOf?_append {origin : Origin} {value : Tree}
    (decided : decider? layers keys = some (origin, value)) (inside : (value.at? rest).isSome) :
    originOf? layers (keys ++ rest) = some origin := by
  induction layers with
  | nil => contradiction
  | cons layer above ih =>
      rw [decider?_cons] at decided
      rw [originOf?_cons]
      rcases Option.or_eq_some_iff.mp decided with decided | ⟨undecided, decided⟩
      · rw [ih decided]
        rfl
      · have silent : originOf? above (keys ++ rest) = none := by
          rw [originOf?, Option.map_eq_none_iff, List.find?_eq_none]
          intro higher mem reached
          rw [decider?, List.findSome?_eq_none_iff] at undecided
          have unsaid := Option.map_eq_none_iff.mp (undecided higher mem)
          rw [reaches_eq, valueAt?_append, unsaid] at reached
          contradiction
        obtain ⟨said, here, same⟩ := Option.map_eq_some_iff.mp decided
        cases same
        rw [silent, reaches_eq, valueAt?_append, here, Option.bind_some, inside]
        rfl

/-! ## The whole of some layers -/

theorem contents_of_fits (fits : ∀ layer ∈ layers, layer.Fits) :
    ∃ trees, layers.mapM (·.content) = some trees ∧ layers.map (·.content) = trees.map some := by
  induction layers with
  | nil => exact ⟨[], rfl, rfl⟩
  | cons layer above ih =>
      rw [List.forall_mem_cons] at fits
      obtain ⟨t, content, _⟩ := fits.1
      obtain ⟨trees, read, same⟩ := ih fits.2
      refine ⟨t :: trees, ?_, ?_⟩
      · rw [List.mapM_cons, content, read]
        rfl
      · rw [List.map_cons, content, same, List.map_cons]

/-- What the trees of layers say, the last one first. -/
theorem findSome?_at?_eq {trees : List Tree} (contents : layers.map (·.content) = trees.map some)
    (keys : List String) :
    trees.reverse.findSome? (at? keys) = (decider? layers keys).map (·.2) := by
  have said : (layers.map (·.content)).reverse.findSome? (fun content => content.bind (at? keys)) =
      (decider? layers keys).map (·.2) := by
    rw [decider?, List.map_findSome?, ← List.map_reverse, List.findSome?_map]
    congr 1
    funext layer
    simp [valueAt?, Function.comp_def]
  rw [← said, contents, ← List.map_reverse, List.findSome?_map]
  rfl

/-- Layers over one of settings make up a complete tree, in which the last layer decides. -/
structure Whole (layers : List Layer) (t : Tree) : Prop where
  complete : t.Complete Settings.shape
  decides : ∀ keys, Settings.shape.Leaf keys → t.at? keys = (decider? layers keys).map (·.2)

/-- The layers fit, their tables are in order, and settings are below all others. -/
structure Based (layers : List Layer) : Prop where
  fits : ∀ layer ∈ layers, layer.Fits
  ordered : ∀ layer ∈ layers, ∀ t, layer.content = some t → t.Ordered
  base : ∃ s above, layers = ofSettings s :: above

theorem Based.exists_whole (based : Based layers) :
    ∃ trees, layers.mapM (·.content) = some trees ∧ Whole layers (stack trees) := by
  obtain ⟨trees, read, contents⟩ := contents_of_fits based.fits
  refine ⟨trees, read, ?_⟩
  have ofLayer : ∀ t ∈ trees, ∃ layer ∈ layers, layer.content = some t := by
    intro t mem
    have inContents : some t ∈ layers.map (·.content) := contents ▸ List.mem_map_of_mem mem
    exact List.mem_map.mp inContents
  have suits : ∀ t ∈ trees, t.Suits Settings.shape := by
    intro t mem
    obtain ⟨layer, inLayers, content⟩ := ofLayer t mem
    obtain ⟨t', content', suits⟩ := based.fits layer inLayers
    rw [content] at content'
    cases content'
    exact suits
  have ordered : ∀ t ∈ trees, t.Ordered := by
    intro t mem
    obtain ⟨layer, inLayers, content⟩ := ofLayer t mem
    exact based.ordered layer inLayers t content
  constructor
  case decides =>
    intro keys leaf
    rw [at?_stack rfl suits ordered leaf, findSome?_at?_eq contents]
  case complete =>
    refine ⟨suits_stack rfl suits ordered, ?_, ordered_stack ordered⟩
    obtain ⟨s, above, rfl⟩ := based.base
    cases trees with
    | nil => contradiction
    | cons t rest =>
        have first : some (ofJson s.toJson) = some t := (List.cons.inj contents).1
        cases first
        exact covers_stack rfl suits ordered s.complete_toJson.covers

/-- What is loaded has at each leaf the value of the layer that decides there. -/
theorem Based.at?_of_settings (based : Based layers) {s : Settings}
    (ok : settings layers = .ok s) (leaf : Settings.shape.Leaf keys) :
    s.toJson.at? keys = (decider? layers keys).map fun decision => decision.2.toJson := by
  obtain ⟨trees, read, whole⟩ := based.exists_whole
  simp only [settings, read] at ok
  cases decoded : Settings.ofDocument .layered (stack trees).toJson with
  | error r =>
      rw [decoded] at ok
      contradiction
  | ok s' =>
      rw [decoded] at ok
      cases ok
      rw [Settings.at?_of_ofDocument whole.complete decoded leaf, whole.decides keys leaf,
        Option.map_map]
      rfl

/-- The same is reported of a refusal whose place is decided in the same way. -/
theorem explain_congr {t t' : Tree} {r : Refusal} (whole : Whole layers t)
    (whole' : Whole layers' t')
    (same : ∀ keys, Settings.shape.Leaf keys → decider? layers keys = decider? layers' keys)
    (refused : ∃ keys rest, r.path = keys ++ rest ∧ Settings.shape.Leaf keys ∧
      ∃ value, t.at? keys = some value ∧ (value.at? rest).isSome) :
    explain layers t r = explain layers' t' r := by
  obtain ⟨keys, rest, path, leaf, value, there, inside⟩ := refused
  have said := whole.decides keys leaf
  rw [there] at said
  obtain ⟨⟨origin, _⟩, decided, ⟨⟩⟩ := Option.map_eq_some_iff.mp said.symm
  have decided' := same keys leaf ▸ decided
  have found : t.at? r.path = t'.at? r.path := by
    rw [path, at?_append, at?_append, whole.decides keys leaf, whole'.decides keys leaf,
      same keys leaf]
  rw [explain, explain, found, path, originOf?_append decided inside,
    originOf?_append decided' inside]

/-- What lower layers say where higher ones do, too, makes no difference. -/
theorem Shadowed.settings_eq (shadowed : Shadowed layers layers') (based : Based layers)
    (based' : Based layers') : settings layers = settings layers' := by
  obtain ⟨trees, read, whole⟩ := based.exists_whole
  obtain ⟨trees', read', whole'⟩ := based'.exists_whole
  have same : ∀ keys, Settings.shape.Leaf keys → decider? layers keys = decider? layers' keys :=
    fun keys leaf => shadowed.decider?_eq leaf
  have decodedAlike : Settings.ofDocument .layered (stack trees).toJson =
      Settings.ofDocument .layered (stack trees').toJson := by
    unfold Settings.ofDocument
    rw [decode_congr Settings.isLayered_shape whole.complete whole'.complete]
    intro keys leaf
    rw [whole.decides keys leaf, whole'.decides keys leaf, same keys leaf]
  simp only [settings, read, read', ← decodedAlike]
  cases decoded : Settings.shape.decode .layered (stack trees).toJson with
  | ok n => simp only [Settings.ofDocument, decoded, Except.map]
  | error r =>
      have refused := exists_leaf_of_decode_error Settings.isLayered_shape whole.complete decoded
      simp only [Settings.ofDocument, decoded, Except.map, explain_congr whole whole' same refused]

theorem fits_ofSettings (s : Settings) : (ofSettings s).Fits :=
  ⟨ofJson s.toJson, rfl, s.complete_toJson.suits⟩

end Layer

/-! ## Loading -/

/-- The places where the redacted fields and the levels of targets are given. -/
theorem Settings.leaf_redactedFields : Settings.shape.Leaf ["bus", "redacted_fields"] :=
  ⟨.list .string, rfl, rfl⟩

theorem Settings.leaf_filters (target : String) :
    Settings.shape.Leaf ["logging", "filters", target] :=
  ⟨Settings.levelShape, rfl, rfl⟩

theorem Settings.at?_toJson_redactedFields (s : Settings) :
    s.toJson.at? ["bus", "redacted_fields"] = some (.array (s.bus.redactedFields.map .string)) := by
  simp [Json.at?, toJson, BusSettings.toJson, Json.field?_ofFields, lookup_cons_eq_ite]

theorem Settings.at?_toJson_filters (s : Settings) (target : String) :
    s.toJson.at? ["logging", "filters", target] =
      (s.logging.filters.get? target).map fun level => .string level.name := by
  simp [Json.at?, toJson, LoggingSettings.toJson, Json.field?_ofFields, lookup_cons_eq_ite]
  rw [Json.field?, lookup_map_snd fun level : Level => Json.string level.name, Dict.get?]

namespace Loader

/-- The layers of the files that count: the given file alone, or the file of the profile and
then the main file. -/
def fileLayers (l : Loader) (m : Machine) : List Layer :=
  match l.file with
  | some path => fileLayer m path
  | none =>
      match l.found? m with
      | some c =>
          (if m.has (c.profilePath l.profile) then fileLayer m (c.profilePath l.profile) else []) ++
            fileLayer m c.path
      | none => []

/-- The layers of a loader, the last one on top: the defaults, what is merged in, the files
and the environment variables. -/
def layers (l : Loader) (m : Machine) : List Layer :=
  .ofSettings {} :: l.merged.map .ofSettings ++ l.fileLayers m ++
    (if l.readsVariables then [⟨.environment, some (Environment.tree m.environment)⟩] else [])

variable {l : Loader} {m : Machine} {g : Gathered}

theorem fileLayers_of_files (files : l.files m = .ok g) : g.layers = l.fileLayers m := by
  unfold Loader.files at files
  unfold fileLayers
  cases given : l.file with
  | some path =>
      simp only [given, givenFile] at files
      split at files
      · contradiction
      · split at files
        · contradiction
        · cases files
          rfl
  | none =>
      simp only [given] at files
      cases files
      unfold foundFiles
      dsimp only
      cases l.found? m with
      | none => rfl
      | some c =>
          dsimp only [Gathered.append, mainFile, profileFile]
          split <;> rfl

theorem ordered_fileLayer {path : String} :
    ∀ layer ∈ fileLayer m path, ∀ t, layer.content = some t → t.Ordered := by
  intro layer mem t content
  unfold fileLayer at mem
  split at mem
  · obtain rfl := List.mem_singleton.mp mem
    exact Toml.ordered_parse content
  · simp at mem

theorem ordered_fileLayers :
    ∀ layer ∈ l.fileLayers m, ∀ t, layer.content = some t → t.Ordered := by
  unfold fileLayers
  split
  · exact ordered_fileLayer
  · split
    · intro layer mem
      rcases List.mem_append.mp mem with mem | mem
      · split at mem
        · exact ordered_fileLayer layer mem
        · simp at mem
      · exact ordered_fileLayer layer mem
    · simp

/-- All layers of a loader have their tables in order. -/
theorem ordered_layers : ∀ layer ∈ l.layers m, ∀ t, layer.content = some t → t.Ordered := by
  intro layer mem
  rcases List.mem_append.mp mem with mem | mem
  · rcases List.mem_append.mp mem with mem | mem
    · obtain ⟨s, _, rfl⟩ : ∃ s, s ∈ ({} : Settings) :: l.merged ∧ Layer.ofSettings s = layer :=
        List.mem_map.mp mem
      rintro t ⟨⟩
      exact s.complete_toJson.ordered
    · exact ordered_fileLayers layer mem
  · split at mem
    · obtain rfl := List.mem_singleton.mp mem
      rintro t ⟨⟩
      exact Environment.ordered_tree m.environment
    · simp at mem

theorem based_layers (fits : ∀ layer ∈ l.layers m, layer.Fits) : Layer.Based (l.layers m) :=
  ⟨fits, ordered_layers, {}, _, rfl⟩

/-- Without files that are missing, what is loaded are the layers, if that is valid. -/
theorem load_result (l : Loader) (m : Machine) (order : KeyOrder) :
    (l.load m order).result =
      (l.files m).bind fun _ => (Layer.settings (l.layers m)).bind (·.validate order) := by
  unfold load gather
  cases files : l.files m with
  | error e => rfl
  | ok found =>
      have same : l.program ++ (found.layers ++ (l.environment m).layers) = l.layers m := by
        rw [fileLayers_of_files files, ← List.append_assoc, program, layers, List.map_cons,
          environment]
        cases l.readsVariables <;> rfl
      simp only [bind, Except.bind, pure, Except.pure, Gathered.append, same]
      cases Layer.settings (l.layers m) with
      | error e => rfl
      | ok s =>
          dsimp only
          cases s.validate order <;> rfl

/-- Where all layers fit, each leaf of the settings that are loaded has the value of the last
layer that says anything there: a list is replaced as a whole, the levels of targets are united
target by target.  These settings are valid, in whatever order their keys are visited.  Layers that
differ only below higher values are loaded, or refused, in the same way. -/
theorem load_decides (l : Loader) (m : Machine) (order : KeyOrder)
    (fits : ∀ layer ∈ l.layers m, layer.Fits) :
    (∀ s, (l.load m order).result = .ok s →
      (∀ keys, Settings.shape.Leaf keys →
        s.toJson.at? keys =
          (Layer.decider? (l.layers m) keys).map fun decision => decision.2.toJson) ∧
      some (.array (s.bus.redactedFields.map .string)) =
        (Layer.decider? (l.layers m) ["bus", "redacted_fields"]).map
          (fun decision => decision.2.toJson) ∧
      (∀ target, (s.logging.filters.get? target).map (fun level => .string level.name) =
        (Layer.decider? (l.layers m) ["logging", "filters", target]).map
          fun decision => decision.2.toJson) ∧
      ∀ order', s.problem? order' = none) ∧
    ∀ (l' : Loader) (m' : Machine), (∀ layer ∈ l'.layers m', layer.Fits) →
      (l.files m).map (fun _ => ()) = (l'.files m').map (fun _ => ()) →
      Layer.Shadowed (l.layers m) (l'.layers m') →
        (l.load m order).result = (l'.load m' order).result := by
  have based := based_layers fits
  constructor
  case left =>
    intro s ok
    rw [load_result] at ok
    cases files : l.files m with
    | error e =>
        rw [files] at ok
        contradiction
    | ok found =>
        cases decoded : Layer.settings (l.layers m) with
        | error e =>
            rw [files, decoded] at ok
            contradiction
        | ok whole =>
            rw [files, decoded] at ok
            obtain ⟨fine, rfl⟩ := Settings.validate_eq_ok_iff.mp ok
            have decides : ∀ keys, Settings.shape.Leaf keys → whole.toJson.at? keys = _ :=
              fun keys leaf => based.at?_of_settings decoded leaf
            refine ⟨decides, ?_, ?_, Settings.problem?_eq_none_of_order fine⟩
            · rw [← decides _ Settings.leaf_redactedFields, Settings.at?_toJson_redactedFields]
            · intro target
              rw [← decides _ (Settings.leaf_filters target), Settings.at?_toJson_filters]
  case right =>
    intro l' m' fits' sameFiles shadowed
    rw [load_result, load_result, shadowed.settings_eq based (based_layers fits')]
    cases files : l.files m <;> cases files' : l'.files m' <;> rw [files, files'] at sameFiles
    · cases sameFiles
      rfl
    · contradiction
    · contradiction
    · rfl

/-! ### A value of the wrong type below a right one -/

/-- A machine whose main file turns the audit log off, with a file of the profile. -/
def twoFiles (profileText : String) : Machine where
  look path :=
    if path = "/etc/herald.toml" then some (.file "bus.audit_log = false")
    else if path = "/etc/herald.development.toml" then some (.file profileText)
    else none
  workingDirectory := "/"

/-- A loader that looks at these files only. -/
def ofEtc : Loader := { searchPaths := ["/etc"], readsVariables := false }

theorem layers_ofEtc :
    ∃ profile main, ∀ text, ofEtc.layers (twoFiles text) =
      [.ofSettings {}, ⟨profile, Toml.parse text⟩, ⟨main, Toml.parse "bus.audit_log = false"⟩] :=
  ⟨.file (Path.shownFrom "/" "/etc/herald.development.toml"),
    .file (Path.shownFrom "/" "/etc/herald.toml"), fun _ => rfl⟩

/-- Whether a file says something about the audit log and nothing else. -/
def isAuditLogOnly : Option Tree → Bool
  | some (.table [(bus, .table [(name, value)])]) =>
      bus == "bus" && name == "audit_log" && !value.isTable
  | _ => false

theorem eq_of_isAuditLogOnly {content : Option Tree} (only : isAuditLogOnly content = true) :
    ∃ value, content = some (.table [("bus", .table [("audit_log", value)])]) ∧
      value.isTable = false := by
  unfold isAuditLogOnly at only
  split at only
  · next bus name value =>
      simp only [Bool.and_eq_true, beq_iff_eq, Bool.not_eq_true'] at only
      obtain ⟨⟨rfl, rfl⟩, single⟩ := only
      exact ⟨value, rfl, single⟩
  · contradiction

theorem fits_of_isAuditLogOnly {layer : Layer} (only : isAuditLogOnly layer.content = true) :
    layer.Fits := by
  obtain ⟨value, content, single⟩ := eq_of_isAuditLogOnly only
  refine ⟨_, content, ?_⟩
  apply suits_table rfl
  intro key part t found there
  rw [lookup_cons_eq_ite] at there
  split at there
  · next isBus =>
      cases there
      rw [isBus] at found
      cases found
      apply suits_table rfl
      intro key part t found there
      rw [lookup_cons_eq_ite] at there
      split at there
      · next isName =>
          cases there
          rw [isName] at found
          cases found
          exact suits_single rfl single
      · contradiction
  · contradiction

/-- Files about the audit log agree at all other leaves. -/
theorem valueAt?_of_isAuditLogOnly {layer layer' : Layer}
    (only : isAuditLogOnly layer.content = true) (only' : isAuditLogOnly layer'.content = true)
    {keys : List String} (leaf : Settings.shape.Leaf keys) :
    layer.valueAt? keys = layer'.valueAt? keys ∨ keys = ["bus", "audit_log"] := by
  obtain ⟨value, content, _⟩ := eq_of_isAuditLogOnly only
  obtain ⟨value', content', _⟩ := eq_of_isAuditLogOnly only'
  rw [Layer.valueAt?, Layer.valueAt?, content, content', Option.bind_some, Option.bind_some]
  cases keys with
  | nil =>
      obtain ⟨_, ⟨⟩, single⟩ := leaf
      contradiction
  | cons key keys =>
      rw [at?, at?, lookup_cons_eq_ite, lookup_cons_eq_ite]
      by_cases isBus : key = "bus"
      · subst isBus
        cases keys with
        | nil =>
            obtain ⟨_, ⟨⟩, single⟩ := leaf
            contradiction
        | cons name rest =>
            by_cases isName : name = "audit_log"
            · subst isName
              cases rest with
              | nil => exact .inr rfl
              | cons next rest =>
                  obtain ⟨_, ⟨⟩, _⟩ := leaf
            · left
              simp [at?, lookup_cons_eq_ite, isName]
      · left
        rw [if_neg isBus, if_neg isBus]

/-- What two such files say of the audit log is hidden by a third one. -/
theorem shadowed_of_isAuditLogOnly {layer layer' main : Layer} (base : Layer)
    (origin : layer.origin = layer'.origin) (only : isAuditLogOnly layer.content = true)
    (only' : isAuditLogOnly layer'.content = true)
    (mainOnly : isAuditLogOnly main.content = true) :
    Layer.Shadowed [base, layer, main] [base, layer', main] := by
  have alike : ∀ {same : Layer} {above above' : List Layer}, Layer.Shadowed above above' →
      Layer.Shadowed (same :: above) (same :: above') :=
    fun rest => .cons rfl (fun _ _ => .inl rfl) rest
  apply alike
  apply Layer.Shadowed.cons origin _ (alike .nil)
  intro keys leaf
  rcases valueAt?_of_isAuditLogOnly only only' leaf with same | rfl
  · exact .inl same
  · obtain ⟨value, content, _⟩ := eq_of_isAuditLogOnly mainOnly
    refine .inr ⟨main, List.mem_singleton.mpr rfl, ?_⟩
    rw [Layer.reaches, content]
    rfl

theorem isAuditLogOnly_main : isAuditLogOnly (Toml.parse "bus.audit_log = false") = true := by
  decide +kernel

theorem isAuditLogOnly_flag : isAuditLogOnly (Toml.parse "bus.audit_log = true") = true := by
  decide +kernel

theorem isAuditLogOnly_number : isAuditLogOnly (Toml.parse "bus.audit_log = 7") = true := by
  decide +kernel

theorem fits_ofEtc {text : String} (only : isAuditLogOnly (Toml.parse text) = true) :
    ∀ layer ∈ ofEtc.layers (twoFiles text), layer.Fits := by
  obtain ⟨profile, main, layers⟩ := layers_ofEtc
  rw [layers]
  simp only [List.forall_mem_cons]
  exact ⟨Layer.fits_ofSettings {}, fits_of_isAuditLogOnly only,
    fits_of_isAuditLogOnly isAuditLogOnly_main, List.forall_mem_nil _⟩

theorem shadowed_ofEtc {text text' : String} (only : isAuditLogOnly (Toml.parse text) = true)
    (only' : isAuditLogOnly (Toml.parse text') = true) :
    Layer.Shadowed (ofEtc.layers (twoFiles text)) (ofEtc.layers (twoFiles text')) := by
  obtain ⟨profile, main, layers⟩ := layers_ofEtc
  rw [layers, layers]
  exact shadowed_of_isAuditLogOnly _ rfl only only' isAuditLogOnly_main

theorem files_ofEtc (text : String) : (ofEtc.files (twoFiles text)).map (fun _ => ()) = .ok () :=
  rfl

/-- A number for the audit log in the file of the profile does no harm where the main file says
whether there is one. -/
theorem load_decides_wrong_type :
    (∃ s, (ofEtc.load (twoFiles "bus.audit_log = 7")).result = .ok s ∧ s.problem? = none) ∧
      (ofEtc.load (twoFiles "bus.audit_log = 7")).result =
        (ofEtc.load (twoFiles "bus.audit_log = true")).result := by
  obtain ⟨decided, unharmed⟩ :=
    load_decides ofEtc (twoFiles "bus.audit_log = 7") .listed (fits_ofEtc isAuditLogOnly_number)
  constructor
  · have loads : (ofEtc.load (twoFiles "bus.audit_log = 7")).result.toBool = true := by
      decide +kernel
    cases result : (ofEtc.load (twoFiles "bus.audit_log = 7")).result with
    | error e =>
        rw [result] at loads
        contradiction
    | ok s => exact ⟨s, rfl, (decided s result).2.2.2 .listed⟩
  · exact unharmed ofEtc (twoFiles "bus.audit_log = true") (fits_ofEtc isAuditLogOnly_flag)
      ((files_ofEtc _).trans (files_ofEtc _).symm)
      (shadowed_ofEtc isAuditLogOnly_number isAuditLogOnly_flag)

end Loader

end Courier
