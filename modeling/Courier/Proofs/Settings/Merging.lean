import Courier.Proofs.Codec.Normal
import Courier.Proofs.Settings.Layering

/-!
# Settings that a program merges in

A program gives settings to a loader as a whole.  They become a tree and are laid over what was
given before, and over the defaults.  Laid over others, settings decide everything but the levels
of targets, which are united (`Settings.overlay_toJson`); and the tree of settings is decoded to
what it was made of (`Settings.ofDocument_toJson`).  So a loader that finds nothing else to read
gives back what was merged in last, with the levels of all targets that were ever named, if that is
valid, and otherwise reports what is wrong with it (`Loader.load_merge`).
-/

namespace Courier

namespace Settings

/-- The same settings with other levels of targets. -/
def withFilters (s : Settings) (filters : Dict Level) : Settings :=
  { s with logging := { s.logging with filters } }

/-- Settings with others laid over them: the upper ones decide everything, but the levels of targets
are united. -/
def under (low high : Settings) : Settings :=
  high.withFilters (low.logging.filters.union high.logging.filters)

/-- The levels of all targets that settings name; where several name one, the last of them
decides. -/
def unitedFilters (settings : List Settings) : Dict Level :=
  settings.foldl (fun filters s => filters.union s.logging.filters) .empty

theorem get?_unitedFilters (settings : List Settings) (target : String) :
    (unitedFilters settings).get? target =
      settings.reverse.findSome? fun s => s.logging.filters.get? target := by
  induction settings using List.reverseRecOn with
  | nil => rfl
  | append_singleton front last ih =>
      rw [unitedFilters, List.foldl_append, List.foldl_cons, List.foldl_nil, Dict.get?_union,
        ← unitedFilters, ih, List.reverse_append, List.reverse_singleton, List.singleton_append,
        List.findSome?_cons]
      cases last.logging.filters.get? target <;> rfl

theorem unitedFilters_singleton (s : Settings) : unitedFilters [s] = s.logging.filters := by
  apply Dict.ext_get?
  intro target
  rw [get?_unitedFilters]
  simp

theorem filters_foldl_under (settings : List Settings) :
    (settings.foldl under {}).logging.filters = unitedFilters settings := by
  induction settings using List.reverseRecOn with
  | nil => rfl
  | append_singleton front last ih =>
      rw [unitedFilters, List.foldl_append, List.foldl_append, ← unitedFilters, ← ih]
      rfl

/-- Of settings that are laid over each other the last ones are left, with all targets. -/
theorem foldl_under_append (front : List Settings) (last : Settings) :
    (front ++ [last]).foldl under {} = last.withFilters (unitedFilters (front ++ [last])) := by
  rw [← filters_foldl_under, List.foldl_append]
  rfl

end Settings

/-! ## Tables laid over each other -/

namespace Tree

theorem increasing_overlayEntries {low : List (String × Tree)} (increasing : Increasing low)
    (high : List (String × Tree)) : Increasing (overlayEntries low high) := by
  induction high generalizing low with
  | nil => exact increasing
  | cons entry rest ih => exact ih (increasing.insertEntry _ _)

/-- A table over another one is the table of what is under their keys, laid over each other. -/
theorem overlay_table {low high whole : List (String × Tree)} (lowIncreasing : Increasing low)
    (highIncreasing : Increasing high) (wholeIncreasing : Increasing whole)
    (same : ∀ key, whole.lookup key = laid (low.lookup key) (high.lookup key)) :
    (table low).overlay (table high) = table whole := by
  apply congrArg table
  apply (increasing_overlayEntries lowIncreasing high).eq_of_lookup wholeIncreasing
  intro key
  exact (lookup_overlayEntries highIncreasing key).trans (same key).symm

/-- Pairs with the same keys, and under each key the trees of two values laid over each other. -/
inductive PairsLaid : (low high whole : List (String × Json)) → Prop
  | nil : PairsLaid [] [] []
  | cons {key : String} {a b c : Json} {low high whole : List (String × Json)}
      (here : (ofJson a).overlay (ofJson b) = ofJson c) (rest : PairsLaid low high whole) :
      PairsLaid ((key, a) :: low) ((key, b) :: high) ((key, c) :: whole)

variable {low high whole : List (String × Json)}

theorem PairsLaid.map_fst_eq (pairs : PairsLaid low high whole) :
    low.map (·.1) = whole.map (·.1) ∧ high.map (·.1) = whole.map (·.1) := by
  induction pairs with
  | nil => exact ⟨rfl, rfl⟩
  | cons here rest ih => simp [ih.1, ih.2]

theorem PairsLaid.lookup (pairs : PairsLaid low high whole) (key : String) :
    (whole.lookup key).map ofJson =
      laid ((low.lookup key).map ofJson) ((high.lookup key).map ofJson) := by
  induction pairs with
  | nil => rfl
  | @cons first a b c _ _ _ here rest ih =>
      simp only [lookup_cons_eq_ite]
      by_cases atFirst : key = first
      · rw [if_pos atFirst, if_pos atFirst, if_pos atFirst]
        exact congrArg some here.symm
      · rw [if_neg atFirst, if_neg atFirst, if_neg atFirst]
        exact ih

/-- The object of pairs, as a tree. -/
theorem exists_ofJson_ofFields {pairs : List (String × Json)} (nodup : (pairs.map (·.1)).Nodup) :
    ∃ entries, ofJson (.ofFields pairs) = table entries ∧ Increasing entries ∧
      ∀ key, entries.lookup key = (pairs.lookup key).map ofJson := by
  refine ⟨_, rfl, ?_, ?_⟩
  · rw [entriesOfJson_eq_map, Increasing, List.pairwise_map]
    exact Decoder.increasing_ofFields pairs
  · intro key
    rw [lookup_entriesOfJson]
    exact congrArg (Option.map ofJson) (Json.field?_ofFields nodup key)

theorem overlay_ofFields (nodup : (whole.map (·.1)).Nodup) (pairs : PairsLaid low high whole) :
    (ofJson (.ofFields low)).overlay (ofJson (.ofFields high)) = ofJson (.ofFields whole) := by
  obtain ⟨lowNames, highNames⟩ := pairs.map_fst_eq
  obtain ⟨lowEntries, lowEq, lowIncreasing, lowLookup⟩ :=
    exists_ofJson_ofFields (lowNames ▸ nodup)
  obtain ⟨highEntries, highEq, highIncreasing, highLookup⟩ :=
    exists_ofJson_ofFields (highNames ▸ nodup)
  obtain ⟨wholeEntries, wholeEq, wholeIncreasing, wholeLookup⟩ := exists_ofJson_ofFields nodup
  rw [lowEq, highEq, wholeEq]
  apply overlay_table lowIncreasing highIncreasing wholeIncreasing
  intro key
  rw [wholeLookup, lowLookup, highLookup, pairs.lookup]

/-- Over the empty table an object stays as it is. -/
theorem empty_overlay_ofFields (nodup : (whole.map (·.1)).Nodup) :
    empty.overlay (ofJson (.ofFields whole)) = ofJson (.ofFields whole) := by
  obtain ⟨entries, wholeEq, increasing, _⟩ := exists_ofJson_ofFields nodup
  rw [wholeEq]
  apply overlay_table .nil increasing increasing
  intro key
  cases entries.lookup key <;> rfl

end Tree

open Courier.Tree

theorem SpanEvents.overlay_toJson (low high : SpanEvents) :
    (ofJson low.toJson).overlay (ofJson high.toJson) = ofJson high.toJson :=
  overlay_ofFields (by simp) (.cons rfl (.cons rfl (.cons rfl (.cons rfl .nil))))

theorem BusSettings.overlay_toJson (low high : BusSettings) :
    (ofJson low.toJson).overlay (ofJson high.toJson) = ofJson high.toJson :=
  overlay_ofFields (by simp) (.cons rfl (.cons rfl .nil))

theorem NotificationSettings.overlay_toJson (low high : NotificationSettings) :
    (ofJson low.toJson).overlay (ofJson high.toJson) = ofJson high.toJson :=
  overlay_ofFields (by simp) (.cons rfl (.cons rfl (.cons rfl .nil)))

theorem LoggingSettings.overlay_filters (low high : Dict Level) :
    (ofJson (.object (low.entries.map fun e => (e.1, .string e.2.name)))).overlay
        (ofJson (.object (high.entries.map fun e => (e.1, .string e.2.name)))) =
      ofJson (.object ((low.union high).entries.map fun e => (e.1, .string e.2.name))) := by
  have increasing : ∀ filters : Dict Level, Increasing
      (entriesOfJson (filters.entries.map fun e => (e.1, .string e.2.name))) := by
    intro filters
    rw [entriesOfJson_eq_map, List.map_map, Increasing, List.pairwise_map]
    exact filters.increasing
  have found : ∀ (filters : Dict Level) (key : String),
      (entriesOfJson (filters.entries.map fun e => (e.1, .string e.2.name))).lookup key =
        (filters.get? key).map fun level => text level.name := by
    intro filters key
    rw [lookup_entriesOfJson, lookup_map_snd fun level : Level => Json.string level.name,
      Option.map_map]
    rfl
  apply overlay_table (increasing low) (increasing high) (increasing _)
  intro key
  rw [found, found, found, Dict.get?_union]
  cases high.get? key <;> cases low.get? key <;> rfl

theorem LoggingSettings.overlay_toJson (low high : LoggingSettings) :
    (ofJson low.toJson).overlay (ofJson high.toJson) =
      ofJson { high with filters := low.filters.union high.filters }.toJson := by
  have filePath : ∀ (under : Tree) (file : Option String),
      under.overlay (ofJson ((file.map Json.string).getD .null)) =
        ofJson ((file.map Json.string).getD .null) := by
    intro under file
    cases file <;> rfl
  exact overlay_ofFields (by simp) (.cons rfl (.cons rfl (.cons rfl (.cons (overlay_filters _ _)
    (.cons (SpanEvents.overlay_toJson _ _) (.cons rfl (.cons rfl (.cons (filePath _ _) .nil))))))))

/-- Settings laid over others are the upper ones, with the levels of all targets. -/
theorem Settings.overlay_toJson (low high : Settings) :
    (ofJson low.toJson).overlay (ofJson high.toJson) = ofJson (low.under high).toJson :=
  overlay_ofFields (by simp) (.cons (LoggingSettings.overlay_toJson _ _)
    (.cons (BusSettings.overlay_toJson _ _) (.cons (NotificationSettings.overlay_toJson _ _) .nil)))

/-! ## From settings to trees and back -/

namespace Tree

mutual

/-- The tree of a document stands for that document. -/
theorem toJson_ofJson : ∀ a : Json, (ofJson a).toJson = a
  | .null => rfl
  | .bool _ => rfl
  | .number (.integer _) => rfl
  | .number (.real _) => rfl
  | .string _ => rfl
  | .array elements => congrArg Json.array (itemsToJson_itemsOfJson elements)
  | .object fields => congrArg Json.object (entriesToJson_entriesOfJson fields)

theorem itemsToJson_itemsOfJson : ∀ elements : List Json,
    itemsToJson (itemsOfJson elements) = elements
  | [] => rfl
  | a :: rest => by
      rw [itemsOfJson, itemsToJson, toJson_ofJson a, itemsToJson_itemsOfJson rest]

theorem entriesToJson_entriesOfJson : ∀ fields : List (String × Json),
    entriesToJson (entriesOfJson fields) = fields
  | [] => rfl
  | (key, a) :: rest => by
      rw [entriesOfJson, entriesToJson, toJson_ofJson a, entriesToJson_entriesOfJson rest]

end

end Tree

variable {dialect : Dialect}

open Shape Decoder

/-- One of the names of a choice is a value of it. -/
theorem Settings.fixes_choice (type : String) {names : List String} {name : String}
    (mem : name ∈ names) : ((choice type names).decode dialect).Fixes (.string name) := by
  have found : ((names.map fun n => (n, VariantKind.bare, Shape.unit)).find? fun c =>
      c.1 == name) = some (name, .bare, .unit) := by
    induction names with
    | nil => contradiction
    | cons first rest ih =>
        rw [List.map_cons, List.find?_cons]
        by_cases here : first = name
        · rw [here, beq_self_eq_true]
        · rw [beq_false_of_ne here]
          exact ih ((List.mem_cons.mp mem).resolve_left (Ne.symm here))
  simp only [Fixes, choice, decode, Decoder.variants, caseNamed, find?_caseDecoders, found]
  rfl

theorem Settings.fixes_level (level : Level) :
    (levelShape.decode dialect).Fixes (.string level.name) :=
  fixes_choice "LogLevel" (List.mem_map_of_mem (by cases level <;> decide))

theorem Settings.fixes_format (format : LogFormat) :
    (formatShape.decode dialect).Fixes (.string format.name) :=
  fixes_choice "LogFormat" (List.mem_map_of_mem (by cases format <;> decide))

theorem Settings.fixes_output (output : LogOutput) :
    (outputShape.decode dialect).Fixes (.string output.name) :=
  fixes_choice "LogOutput" (List.mem_map_of_mem (by cases output <;> decide))

theorem SpanEvents.fixes_toJson (e : SpanEvents) : (shape.decode dialect).Fixes e.toJson := by
  apply fixes_ofFields (by decide)
  simp [Fits, fieldDecoders, Settings.setting, fixes_bool]

theorem LoggingSettings.fixes_toJson (s : LoggingSettings) :
    (shape.decode dialect).Fixes s.toJson := by
  have filters : ((dict Settings.levelShape).decode dialect).Fixes
      (.object (s.filters.entries.map fun e => (e.1, .string e.2.name))) :=
    fixes_dict (by
      intro entry mem
      obtain ⟨filter, _, rfl⟩ := List.mem_map.mp mem
      exact Settings.fixes_level filter.2)
  have filePath : ((optional path).decode dialect).Fixes
      ((s.filePath.map Json.string).getD .null) := by
    cases s.filePath <;> rfl
  apply fixes_ofFields (by decide)
  simp [Fits, fieldDecoders, Settings.setting, Settings.fixes_level, Settings.fixes_format,
    Settings.fixes_output, fixes_bool, SpanEvents.fixes_toJson, filters, filePath]

theorem BusSettings.fixes_toJson (s : BusSettings) : (shape.decode dialect).Fixes s.toJson := by
  apply fixes_ofFields (by decide)
  simp [Fits, fieldDecoders, Settings.setting, fixes_strings, fixes_bool]

theorem NotificationSettings.fixes_toJson (s : NotificationSettings) :
    (shape.decode dialect).Fixes s.toJson := by
  apply fixes_ofFields (by decide)
  simp [Fits, fieldDecoders, Settings.setting, fixes_string, fixes_bool]

theorem Settings.fixes_toJson (s : Settings) : (shape.decode dialect).Fixes s.toJson := by
  apply fixes_ofFields (by decide)
  simp [Fits, fieldDecoders, setting, s.logging.fixes_toJson, s.bus.fixes_toJson,
    s.notifications.fixes_toJson]

/-- Settings come back from their document. -/
theorem Settings.ofDocument_toJson (dialect : Dialect) (s : Settings) :
    ofDocument dialect s.toJson = .ok s := by
  have fixed : shape.decode dialect s.toJson = .ok s.toJson := s.fixes_toJson
  rw [ofDocument, fixed]
  exact congrArg Except.ok s.ofNormal_toJson

/-! ## Layers that a program gives -/

namespace Layer

/-- The settings of a program are stacked to what they are laid over each other. -/
theorem stack_toJson (settings : List Settings) :
    stack ((({} : Settings) :: settings).map fun s => ofJson s.toJson) =
      ofJson (settings.foldl Settings.under {}).toJson := by
  induction settings using List.reverseRecOn with
  | nil => exact empty_overlay_ofFields (by simp)
  | append_singleton front last ih =>
      rw [← List.cons_append, List.map_append, stack, List.foldl_append, ← stack, ih,
        List.foldl_append]
      exact Settings.overlay_toJson _ last

theorem mapM_content_ofSettings (settings : List Settings) :
    (settings.map ofSettings).mapM (·.content) = some (settings.map fun s => ofJson s.toJson) := by
  induction settings with
  | nil => rfl
  | cons s rest ih =>
      rw [List.map_cons, List.mapM_cons, ih]
      rfl

theorem settings_ofSettings (settings : List Settings) :
    Layer.settings ((({} : Settings) :: settings).map ofSettings) =
      .ok (settings.foldl Settings.under {}) := by
  rw [Layer.settings, mapM_content_ofSettings]
  dsimp only
  rw [stack_toJson, toJson_ofJson, Settings.ofDocument_toJson]

end Layer

namespace Loader

variable {l : Loader} {m : Machine}

theorem foldl_merge (l : Loader) (settings : List Settings) :
    settings.foldl merge l = { l with merged := l.merged ++ settings } := by
  induction settings generalizing l with
  | nil => simp
  | cons s rest ih => simp [ih, merge]

/-- A loader that has nothing else to read loads what the program gives, laid over each other. -/
theorem load_of_merged (noFile : l.file = none) (notFound : l.found? m = none)
    (noVariables : l.readsVariables = false) {order : KeyOrder} :
    (l.load m order).result = (l.merged.foldl Settings.under {}).validate order := by
  have files : l.files m = .ok (l.foundFiles m) := by
    rw [files, noFile]
  have layers : l.layers m = (({} : Settings) :: l.merged).map .ofSettings := by
    simp [layers, fileLayers, noFile, notFound, noVariables]
  rw [load_result, files, layers, Layer.settings_ofSettings]
  rfl

/-- A loader loads settings as they are if they are valid, and refuses them otherwise.  Their keys
may be visited in one order when they are loaded and in another one when they are judged apart from
that. -/
structure LoadsAs (l : Loader) (m : Machine) (s : Settings) : Prop where
  /-- In the same order the outcome is the same, and so is what is reported. -/
  judged : ∀ order, (l.load m order).result = s.validate order
  /-- In any two orders it is the same but for the invalid target that is reported. -/
  verdict : ∀ order order', s.SameVerdict (l.load m order).result (s.validate order')
  /-- The settings are loaded exactly if they are accepted. -/
  accepted : ∀ order order', (l.load m order).result = .ok s ↔ s.validate order' = .ok s
  /-- No other settings are. -/
  unchanged : ∀ order loaded, (l.load m order).result = .ok loaded → loaded = s

theorem loadsAs_of_judged {s : Settings}
    (judged : ∀ order, (l.load m order).result = s.validate order) : l.LoadsAs m s := by
  constructor
  case judged => exact judged
  case verdict =>
    intro order order'
    rw [judged]
    exact s.sameVerdict_validate order order'
  case accepted =>
    intro order order'
    rw [judged]
    exact (s.sameVerdict_validate order order').eq_ok_iff s
  case unchanged =>
    intro order loaded ok
    rw [judged] at ok
    exact (Settings.validate_eq_ok_iff.mp ok).2.symm

/-- Settings that a program merges in are loaded as they are, if there are no files and the
environment does not count.  Of several settings the last ones are loaded, with the levels of all
targets that any of them names, as the last to name it says.  What is not valid is refused, as it is
refused when it is judged apart. -/
theorem load_merge (l : Loader) (m : Machine) (noneMerged : l.merged = []) (noFile : l.file = none)
    (notFound : l.found? m = none) (noVariables : l.readsVariables = false) :
    (∀ s, (l.merge s).LoadsAs m s) ∧
      ∀ front last,
        ((front ++ [last]).foldl merge l).LoadsAs m
          (last.withFilters (Settings.unitedFilters (front ++ [last]))) ∧
        ∀ target, (Settings.unitedFilters (front ++ [last])).get? target =
          (front ++ [last]).reverse.findSome? fun s => s.logging.filters.get? target := by
  have loads : ∀ front last, ((front ++ [last]).foldl merge l).LoadsAs m
      (last.withFilters (Settings.unitedFilters (front ++ [last]))) := by
    intro front last
    apply loadsAs_of_judged
    intro order
    rw [foldl_merge, noneMerged, List.nil_append, ← Settings.foldl_under_append]
    apply load_of_merged
    · exact noFile
    · exact notFound
    · exact noVariables
  constructor
  case left =>
    intro s
    have loaded := loads [] s
    rw [List.nil_append, Settings.unitedFilters_singleton] at loaded
    exact loaded
  case right =>
    intro front last
    exact ⟨loads front last, Settings.get?_unitedFilters _⟩

/-- A machine on which there are no files. -/
def withoutFiles : Machine where
  look _ := none
  workingDirectory := "/"

/-- Settings with levels of two targets. -/
def twoTargets : Settings where
  logging := { filters := .ofList [("app", .debug), ("db", .warn)] }

/-- Settings that name one of these targets again. -/
def oneTarget : Settings where
  logging := { level := .trace, filters := .ofList [("db", .error)] }
  bus := { redactedFields := [], auditLog := false }

/-- Settings with levels of two targets that no log line can have. -/
def twoMistargeted : Settings where
  logging := { filters := .ofList [("a b", .debug), ("c d", .warn)] }

/-- The last settings count, with the level of a target that only the first ones name.  If two
targets are invalid, the order decides which of them is reported. -/
theorem load_merge_twoTargets :
    (∀ order, (([twoTargets, oneTarget].foldl merge ofEtc).load withoutFiles order).result =
      .ok (oneTarget.withFilters (.ofList [("app", .debug), ("db", .error)]))) ∧
    ((ofEtc.merge twoMistargeted).load withoutFiles .listed).result =
      .error (.validation "Invalid log filter target: \"a b\"") ∧
    ((ofEtc.merge twoMistargeted).load withoutFiles .reversed).result =
      .error (.validation "Invalid log filter target: \"c d\"") := by
  obtain ⟨alone, several⟩ := load_merge ofEtc withoutFiles rfl rfl (by decide +kernel) rfl
  have united : Settings.unitedFilters ([twoTargets] ++ [oneTarget]) =
      .ofList [("app", .debug), ("db", .error)] := by
    decide +kernel
  refine ⟨?_, ?_, ?_⟩
  · intro order
    rw [← united]
    have accepted := (several [twoTargets] oneTarget).1.accepted order .listed
    refine accepted.mpr (Settings.validate_eq_ok_iff.mpr ⟨?_, rfl⟩)
    decide +kernel
  · rw [(alone twoMistargeted).judged]
    decide +kernel
  · rw [(alone twoMistargeted).judged]
    decide +kernel

end Loader

end Courier
