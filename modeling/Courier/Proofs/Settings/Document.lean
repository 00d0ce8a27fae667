import Courier.Proofs.Settings.Leafwise

/-!
# Settings as documents and back

The document of settings says something for every field, settings come back from their
document (`Settings.ofNormal_toJson`), and the decoder of settings gives nothing but such
documents (`Settings.exists_toJson_of_decode`).  So the settings of a complete tree have at each
leaf what the tree has there (`Settings.at?_of_ofDocument`).
-/

namespace Courier

/-! ## From settings to documents and back -/

theorem Level.ofName?_name (level : Level) : Level.ofName? level.name = some level := by
  cases level <;> rfl

theorem LogFormat.ofName?_name (format : LogFormat) :
    LogFormat.ofName? format.name = some format := by
  cases format <;> rfl

theorem LogOutput.ofName?_name (output : LogOutput) :
    LogOutput.ofName? output.name = some output := by
  cases output <;> rfl

theorem SpanEvents.ofNormal_toJson (e : SpanEvents) : ofNormal e.toJson = e := by
  simp [ofNormal, toJson, Json.flagAt, Json.flagAt?, Json.field?_ofFields, lookup_cons_eq_ite,
    Json.bool?]

theorem LoggingSettings.ofNormal_toJson (s : LoggingSettings) : ofNormal s.toJson = s := by
  rcases s with ⟨level, format, output, filters, spanEvents, threadIds, fileLocation, filePath⟩
  cases filePath <;>
    simp [ofNormal, toJson, Json.flagAt, Json.flagAt?, Json.textAt, Json.textAt?, Json.fieldD,
      Json.entriesAt, Json.field?_ofFields, lookup_cons_eq_ite, Json.bool?, Json.string?,
      Json.object?, Level.ofName?_name, LogFormat.ofName?_name, LogOutput.ofName?_name,
      Function.comp_def, Dict.ofList_entries, SpanEvents.ofNormal_toJson]

theorem BusSettings.ofNormal_toJson (s : BusSettings) : ofNormal s.toJson = s := by
  simp [ofNormal, toJson, Json.flagAt, Json.flagAt?, Json.textsAt, Json.itemsAt,
    Json.field?_ofFields, lookup_cons_eq_ite, Json.bool?, Json.array?, Json.string?,
    List.filterMap_map, Function.comp_def]

theorem NotificationSettings.ofNormal_toJson (s : NotificationSettings) :
    ofNormal s.toJson = s := by
  simp [ofNormal, toJson, Json.flagAt, Json.flagAt?, Json.textAt, Json.textAt?,
    Json.field?_ofFields, lookup_cons_eq_ite, Json.bool?, Json.string?]

theorem Settings.ofNormal_toJson (s : Settings) : ofNormal s.toJson = s := by
  simp [ofNormal, toJson, Json.fieldD, Json.field?_ofFields, lookup_cons_eq_ite,
    s.logging.ofNormal_toJson, s.bus.ofNormal_toJson, s.notifications.ofNormal_toJson]

/-! ## Documents of settings are complete -/

namespace Tree

theorem suits_table {shape : Shape} (tables : shape.isTable = true) {entries : List (String × Tree)}
    (inner : ∀ key part value, shape.inner? key = some part → entries.lookup key = some value →
      value.Suits part) : (table entries).Suits shape := by
  intro keys part value atShape atTree
  cases keys with
  | nil =>
      cases atShape
      cases atTree
      exact tables.symm
  | cons key keys =>
      obtain ⟨next, found, atShape⟩ := Option.bind_eq_some_iff.mp atShape
      obtain ⟨below, there, atTree⟩ := Option.bind_eq_some_iff.mp atTree
      exact inner key next below found there keys part value atShape atTree

theorem suits_single {shape : Shape} (single : shape.isTable = false) {t : Tree}
    (isSingle : t.isTable = false) : t.Suits shape := by
  intro keys part value atShape atTree
  cases keys with
  | nil =>
      cases atShape
      cases atTree
      rw [single, isSingle]
  | cons key keys =>
      obtain ⟨next, found, _⟩ := Option.bind_eq_some_iff.mp atShape
      rw [Shape.isTable_of_inner? found] at single
      contradiction

theorem covers_of_fixed?_eq_none {shape : Shape}
    (none : ∀ key keys, shape.fixed? (key :: keys) = none) (t : Tree) : t.Covers shape := by
  intro keys part found
  cases keys with
  | nil => rfl
  | cons key keys =>
      rw [none] at found
      contradiction

/-- A single value has no fields that could be missing. -/
theorem complete_single {shape : Shape} (plain : shape.isPlain = true) {t : Tree}
    (isSingle : t.isTable = false) : t.Complete shape where
  suits := suits_single (Shape.isTable_of_isPlain plain) isSingle
  covers := by
    apply covers_of_fixed?_eq_none
    intro key keys
    cases shape <;> first | rfl | contradiction
  ordered := by cases t <;> trivial

theorem lookup_entriesOfJson (fields : List (String × Json)) (key : String) :
    (entriesOfJson fields).lookup key = (fields.lookup key).map ofJson := by
  rw [entriesOfJson_eq_map, lookup_map_snd]

variable {fields : List (String × Presence × Shape)} {pairs : List (String × Json)}

/-- The pairs are complete values of the fields, one for each. -/
def PairsComplete (fields : List (String × Presence × Shape)) (pairs : List (String × Json)) :
    Prop :=
  List.Forall₂ (fun field pair => pair.1 = field.1 ∧ (ofJson pair.2).Complete field.2.2)
    fields pairs

theorem PairsComplete.map_fst_eq (complete : PairsComplete fields pairs) :
    pairs.map (·.1) = fields.map (·.1) := by
  induction complete with
  | nil => rfl
  | cons here _ ih => rw [List.map_cons, List.map_cons, here.1, ih]

theorem PairsComplete.lookup (complete : PairsComplete fields pairs) {key : String}
    {field : Presence × Shape} (found : fields.lookup key = some field) :
    ∃ a, pairs.lookup key = some a ∧ (ofJson a).Complete field.2 := by
  induction complete with
  | nil => contradiction
  | @cons first pair _ _ here _ ih =>
      rw [lookup_cons_eq_ite] at found ⊢
      by_cases atFirst : key = first.1
      · rw [if_pos atFirst] at found
        rw [if_pos (atFirst.trans here.1.symm)]
        cases found
        exact ⟨pair.2, rfl, here.2⟩
      · rw [if_neg atFirst] at found
        rw [if_neg (here.1 ▸ atFirst)]
        exact ih found

theorem PairsComplete.ordered (complete : PairsComplete fields pairs) :
    ∀ pair ∈ pairs, (ofJson pair.2).Ordered := by
  induction complete with
  | nil => simp
  | cons here _ ih => exact List.forall_mem_cons.mpr ⟨here.2.ordered, ih⟩

/-- The object of complete values of its fields is a complete record. -/
theorem complete_ofJson_ofFields {name : String} {strict : Bool}
    (nodup : (fields.map (·.1)).Nodup) (complete : PairsComplete fields pairs) :
    (ofJson (.ofFields pairs)).Complete (.record name strict fields) := by
  obtain ⟨entries, isTable, atKey⟩ : ∃ entries, ofJson (.ofFields pairs) = table entries ∧
      ∀ key, entries.lookup key = (pairs.lookup key).map ofJson := by
    refine ⟨_, rfl, ?_⟩
    intro key
    rw [lookup_entriesOfJson]
    rw [← complete.map_fst_eq] at nodup
    exact congrArg (Option.map ofJson) (Json.field?_ofFields nodup key)
  have below : ∀ key field, fields.lookup key = some field →
      ∃ value, entries.lookup key = some value ∧ value.Complete field.2 := by
    intro key field found
    obtain ⟨a, atPairs, inside⟩ := complete.lookup found
    exact ⟨ofJson a, by rw [atKey, atPairs]; rfl, inside⟩
  constructor
  case suits =>
    rw [isTable]
    apply suits_table rfl
    intro key part value found there
    obtain ⟨field, atFields, rfl⟩ := Option.map_eq_some_iff.mp found
    obtain ⟨value', there', inside⟩ := below key field atFields
    rw [there] at there'
    cases there'
    exact inside.suits
  case covers =>
    rw [isTable]
    intro keys part found
    cases keys with
    | nil => rfl
    | cons key keys =>
        obtain ⟨field, atFields, found⟩ := Option.bind_eq_some_iff.mp found
        obtain ⟨value, there, inside⟩ := below key field atFields
        rw [at?, there]
        exact inside.covers keys part found
  case ordered => exact ordered_ofJson_ofFields complete.ordered

end Tree

open Courier.Tree

theorem Settings.complete_bool (b : Bool) : (ofJson (.bool b)).Complete .bool :=
  complete_single rfl rfl

theorem Settings.complete_string (text : String) : (ofJson (.string text)).Complete .string :=
  complete_single rfl rfl

theorem Settings.complete_choice (type : String) (names : List String) (name : String) :
    (ofJson (.string name)).Complete (choice type names) :=
  complete_single (by simp [choice, Shape.isPlain]) rfl

theorem SpanEvents.complete_toJson (e : SpanEvents) : (ofJson e.toJson).Complete shape := by
  apply complete_ofJson_ofFields (by decide)
  simp [PairsComplete, Settings.setting, Settings.complete_bool]

theorem LoggingSettings.complete_filters (filters : Dict Level) :
    (ofJson (.object (filters.entries.map fun e => (e.1, .string e.2.name)))).Complete
      (.dict Settings.levelShape) := by
  have single : ∀ key value, (entriesOfJson
      (filters.entries.map fun e => (e.1, .string e.2.name))).lookup key = some value →
        value.isTable = false := by
    intro key value there
    rw [lookup_entriesOfJson] at there
    obtain ⟨a, found, rfl⟩ := Option.map_eq_some_iff.mp there
    obtain ⟨before, after, isList, _⟩ := List.lookup_eq_some_iff.mp found
    obtain ⟨entry, _, same⟩ := List.mem_map.mp (isList ▸ List.mem_append_right before
      List.mem_cons_self : (key, a) ∈ filters.entries.map fun e => (e.1, Json.string e.2.name))
    cases same
    rfl
  constructor
  case suits =>
    apply suits_table rfl
    intro key part value found there
    cases found
    exact suits_single rfl (single key value there)
  case covers => exact covers_of_fixed?_eq_none (fun _ _ => rfl) _
  case ordered =>
    apply ordered_ofJson_object
    · rw [Increasing, List.pairwise_map]
      exact filters.increasing
    · intro field mem
      obtain ⟨entry, _, rfl⟩ := List.mem_map.mp mem
      trivial

theorem LoggingSettings.complete_toJson (s : LoggingSettings) :
    (ofJson s.toJson).Complete shape := by
  have filePath : (ofJson ((s.filePath.map Json.string).getD .null)).Complete
      (.optional .path) := by
    apply complete_single rfl
    cases s.filePath <;> rfl
  have level := Settings.complete_choice "LogLevel" (Level.all.map (·.name)) s.level.name
  have format := Settings.complete_choice "LogFormat" (LogFormat.all.map (·.name)) s.format.name
  have output := Settings.complete_choice "LogOutput" (LogOutput.all.map (·.name)) s.output.name
  rw [← Settings.levelShape] at level
  rw [← Settings.formatShape] at format
  rw [← Settings.outputShape] at output
  apply complete_ofJson_ofFields (by decide)
  simp [PairsComplete, Settings.setting, Settings.complete_bool, level, format, output,
    complete_filters, SpanEvents.complete_toJson, filePath]

theorem BusSettings.complete_toJson (s : BusSettings) : (ofJson s.toJson).Complete shape := by
  have texts : ∀ as, (ofJson (.array as)).Complete (.list .string) :=
    fun as => complete_single rfl rfl
  apply complete_ofJson_ofFields (by decide)
  simp [PairsComplete, Settings.setting, Settings.complete_bool, texts]

theorem NotificationSettings.complete_toJson (s : NotificationSettings) :
    (ofJson s.toJson).Complete shape := by
  apply complete_ofJson_ofFields (by decide)
  simp [PairsComplete, Settings.setting, Settings.complete_bool, Settings.complete_string]

/-- The document of settings is complete. -/
theorem Settings.complete_toJson (s : Settings) : (ofJson s.toJson).Complete shape := by
  apply complete_ofJson_ofFields (by decide)
  simp [PairsComplete, setting, s.logging.complete_toJson, s.bus.complete_toJson,
    s.notifications.complete_toJson]

/-! ## What the decoder gives -/

namespace Decoder

theorem exists_of_mem_elements {decode : Decoder} {as bs : List Json} {start : Nat}
    (ok : elements decode start as = .ok bs) {b : Json} (mem : b ∈ bs) :
    ∃ a, decode a = .ok b := by
  induction as generalizing start bs with
  | nil =>
      cases ok
      contradiction
  | cons a rest ih =>
      unfold elements at ok
      cases here : under (toString start) decode a with
      | error r =>
          rw [here] at ok
          contradiction
      | ok b' =>
          cases others : elements decode (start + 1) rest with
          | error r =>
              rw [here, others] at ok
              contradiction
          | ok more =>
              rw [here, others] at ok
              cases ok
              rcases List.mem_cons.mp mem with rfl | mem
              · exact ⟨a, under_eq_ok_iff.mp here⟩
              · exact ih others mem

end Decoder

namespace Shape

open Decoder

variable {dialect : Dialect} {a n : Json}

/-- The decoder of the shape gives the document for some complete tree. -/
def Gives (dialect : Dialect) (shape : Shape) (n : Json) : Prop :=
  ∃ t : Tree, t.Complete shape ∧ shape.decode dialect t.toJson = .ok n

theorem eq_string_of_decode (ok : string.decode dialect a = .ok n) : ∃ s, n = .string s := by
  simp only [decode] at ok
  split at ok
  · cases ok
    exact ⟨_, rfl⟩
  · contradiction

theorem Gives.eq_string (gives : string.Gives dialect n) : ∃ s, n = .string s := by
  obtain ⟨_, _, ok⟩ := gives
  exact eq_string_of_decode ok

theorem Gives.eq_bool (gives : bool.Gives dialect n) : ∃ b, n = .bool b := by
  obtain ⟨_, _, ok⟩ := gives
  simp only [decode] at ok
  split at ok
  · cases ok
    exact ⟨_, rfl⟩
  · contradiction

theorem Gives.eq_path (gives : (optional path).Gives dialect n) :
    ∃ file : Option String, n = (file.map Json.string).getD .null := by
  obtain ⟨_, _, ok⟩ := gives
  simp only [decode] at ok
  split at ok
  · cases ok
    exact ⟨none, rfl⟩
  · split at ok
    · cases ok
      exact ⟨some _, rfl⟩
    · contradiction

theorem Gives.eq_texts (gives : (list string).Gives dialect n) :
    ∃ texts : List String, n = .array (texts.map .string) := by
  obtain ⟨_, _, ok⟩ := gives
  rw [decode] at ok
  dsimp only at ok
  split at ok
  · next as _ =>
      cases read : elements (string.decode dialect) 0 as with
      | error r =>
          rw [read] at ok
          contradiction
      | ok bs =>
          rw [read] at ok
          cases ok
          have strings : bs ∈ Set.range (List.map Json.string) := by
            rw [Set.range_list_map]
            intro b mem
            obtain ⟨a, accepted⟩ := exists_of_mem_elements read mem
            obtain ⟨s, rfl⟩ := eq_string_of_decode accepted
            exact ⟨s, rfl⟩
          obtain ⟨texts, rfl⟩ := strings
          exact ⟨texts, rfl⟩
  · contradiction

/-- Of variants that hold nothing, only the names are given. -/
theorem Gives.eq_name {type : String} {names : List String}
    (gives : (Settings.choice type names).Gives dialect n) : ∃ name ∈ names, n = .string name := by
  obtain ⟨t, complete, ok⟩ := gives
  have bare : ∀ c ∈ names.map fun name => (name, VariantKind.bare, unit), c.2.1 = .bare := by
    simp
  have single : t.isTable = false := complete.suits.isTable_eq
  have named : ∀ text, t.toJson = .string text → ∃ name ∈ names, n = .string name := by
    intro text isText
    rw [isText] at ok
    obtain ⟨same, mem⟩ := eq_of_decode_variants bare ok
    rw [List.map_map] at mem
    exact ⟨text, by simpa using mem, same⟩
  cases t with
  | text s => exact named s rfl
  | letter c => exact named _ rfl
  | table entries => contradiction
  | _ =>
      simp only [Tree.toJson, Json.int, Settings.choice, decode, Decoder.variants] at ok
      split at ok <;> contradiction

/-- What is given under a key of a table is given for the part there. -/
theorem gives_of_lookup {shape : Shape} (layered : shape.isLayered = true)
    {entries : List (String × Tree)} (complete : (Tree.table entries).Complete shape)
    {given : List (String × Json)} (ok : collect (shape.answers dialect entries) = .ok given)
    {key : String} {b : Json} (there : given.lookup key = some b) :
    ∃ part, shape.inner? key = some part ∧ part.Gives dialect b := by
  have answered := lookup_of_collect ok key
  rw [lookup_answers, there] at answered
  obtain ⟨value, atKey, answered⟩ := Option.bind_eq_some_iff.mp answered
  obtain ⟨part, found, answered⟩ := Option.map_eq_some_iff.mp answered
  exact ⟨part, found, value, complete.below layered found atKey, under_eq_ok_iff.mp answered⟩

/-- What is given for a dictionary. -/
theorem Gives.eq_object {item : Shape} (gives : (dict item).Gives dialect n)
    (plain : item.isPlain = true) :
    ∃ fields, n = .object fields ∧ Increasing fields ∧
      ∀ field ∈ fields, item.Gives dialect field.2 := by
  have layered : (dict item).isLayered = true := plain
  obtain ⟨t, complete, ok⟩ := gives
  obtain ⟨entries, rfl⟩ := Tree.exists_table_of_isTable complete.suits.isTable_eq
  rw [decode_table layered rfl complete.covers] at ok
  cases read : collect ((dict item).answers dialect entries) with
  | error r =>
      rw [read] at ok
      contradiction
  | ok fields =>
      rw [read] at ok
      cases ok
      have increasing := ((Tree.ordered_table_iff entries).mp complete.ordered).1
      have answered : Increasing ((dict item).answers dialect entries) :=
        increasing_answers _ increasing
      rw [eq_map_of_collect read, Increasing, List.pairwise_map] at answered
      refine ⟨fields, rfl, answered, ?_⟩
      intro field mem
      obtain ⟨_, ⟨⟩, gives⟩ := gives_of_lookup layered complete read
        (Increasing.lookup_of_mem answered mem)
      exact gives

/-- What is given for a record: something for each field. -/
theorem Gives.eq_ofFields {name : String} {strict : Bool}
    {fields : List (String × Presence × Shape)}
    (gives : (record name strict fields).Gives dialect n)
    (layered : (record name strict fields).isLayered = true) :
    ∃ value : String → Json, n = .ofFields (fields.map fun field => (field.1, value field.1)) ∧
      ∀ key field, fields.lookup key = some field → field.2.Gives dialect (value key) := by
  obtain ⟨t, complete, ok⟩ := gives
  obtain ⟨entries, rfl⟩ := Tree.exists_table_of_isTable complete.suits.isTable_eq
  rw [decode_table layered rfl complete.covers] at ok
  cases read : collect ((record name strict fields).answers dialect entries) with
  | error r =>
      rw [read] at ok
      contradiction
  | ok given =>
      rw [read] at ok
      cases ok
      refine ⟨fun key => (given.lookup key).getD .null, rfl, ?_⟩
      intro key field found
      have mem : (key, field) ∈ fields := by
        obtain ⟨before, after, rfl, _⟩ := List.lookup_eq_some_iff.mp found
        simp
      obtain ⟨b, there⟩ :=
        Option.isSome_iff_exists.mp (isSome_lookup_given complete.covers read mem)
      obtain ⟨part, atKey, gives⟩ := gives_of_lookup layered complete read there
      rw [inner?, found] at atKey
      cases atKey
      simpa only [there, Option.getD_some] using gives

end Shape

/-! ### Settings -/

open Shape

variable {dialect : Dialect} {n : Json}

theorem Settings.isLayered_shape : Settings.shape.isLayered = true := by
  decide

theorem Level.eq_name_of_gives (gives : Settings.levelShape.Gives dialect n) :
    ∃ level : Level, n = .string level.name := by
  obtain ⟨name, mem, rfl⟩ := gives.eq_name
  obtain ⟨level, _, rfl⟩ := List.mem_map.mp mem
  exact ⟨level, rfl⟩

theorem LogFormat.eq_name_of_gives (gives : Settings.formatShape.Gives dialect n) :
    ∃ format : LogFormat, n = .string format.name := by
  obtain ⟨name, mem, rfl⟩ := gives.eq_name
  obtain ⟨format, _, rfl⟩ := List.mem_map.mp mem
  exact ⟨format, rfl⟩

theorem LogOutput.eq_name_of_gives (gives : Settings.outputShape.Gives dialect n) :
    ∃ output : LogOutput, n = .string output.name := by
  obtain ⟨name, mem, rfl⟩ := gives.eq_name
  obtain ⟨output, _, rfl⟩ := List.mem_map.mp mem
  exact ⟨output, rfl⟩

theorem SpanEvents.eq_toJson_of_gives (gives : SpanEvents.shape.Gives dialect n) :
    ∃ e : SpanEvents, n = e.toJson := by
  obtain ⟨value, rfl, given⟩ := gives.eq_ofFields (by decide)
  obtain ⟨new, isNew⟩ := (given "new" _ rfl).eq_bool
  obtain ⟨enter, isEnter⟩ := (given "enter" _ rfl).eq_bool
  obtain ⟨exit, isExit⟩ := (given "exit" _ rfl).eq_bool
  obtain ⟨close, isClose⟩ := (given "close" _ rfl).eq_bool
  use ⟨new, enter, exit, close⟩
  simp only [Settings.setting, List.map_cons, List.map_nil, isNew, isEnter, isExit, isClose,
    SpanEvents.toJson]

/-- What is given for the levels of targets is a dictionary of levels. -/
theorem Level.eq_filters_of_gives (gives : (Shape.dict Settings.levelShape).Gives dialect n) :
    ∃ filters : Dict Level,
      n = .object (filters.entries.map fun entry => (entry.1, .string entry.2.name)) := by
  obtain ⟨fields, rfl, increasing, given⟩ := gives.eq_object (by decide)
  have leveled : fields ∈ Set.range (List.map fun entry : String × Level =>
      (entry.1, Json.string entry.2.name)) := by
    rw [Set.range_list_map]
    intro field mem
    obtain ⟨level, isLevel⟩ := Level.eq_name_of_gives (given field mem)
    exact ⟨(field.1, level), Prod.ext rfl isLevel.symm⟩
  obtain ⟨entries, rfl⟩ := leveled
  rw [Increasing, List.pairwise_map] at increasing
  exact ⟨⟨entries, increasing⟩, rfl⟩

theorem LoggingSettings.eq_toJson_of_gives (gives : LoggingSettings.shape.Gives dialect n) :
    ∃ s : LoggingSettings, n = s.toJson := by
  obtain ⟨value, rfl, given⟩ := gives.eq_ofFields (by decide)
  obtain ⟨level, isLevel⟩ := Level.eq_name_of_gives (given "level" _ rfl)
  obtain ⟨format, isFormat⟩ := LogFormat.eq_name_of_gives (given "format" _ rfl)
  obtain ⟨output, isOutput⟩ := LogOutput.eq_name_of_gives (given "output" _ rfl)
  obtain ⟨filters, areFilters⟩ := Level.eq_filters_of_gives (given "filters" _ rfl)
  obtain ⟨spanEvents, areEvents⟩ := SpanEvents.eq_toJson_of_gives (given "span_events" _ rfl)
  obtain ⟨threadIds, isThreadIds⟩ := (given "thread_ids" _ rfl).eq_bool
  obtain ⟨fileLocation, isFileLocation⟩ := (given "file_location" _ rfl).eq_bool
  obtain ⟨filePath, isFilePath⟩ := (given "file_path" _ rfl).eq_path
  use ⟨level, format, output, filters, spanEvents, threadIds, fileLocation, filePath⟩
  simp only [Settings.setting, List.map_cons, List.map_nil, isLevel, isFormat, isOutput,
    areFilters, areEvents, isThreadIds, isFileLocation, isFilePath, LoggingSettings.toJson]

theorem BusSettings.eq_toJson_of_gives (gives : BusSettings.shape.Gives dialect n) :
    ∃ s : BusSettings, n = s.toJson := by
  obtain ⟨value, rfl, given⟩ := gives.eq_ofFields (by decide)
  obtain ⟨redactedFields, areFields⟩ := (given "redacted_fields" _ rfl).eq_texts
  obtain ⟨auditLog, isAuditLog⟩ := (given "audit_log" _ rfl).eq_bool
  use ⟨redactedFields, auditLog⟩
  simp only [Settings.setting, List.map_cons, List.map_nil, areFields, isAuditLog,
    BusSettings.toJson]

theorem NotificationSettings.eq_toJson_of_gives
    (gives : NotificationSettings.shape.Gives dialect n) :
    ∃ s : NotificationSettings, n = s.toJson := by
  obtain ⟨value, rfl, given⟩ := gives.eq_ofFields (by decide)
  obtain ⟨emailEnabled, isEnabled⟩ := (given "email_enabled" _ rfl).eq_bool
  obtain ⟨webProtocol, isProtocol⟩ := (given "web_protocol" _ rfl).eq_string
  obtain ⟨baseDomain, isDomain⟩ := (given "base_domain" _ rfl).eq_string
  use ⟨emailEnabled, webProtocol, baseDomain⟩
  simp only [Settings.setting, List.map_cons, List.map_nil, isEnabled, isProtocol, isDomain,
    NotificationSettings.toJson]

/-- What the decoder gives for a complete tree is the document of some settings. -/
theorem Settings.eq_toJson_of_gives (gives : Settings.shape.Gives dialect n) :
    ∃ s : Settings, n = s.toJson := by
  obtain ⟨value, rfl, given⟩ := gives.eq_ofFields Settings.isLayered_shape
  obtain ⟨logging, isLogging⟩ := LoggingSettings.eq_toJson_of_gives (given "logging" _ rfl)
  obtain ⟨bus, isBus⟩ := BusSettings.eq_toJson_of_gives (given "bus" _ rfl)
  obtain ⟨notifications, isNotifications⟩ :=
    NotificationSettings.eq_toJson_of_gives (given "notifications" _ rfl)
  use ⟨logging, bus, notifications⟩
  simp only [Settings.setting, List.map_cons, List.map_nil, isLogging, isBus, isNotifications,
    Settings.toJson]

/-- The settings of a complete tree have at each leaf what the tree has there. -/
theorem Settings.at?_of_ofDocument {t : Tree} (complete : t.Complete Settings.shape) {s : Settings}
    (ok : Settings.ofDocument dialect t.toJson = .ok s) {keys : List String}
    (leaf : Settings.shape.Leaf keys) : s.toJson.at? keys = (t.at? keys).map Tree.toJson := by
  unfold Settings.ofDocument at ok
  cases read : Settings.shape.decode dialect t.toJson with
  | error r =>
      rw [read] at ok
      contradiction
  | ok n =>
      rw [read] at ok
      cases ok
      have same := Tree.at?_of_decode Settings.isLayered_shape complete read leaf
      obtain ⟨s, rfl⟩ := Settings.eq_toJson_of_gives ⟨t, complete, read⟩
      rw [Settings.ofNormal_toJson, same]

end Courier
