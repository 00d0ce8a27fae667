import Courier.Proofs.Codec.Return
import Courier.Proofs.Settings.Document

/-!
# Which payloads the catalogue accepts

The fields of the catalogue hold strings, or lists of strings.  A payload is read as an event of a
type if it is an object with a value of its kind for each declared field, whatever else it has, or
an array of such values in declared order and no others; and the event has these values and nothing
else (`Catalogue.codec_decode_iff`).  So what an object has under other keys makes no difference,
neither for the event nor for the error.

This goes by records whose fields are all plain: they have to be there, and are kept as they are.
-/

namespace Courier

/-! ## Objects -/

/-- An object with fields that come by increasing key, or no object at all. -/
def Json.Proper (a : Json) : Prop :=
  ∀ fields, a = .object fields → Increasing fields

theorem Json.Proper.exists_ofDict {fields : List (String × Json)}
    (proper : Json.Proper (.object fields)) : ∃ d : Dict Json, Json.object fields = .ofDict d :=
  ⟨⟨fields, proper fields rfl⟩, rfl⟩

theorem Json.proper_ofDict (d : Dict Json) : (Json.ofDict d).Proper := by
  rintro fields ⟨⟩
  exact d.increasing

/-- The object of pairs is that of their dictionary. -/
theorem Json.ofFields_eq_ofDict (pairs : List (String × Json)) :
    ofFields pairs = ofDict (.ofList pairs) := by
  have folded : ∀ d : Dict Json,
      pairs.foldl (fun fields pair => insertEntry pair.1 pair.2 fields) d.entries =
        (pairs.foldl (fun d pair => d.insert pair.1 pair.2) d).entries := by
    induction pairs with
    | nil => exact fun d => rfl
    | cons pair rest ih => exact fun d => ih (d.insert pair.1 pair.2)
  exact congrArg Json.object (folded .empty)

/-- In the dictionary of pairs with different keys, each key has its value. -/
theorem Dict.get?_ofList {pairs : List (String × Json)} (nodup : (pairs.map (·.1)).Nodup)
    (key : String) : (ofList pairs).get? key = pairs.lookup key := by
  rw [← Json.field?_ofFields nodup, Json.ofFields_eq_ofDict]
  rfl

namespace Decoder

/-! ## Plain fields -/

/-- The field has to be there, and its value is kept as it is. -/
structure Plain (f : FieldDecoder) : Prop where
  required : f.presence = .required
  exact : ∀ a b, f.decode a = .ok b → b = a

theorem Plain.stable {f : FieldDecoder} (plain : Plain f) : f.decode.Stable := by
  intro a b ok
  obtain rfl := plain.exact a b ok
  exact ok

variable {fields : List FieldDecoder} {given named : List (String × Json)}

/-- The entries of a dictionary under the names of some fields. -/
def declared (fields : List FieldDecoder) (d : Dict Json) : Dict Json :=
  d.filter fun key _ => key ∈ fields.map (·.name)

theorem get?_declared (fields : List FieldDecoder) (d : Dict Json) (key : String) :
    (declared fields d).get? key = if key ∈ fields.map (·.name) then d.get? key else none := by
  rw [declared, Dict.get?_filter]
  by_cases named : key ∈ fields.map (·.name)
  · cases d.get? key <;> simp [named]
  · cases d.get? key <;> simp [named]

theorem find?_eq_none_iff {key : String} :
    fields.find? (fun f => f.name == key) = none ↔ key ∉ fields.map (·.name) := by
  simp [List.find?_eq_none]

/-- What an object has under other keys is passed over. -/
theorem givenFields_filter (fields : List FieldDecoder) (entries : List (String × Json)) :
    givenFields fields false (entries.filter fun entry => entry.1 ∈ fields.map (·.name)) =
      givenFields fields false entries := by
  induction entries with
  | nil => rfl
  | cons entry rest ih =>
      by_cases named : entry.1 ∈ fields.map (·.name)
      · rw [List.filter_cons_of_pos (by simpa using named), givenFields, givenFields, ih]
      · rw [List.filter_cons_of_neg (by simpa using named), ih, givenFields,
          find?_eq_none_iff.mpr named]
        rfl

/-- Objects with the same values under the names of the fields are read alike. -/
theorem recordOfObject_congr {d d' : Dict Json}
    (same : ∀ f ∈ fields, d.get? f.name = d'.get? f.name) :
    recordOfObject fields false d.entries = recordOfObject fields false d'.entries := by
  have alike : declared fields d = declared fields d' := by
    apply Dict.ext_get?
    intro key
    rw [get?_declared, get?_declared]
    split
    · next named =>
        obtain ⟨f, mem, rfl⟩ := List.mem_map.mp named
        exact same f mem
    · rfl
  have entriesEq := congrArg Dict.entries alike
  simp only [declared, Dict.filter] at entriesEq
  rw [recordOfObject, recordOfObject, ← givenFields_filter, entriesEq, givenFields_filter]

/-- Of plain fields, an object gives what it has under their names. -/
theorem eq_filter_of_givenFields (plain : ∀ f ∈ fields, Plain f) {entries : List (String × Json)}
    (ok : givenFields fields false entries = .ok given) :
    given = entries.filter fun entry => entry.1 ∈ fields.map (·.name) := by
  induction entries generalizing given with
  | nil =>
      cases ok
      rfl
  | cons entry rest ih =>
      rw [givenFields] at ok
      cases found : fields.find? fun f => f.name == entry.1 with
      | some f =>
          simp only [found, bind_eq_ok_iff, pure_eq_ok_iff, under_eq_ok_iff] at ok
          obtain ⟨b, here, others, read, rfl⟩ := ok
          have named : entry.1 ∈ fields.map (·.name) := by
            by_contra unnamed
            rw [find?_eq_none_iff.mpr unnamed] at found
            contradiction
          obtain rfl := (plain f (List.mem_of_find?_eq_some found)).exact _ b here
          rw [List.filter_cons_of_pos (by simpa using named), ← ih read]
      | none =>
          simp only [found] at ok
          rw [List.filter_cons_of_neg (by simpa using find?_eq_none_iff.mp found), ← ih ok]

/-- The values of fields among some entries; one that is missing counts as null. -/
def valuesOf (fields : List FieldDecoder) (given : List (String × Json)) : List (String × Json) :=
  fields.map fun f => (f.name, (given.lookup f.name).getD .null)

/-- Plain fields are completed if each of them is given. -/
theorem completed_eq_ok_iff (plain : ∀ f ∈ fields, Plain f) :
    completed given fields = .ok named ↔
      (∀ f ∈ fields, ∃ a, given.lookup f.name = some a) ∧ named = valuesOf fields given := by
  induction fields generalizing named with
  | nil => simp [completed, valuesOf, eq_comm]
  | cons f rest ih =>
      rw [List.forall_mem_cons] at plain ⊢
      rw [completed]
      cases found : given.lookup f.name with
      | none => simp [plain.1.required]
      | some a =>
          simp only [bind_eq_ok_iff, pure_eq_ok_iff, ih plain.2, valuesOf, List.map_cons, found,
            Option.getD_some]
          constructor
          · rintro ⟨others, ⟨all, rfl⟩, rfl⟩
            exact ⟨⟨⟨a, rfl⟩, all⟩, rfl⟩
          · rintro ⟨⟨_, all⟩, rfl⟩
            exact ⟨_, ⟨all, rfl⟩, rfl⟩

theorem lookup_valuesOf (fields : List FieldDecoder) (given : List (String × Json)) (key : String) :
    (valuesOf fields given).lookup key =
      if key ∈ fields.map (·.name) then some ((given.lookup key).getD .null) else none := by
  induction fields with
  | nil => rfl
  | cons f rest ih =>
      rw [valuesOf, List.map_cons, lookup_cons_eq_ite, ← valuesOf, ih, List.map_cons]
      by_cases first : key = f.name
      · simp [first]
      · simp [first]

/-- The object of the values of all fields is that of the declared entries. -/
theorem ofFields_valuesOf (nodup : (fields.map (·.name)).Nodup) {d : Dict Json}
    (all : ∀ f ∈ fields, ∃ a, (declared fields d).get? f.name = some a) :
    Json.ofFields (valuesOf fields (declared fields d).entries) = .ofDict (declared fields d) := by
  have names : (valuesOf fields (declared fields d).entries).map (·.1) = fields.map (·.name) := by
    simp [valuesOf, Function.comp_def]
  rw [Json.ofFields_eq_ofDict]
  apply congrArg Json.ofDict
  apply Dict.ext_get?
  intro key
  rw [Dict.get?_ofList (names ▸ nodup), lookup_valuesOf]
  split
  · next named =>
      obtain ⟨f, mem, rfl⟩ := List.mem_map.mp named
      obtain ⟨a, found⟩ := all f mem
      rw [found]
      exact congrArg (fun found => some (found.getD .null)) found
  · next unnamed => rw [get?_declared, if_neg unnamed]

/-- A record of plain fields is read from an object that has a value for each of them. -/
theorem recordOfObject_eq_ok_iff (nodup : (fields.map (·.name)).Nodup)
    (plain : ∀ f ∈ fields, Plain f) {d : Dict Json} {b : Json} :
    recordOfObject fields false d.entries = .ok b ↔
      (∀ f ∈ fields, ∃ a, d.get? f.name = some a ∧ f.decode.Fixes a) ∧
        b = .ofDict (declared fields d) := by
  have ofName : ∀ f ∈ fields, (declared fields d).get? f.name = d.get? f.name := by
    intro f mem
    rw [get?_declared, if_pos (List.mem_map_of_mem mem)]
  simp only [recordOfObject, bind_eq_ok_iff, pure_eq_ok_iff, completed_eq_ok_iff plain]
  constructor
  case mp =>
    rintro ⟨given, readGiven, named, ⟨all, rfl⟩, rfl⟩
    have fixed := fixes_of_givenFields (fun f mem => (plain f mem).stable) readGiven
    obtain rfl : given = (declared fields d).entries := eq_filter_of_givenFields plain readGiven
    refine ⟨?_, ofFields_valuesOf nodup all⟩
    intro f mem
    obtain ⟨a, there⟩ := all f mem
    obtain ⟨other, found, fixedThere⟩ := fixed _ (mem_of_lookup there)
    rw [find?_of_mem nodup mem] at found
    cases found
    exact ⟨a, ofName f mem ▸ there, fixedThere⟩
  case mpr =>
    rintro ⟨all, rfl⟩
    have found : ∀ f ∈ fields, ∃ a, (declared fields d).get? f.name = some a := by
      intro f mem
      obtain ⟨a, there, _⟩ := all f mem
      exact ⟨a, (ofName f mem).trans there⟩
    refine ⟨(declared fields d).entries, ?_, _, ⟨found, rfl⟩, ofFields_valuesOf nodup found⟩
    rw [← givenFields_filter]
    apply givenFields_of_fixes
    intro entry mem
    have there : (declared fields d).get? entry.1 = some entry.2 :=
      (declared fields d).increasing.lookup_of_mem mem
    rw [get?_declared] at there
    split at there
    · next named =>
        obtain ⟨f, memFields, nameEq⟩ := List.mem_map.mp named
        obtain ⟨a, atName, fixed⟩ := all f memFields
        rw [nameEq, there] at atName
        cases atName
        exact ⟨f, nameEq ▸ find?_of_mem nodup memFields, fixed⟩
    · contradiction

/-! ## Arrays -/

/-- Plain fields are read from the first elements of an array, one each. -/
theorem positional_eq_ok_iff (plain : ∀ f ∈ fields, Plain f) {expected : String} {index : Nat}
    {as : List Json} :
    positional expected index fields as = .ok named ↔
      ∃ front rest, as = front ++ rest ∧ List.Forall₂ (fun f a => f.decode.Fixes a) fields front ∧
        named = (fields.map (·.name)).zip front := by
  induction fields generalizing index as named with
  | nil => simp [positional, eq_comm]
  | cons f others ih =>
      rw [List.forall_mem_cons] at plain
      cases as with
      | nil => simp [positional, plain.1.required]
      | cons a as =>
          simp only [positional, bind_eq_ok_iff, pure_eq_ok_iff, under_eq_ok_iff, ih plain.2,
            List.forall₂_cons_left_iff]
          constructor
          · rintro ⟨b, here, _, ⟨front, rest, rfl, fixed, rfl⟩, rfl⟩
            obtain rfl := plain.1.exact a b here
            exact ⟨b :: front, rest, rfl, ⟨b, front, here, fixed, rfl⟩, rfl⟩
          · rintro ⟨_, rest, asEq, ⟨b, front, here, fixed, rfl⟩, rfl⟩
            obtain ⟨rfl, rfl⟩ := List.cons.inj asEq
            exact ⟨a, here, _, ⟨front, rest, rfl, fixed, rfl⟩, rfl⟩

theorem noSurplus_document_eq_ok_iff (wanted : Nat) (as : List Json) (u : Unit) :
    noSurplus .document wanted as = .ok u ↔ as.length ≤ wanted := by
  unfold noSurplus
  by_cases surplus : wanted < as.length
  · simp [surplus, Dialect.document, refuse]
  · simp [surplus, Dialect.document, Nat.le_of_not_lt surplus]

/-- A record of plain fields is read from an array that has one value for each of them. -/
theorem record_array_eq_ok_iff (plain : ∀ f ∈ fields, Plain f) (name : String) {as : List Json}
    {b : Json} :
    record .document name false fields (.array as) = .ok b ↔
      List.Forall₂ (fun f a => f.decode.Fixes a) fields as ∧
        b = .ofDict (.ofList ((fields.map (·.name)).zip as)) := by
  simp only [record, bind_eq_ok_iff, pure_eq_ok_iff, positional_eq_ok_iff plain,
    noSurplus_document_eq_ok_iff, ← Json.ofFields_eq_ofDict]
  constructor
  · rintro ⟨_, ⟨front, rest, rfl, fixed, rfl⟩, _, short, rfl⟩
    have noRest : rest = [] := by
      rw [List.length_append, fixed.length_eq] at short
      exact List.eq_nil_of_length_eq_zero (by omega)
    rw [noRest, List.append_nil]
    exact ⟨fixed, rfl⟩
  · rintro ⟨fixed, rfl⟩
    exact ⟨_, ⟨as, [], (List.append_nil as).symm, fixed, rfl⟩, (), fixed.length_eq.ge, rfl⟩

end Decoder

/-! ## Formats -/

namespace Shape

/-- What a field of strings holds: a string, or a list of strings where its shape says so. -/
def Holds : Shape → Json → Prop
  | string, a => ∃ s, a = .string s
  | list string, a => ∃ ss : List String, a = .array (ss.map .string)
  | _, _ => False

/-- The shape is that of a string or of a list of strings. -/
def IsText (shape : Shape) : Prop :=
  shape = string ∨ shape = list string

variable {shape : Shape} {dialect : Dialect} {a b : Json}

theorem decode_string_eq_ok_iff :
    string.decode dialect a = .ok b ↔ b = a ∧ ∃ s, a = .string s := by
  cases a <;> simp [decode, Decoder.refuse, eq_comm]

theorem decode_strings_eq_ok_iff :
    (list string).decode dialect a = .ok b ↔
      b = a ∧ ∃ ss : List String, a = .array (ss.map .string) := by
  constructor
  · intro ok
    cases a with
    | array as =>
        rw [decode] at ok
        simp only [Decoder.bind_eq_ok_iff, Decoder.pure_eq_ok_iff] at ok
        obtain ⟨bs, read, rfl⟩ := ok
        have exact : ∀ a b, string.decode dialect a = .ok b → b = a :=
          fun a b ok => (decode_string_eq_ok_iff.mp ok).1
        obtain rfl := Decoder.eq_of_elements exact read
        have strings : bs ∈ Set.range (List.map Json.string) := by
          rw [Set.range_list_map]
          intro a mem
          obtain ⟨a', accepted⟩ := Decoder.exists_of_mem_elements read mem
          obtain ⟨rfl, s, rfl⟩ := decode_string_eq_ok_iff.mp accepted
          exact ⟨s, rfl⟩
        obtain ⟨ss, rfl⟩ := strings
        exact ⟨rfl, ss, rfl⟩
    | _ => simp [decode, Decoder.refuse] at ok
  · rintro ⟨rfl, ss, rfl⟩
    exact Shape.fixes_strings ss

theorem IsText.decode_eq_ok_iff (text : shape.IsText) :
    shape.decode dialect a = .ok b ↔ b = a ∧ shape.Holds a := by
  rcases text with rfl | rfl
  · exact decode_string_eq_ok_iff
  · exact decode_strings_eq_ok_iff

end Shape

namespace EventFormat

/-- The fields that a format declares, in their order. -/
def fields (f : EventFormat) : List (String × Shape) :=
  match f.shape with
  | .record _ _ fields => fields.map fun field => (field.1, field.2.2)
  | _ => []

/-- The payload gives a value of its kind for each field of the format, and they make up the
dictionary: those that an object has under the names of the fields, or the elements of an array in
the order of the fields. -/
inductive Accepts (f : EventFormat) : Json → Dict Json → Prop
  | object (d : Dict Json)
      (all : ∀ field ∈ f.fields, ∃ a, d.get? field.1 = some a ∧ field.2.Holds a) :
      f.Accepts (.ofDict d) (d.filter fun key _ => key ∈ f.fields.map (·.1))
  | array (as : List Json) (all : List.Forall₂ (fun field a => field.2.Holds a) f.fields as) :
      f.Accepts (.array as) (.ofList ((f.fields.map (·.1)).zip as))

/-- Each field of the format has to be there and holds strings. -/
structure Textual (f : EventFormat) : Prop where
  shape : ∃ name, f.shape = .record name false
    (f.fields.map fun field => (field.1, .required, field.2))
  nodup : (f.fields.map (·.1)).Nodup
  text : ∀ field ∈ f.fields, field.2.IsText
  writable : ∀ body, f.obstacle body = none

variable {f : EventFormat} {p : Json} {d d' : Dict Json} {as : List Json} {e : Event}

theorem accepts_ofDict_iff :
    f.Accepts (.ofDict d) d' ↔
      (∀ field ∈ f.fields, ∃ a, d.get? field.1 = some a ∧ field.2.Holds a) ∧
        d' = d.filter fun key _ => key ∈ f.fields.map (·.1) := by
  constructor
  · intro accepts
    generalize isObject : Json.ofDict d = p at accepts
    cases accepts with
    | object d'' all =>
        obtain rfl := Dict.ext (Json.object.inj isObject)
        exact ⟨all, rfl⟩
    | array as all => contradiction
  · rintro ⟨all, rfl⟩
    exact .object d all

theorem accepts_array_iff :
    f.Accepts (.array as) d' ↔ List.Forall₂ (fun field a => field.2.Holds a) f.fields as ∧
      d' = .ofList ((f.fields.map (·.1)).zip as) := by
  constructor
  · intro accepts
    generalize isArray : Json.array as = p at accepts
    cases accepts with
    | object d'' all => contradiction
    | array as' all =>
        obtain rfl := Json.array.inj isArray
        exact ⟨all, rfl⟩
  · rintro ⟨all, rfl⟩
    exact .array as all

/-- Only objects and arrays are accepted. -/
theorem Accepts.isSome (accepts : f.Accepts p d) : p.object?.isSome ∨ p.array?.isSome := by
  cases accepts with
  | object d all => exact .inl rfl
  | array as all => exact .inr rfl

/-- The decoder of a field that has to be there. -/
def decoder (field : String × Shape) : FieldDecoder :=
  ⟨field.1, .required, field.2.decode .document⟩

theorem fieldDecoders_map (fields : List (String × Shape)) :
    Shape.fieldDecoders .document (fields.map fun field => (field.1, .required, field.2)) =
      fields.map decoder := by
  induction fields with
  | nil => rfl
  | cons field rest ih =>
      rw [List.map_cons, Shape.fieldDecoders, ih]
      rfl

theorem map_name_decoder (fields : List (String × Shape)) :
    (fields.map decoder).map (·.name) = fields.map (·.1) := by
  simp [decoder, Function.comp_def]

theorem Textual.plain (textual : f.Textual) : ∀ g ∈ f.fields.map decoder, Decoder.Plain g := by
  rw [List.forall_mem_map]
  intro field mem
  exact ⟨rfl, fun a b ok => ((textual.text field mem).decode_eq_ok_iff.mp ok).1⟩

theorem Textual.fixes_iff (textual : f.Textual) {field : String × Shape} (mem : field ∈ f.fields)
    (a : Json) : (decoder field).decode.Fixes a ↔ field.2.Holds a := by
  show field.2.decode .document a = .ok a ↔ _
  rw [(textual.text field mem).decode_eq_ok_iff, and_iff_right rfl]

theorem Textual.recordOfObject_eq_ok_iff (textual : f.Textual) {b : Json} :
    Decoder.recordOfObject (f.fields.map decoder) false d.entries = .ok b ↔
      ∃ d', f.Accepts (.ofDict d) d' ∧ b = .ofDict d' := by
  rw [Decoder.recordOfObject_eq_ok_iff (map_name_decoder f.fields ▸ textual.nodup) textual.plain,
    Decoder.declared, map_name_decoder, List.forall_mem_map]
  have holds : (∀ field ∈ f.fields, ∃ a, d.get? field.1 = some a ∧ (decoder field).decode.Fixes a) ↔
      ∀ field ∈ f.fields, ∃ a, d.get? field.1 = some a ∧ field.2.Holds a :=
    forall₂_congr fun field mem => by simp only [textual.fixes_iff mem]
  simp only [accepts_ofDict_iff]
  rw [← holds]
  constructor
  · rintro ⟨all, rfl⟩
    exact ⟨_, ⟨all, rfl⟩, rfl⟩
  · rintro ⟨_, ⟨all, rfl⟩, rfl⟩
    exact ⟨all, rfl⟩

theorem Textual.record_array_eq_ok_iff (textual : f.Textual) {name : String} {b : Json} :
    Decoder.record .document name false (f.fields.map decoder) (.array as) = .ok b ↔
      ∃ d, f.Accepts (.array as) d ∧ b = .ofDict d := by
  rw [Decoder.record_array_eq_ok_iff textual.plain, map_name_decoder, List.forall₂_map_left_iff]
  have holds : List.Forall₂ (fun field a => (decoder field).decode.Fixes a) f.fields as ↔
      List.Forall₂ (fun field a => field.2.Holds a) f.fields as := by
    rw [List.forall₂_iff_zip, List.forall₂_iff_zip]
    apply and_congr_right
    intro _
    exact forall₂_congr fun field a => forall_congr' fun mem =>
      textual.fixes_iff (List.of_mem_zip mem).1 a
  simp only [accepts_array_iff, holds]
  constructor
  · rintro ⟨all, rfl⟩
    exact ⟨_, ⟨all, rfl⟩, rfl⟩
  · rintro ⟨_, ⟨all, rfl⟩, rfl⟩
    exact ⟨all, rfl⟩

theorem Textual.event_eq (textual : f.Textual) (body : Json) :
    f.event body = ⟨f.type, .ok body⟩ := by
  simp [EventFormat.event, textual.writable]

theorem Textual.ofDocument_eq (textual : f.Textual) : ∃ name,
    f.shape.ofDocument = Decoder.record .document name false (f.fields.map decoder) := by
  obtain ⟨name, shapeEq⟩ := textual.shape
  refine ⟨name, ?_⟩
  rw [← fieldDecoders_map, ← Shape.decode, ← shapeEq]
  rfl

/-- A textual format reads the payloads that it accepts, and no others. -/
theorem Textual.read_eq_ok_iff (textual : f.Textual) (proper : p.Proper) :
    f.read p = .ok e ↔ ∃ d, f.Accepts p d ∧ e = ⟨f.type, .ok (.ofDict d)⟩ := by
  have body : ∀ b, f.shape.ofDocument p = .ok b ↔ ∃ d, f.Accepts p d ∧ b = .ofDict d := by
    intro b
    obtain ⟨name, documentEq⟩ := textual.ofDocument_eq
    rw [documentEq]
    cases p with
    | object entries =>
        obtain ⟨d, objectEq⟩ := proper.exists_ofDict
        rw [objectEq]
        exact textual.recordOfObject_eq_ok_iff
    | array as => exact textual.record_array_eq_ok_iff
    | _ =>
        refine ⟨fun ok => by simp [Decoder.record] at ok, ?_⟩
        rintro ⟨d, accepts, _⟩
        have container := accepts.isSome
        simp [Json.object?, Json.array?] at container
  rw [EventFormat.read_eq_ok_iff]
  simp only [body, textual.event_eq]
  constructor
  · rintro ⟨_, ⟨d, accepts, rfl⟩, rfl⟩
    exact ⟨d, accepts, rfl⟩
  · rintro ⟨d, accepts, rfl⟩
    exact ⟨_, ⟨d, accepts, rfl⟩, rfl⟩

/-- What is accepted has the declared keys and no others. -/
theorem Textual.mem_keys_iff (textual : f.Textual) (accepts : f.Accepts p d) (key : String) :
    key ∈ d.keys ↔ key ∈ f.fields.map (·.1) := by
  rw [Dict.mem_keys_iff]
  cases accepts with
  | object d all =>
      rw [Dict.get?_filter]
      constructor
      · intro there
        obtain ⟨a, found⟩ := Option.isSome_iff_exists.mp there
        exact of_decide_eq_true (Option.filter_eq_some_iff.mp found).2
      · intro named
        obtain ⟨field, mem, rfl⟩ := List.mem_map.mp named
        obtain ⟨a, found, _⟩ := all field mem
        rw [found, Option.filter_some, if_pos (decide_eq_true named)]
        rfl
  | array as all =>
      have names : ((f.fields.map (·.1)).zip as).map (·.1) = f.fields.map (·.1) := by
        rw [List.map_fst_zip]
        simp [all.length_eq]
      rw [Dict.get?_ofList (by rw [names]; exact textual.nodup), isSome_lookup_iff, names]

/-- Objects with the same values for the declared fields are read alike. -/
theorem Textual.read_congr (textual : f.Textual) {d d' : Dict Json}
    (same : ∀ field ∈ f.fields, d.get? field.1 = d'.get? field.1) :
    f.read (.ofDict d) = f.read (.ofDict d') := by
  obtain ⟨name, documentEq⟩ := textual.ofDocument_eq
  rw [EventFormat.read, EventFormat.read, documentEq]
  apply congrArg (Except.map f.event)
  exact Decoder.recordOfObject_congr (List.forall_mem_map.mpr same)

end EventFormat

/-! ## The catalogue -/

namespace Catalogue

/-- A type with different fields that hold strings or lists of strings has a textual format. -/
theorem textual_format (name : String) {fields : List (String × Presence × Shape)}
    (nodup : (fields.map (·.1)).Nodup)
    (text : ∀ field ∈ fields, ∃ key, field = textField key ∨ field = textsField key) :
    (format name fields).Textual where
  shape := by
    refine ⟨name, congrArg (Shape.record name false) ?_⟩
    rw [EventFormat.fields, format, List.map_map]
    apply (List.map_id fields).symm.trans
    apply List.map_congr_left
    intro field mem
    obtain ⟨key, rfl | rfl⟩ := text field mem <;> rfl
  nodup := by simpa [EventFormat.fields, format, Function.comp_def] using nodup
  text := by
    rw [EventFormat.fields, format, List.forall_mem_map]
    intro field mem
    obtain ⟨key, rfl | rfl⟩ := text field mem
    · exact .inl rfl
    · exact .inr rfl
  writable _ := rfl

theorem textual_of_mem_formats : ∀ f ∈ formats, f.Textual := by
  simp only [formats, List.forall_mem_cons]
  refine ⟨?_, ?_, ?_, ?_, ?_, ?_, ?_, ?_, ?_, ?_, ?_, ?_, ?_, by simp⟩
  all_goals
    apply textual_format
    · decide
    · simp [textField, textsField]

/-- The codec of the catalogue reads a payload under the name of a type if it is an object or an
array with values for the fields of the type, and the event has them and no others.  Objects that
differ under other keys only are read, or refused, in the same way. -/
theorem codec_decode_iff {f : EventFormat} (mem : f ∈ formats) :
    (∀ p : Json, p.Proper → ∀ e, codec.decode ⟨f.type.name, p⟩ = .ok e ↔
      ∃ d, f.Accepts p d ∧ e = ⟨f.type, .ok (.ofDict d)⟩) ∧
    (∀ p d, f.Accepts p d → ∀ key, key ∈ d.keys ↔ key ∈ f.fields.map (·.1)) ∧
    ∀ d d' : Dict Json, (∀ field ∈ f.fields, d.get? field.1 = d'.get? field.1) →
      codec.decode ⟨f.type.name, .ofDict d⟩ = codec.decode ⟨f.type.name, .ofDict d'⟩ := by
  have textual := textual_of_mem_formats f mem
  have last := Codec.lastNamed_of_nodup nodup_names mem
  refine ⟨?_, fun p d accepts => textual.mem_keys_iff accepts, ?_⟩
  · intro p proper e
    rw [codec, Codec.decode_ofList last, ← textual.read_eq_ok_iff proper]
    cases f.read p <;> simp [Except.mapError]
  · intro d d' same
    rw [codec, Codec.decode_ofList last, Codec.decode_ofList last, textual.read_congr same]

/-- The payload of an updated note, with a value under a key that its type does not declare. -/
def seenNote (seen : Json) : Dict Json where
  entries := [("id", .string "n"), ("seen", seen), ("updated_fields", .array [.string "title"]),
    ("user_id", .string "u")]
  increasing := by
    simp only [Increasing, List.pairwise_cons, List.forall_mem_cons]
    decide

theorem accepts_seenNote (seen : Json) : ∃ d, noteUpdated.Accepts (.ofDict (seenNote seen)) d ∧
    (Fact.noteUpdated "n" ["title"] "u").toEvent = ⟨noteUpdated.type, .ok (.ofDict d)⟩ := by
  refine ⟨_, .object (seenNote seen) ?_, rfl⟩
  simp only [EventFormat.fields, noteUpdated, format, textField, textsField, List.map_cons,
    List.map_nil, List.forall_mem_cons]
  exact ⟨⟨_, rfl, "n", rfl⟩, ⟨_, rfl, ["title"], rfl⟩, ⟨_, rfl, "u", rfl⟩, by simp⟩

/-- An updated note is read whatever is under a further key, but not from an array with a further
element. -/
theorem codec_decode_iff_seenNote :
    noteUpdated ∈ formats ∧
      (∀ seen, (Json.ofDict (seenNote seen)).Proper ∧
        codec.decode ⟨"NoteUpdated", .ofDict (seenNote seen)⟩ =
          .ok (Fact.noteUpdated "n" ["title"] "u").toEvent) ∧
      ∀ e, codec.decode ⟨"NoteUpdated", .array [.string "n", .array [], .string "u", .null]⟩ ≠
        .ok e := by
  have mem : noteUpdated ∈ formats := by simp [formats]
  obtain ⟨decode_iff, _, _⟩ := codec_decode_iff mem
  refine ⟨mem, fun seen => ⟨Json.proper_ofDict _, ?_⟩, ?_⟩
  · exact (decode_iff _ (Json.proper_ofDict _) _).mpr (accepts_seenNote seen)
  · intro e decoded
    obtain ⟨d, accepts, _⟩ := (decode_iff _ (by rintro fields ⟨⟩) e).mp decoded
    have lengths := (EventFormat.accepts_array_iff.mp accepts).1.length_eq
    contradiction

end Catalogue

end Courier
