import Courier.Proofs.Codec.Normal
import Courier.Proofs.Worker.FollowUp

/-!
# Events that come back from the queue

An event that is published waits in the queue as an envelope; a codec reads it again by the name
alone.  Of formats that were registered under one name the last one reads it, so what comes back
has the type of that one, and an event of the catalogue comes back as it was.

The formats are taken to restore what they have read and written.  Those of the catalogue do:
their shapes are regular.
-/

namespace Courier

open Courier.Action

/-! ## Formats -/

namespace EventFormat

/-- What the format has read it can write, and then reads it again as it was. -/
structure Restores (f : EventFormat) : Prop where
  writes : ∀ payload e, f.read payload = .ok e → ∃ written, e.payload = .ok written
  reads : ∀ payload e written,
    f.read payload = .ok e → e.payload = .ok written → f.read written = .ok e

theorem read_eq_ok_iff {f : EventFormat} {payload : Json} {e : Event} :
    f.read payload = .ok e ↔ ∃ body, f.shape.ofDocument payload = .ok body ∧ e = f.event body := by
  unfold read
  cases f.shape.ofDocument payload <;> simp [Except.map, eq_comm]

theorem type_of_read {f : EventFormat} {payload : Json} {e : Event}
    (read : f.read payload = .ok e) : e.type = f.type := by
  obtain ⟨body, _, rfl⟩ := read_eq_ok_iff.mp read
  rfl

/-- A format with a regular shape restores its events if each of them can be written. -/
theorem restores_of_regular {f : EventFormat} (regular : f.shape.Regular .document)
    (writable : ∀ body, f.obstacle body = none) : f.Restores := by
  have payloadEq : ∀ body, (f.event body).payload = .ok body := by
    intro body
    simp [event, writable]
  constructor
  · intro payload e read
    obtain ⟨body, _, rfl⟩ := read_eq_ok_iff.mp read
    exact ⟨body, payloadEq body⟩
  · intro payload e written read serialized
    obtain ⟨body, normal, rfl⟩ := read_eq_ok_iff.mp read
    obtain rfl : body = written := Except.ok.inj ((payloadEq body).symm.trans serialized)
    exact read_eq_ok_iff.mpr ⟨body, Shape.decode_stable f.shape regular _ _ normal, rfl⟩

end EventFormat

/-! ## Codecs -/

namespace Codec

variable {formats : List EventFormat} {name : String} {f : EventFormat}

/-- Of the formats registered under the name, the last one. -/
def LastNamed (formats : List EventFormat) (name : String) (f : EventFormat) : Prop :=
  ∃ before behind, formats = before ++ f :: behind ∧ f.type.name = name ∧
    ∀ other ∈ behind, other.type.name ≠ name

theorem LastNamed.mem (last : LastNamed formats name f) : f ∈ formats := by
  obtain ⟨before, behind, rfl, _, _⟩ := last
  simp

theorem get?_ofList_concat (formats : List EventFormat) (f : EventFormat) (name : String) :
    (ofList (formats ++ [f])).formats.get? name =
      if name = f.type.name then some f else (ofList formats).formats.get? name := by
  rw [ofList, List.foldl_append]
  exact Dict.get?_insert _ _ _ _

theorem get?_ofList_eq_none_iff :
    (ofList formats).formats.get? name = none ↔ ∀ f ∈ formats, f.type.name ≠ name := by
  induction formats using List.reverseRecOn with
  | nil => simp [ofList]
  | append_singleton formats last ih =>
      rw [get?_ofList_concat, List.forall_mem_append, ← ih]
      split <;> simp_all [eq_comm]

/-- The format that reads what has the name is the last one registered under it. -/
theorem get?_ofList_eq_some_iff :
    (ofList formats).formats.get? name = some f ↔ LastNamed formats name f := by
  induction formats using List.reverseRecOn with
  | nil => simp [ofList, LastNamed]
  | append_singleton formats last ih =>
      rw [get?_ofList_concat]
      constructor
      · intro found
        split at found
        · rename_i named
          obtain rfl := Option.some.inj found
          exact ⟨formats, [], rfl, named.symm, by simp⟩
        · rename_i other
          obtain ⟨before, behind, rfl, named, others⟩ := ih.mp found
          refine ⟨before, behind ++ [last], by simp, named, ?_⟩
          rw [List.forall_mem_append, List.forall_mem_singleton]
          exact ⟨others, Ne.symm other⟩
      · rintro ⟨before, behind, formatsEq, named, others⟩
        rcases List.eq_nil_or_concat behind with rfl | ⟨front, final, rfl⟩
        · obtain ⟨rfl, lastEq⟩ := List.append_inj' formatsEq rfl
          obtain rfl := List.singleton_inj.mp lastEq
          exact if_pos named.symm
        · rw [List.concat_eq_append, ← List.cons_append, ← List.append_assoc] at formatsEq
          obtain ⟨rfl, lastEq⟩ := List.append_inj' formatsEq rfl
          obtain rfl := List.singleton_inj.mp lastEq
          simp only [List.concat_eq_append, List.forall_mem_append, List.forall_mem_singleton]
            at others
          rw [if_neg (Ne.symm others.2)]
          exact ih.mpr ⟨before, front, rfl, named, others.1⟩

theorem LastNamed.unique {other : EventFormat} (last : LastNamed formats name f)
    (otherLast : LastNamed formats name other) : f = other := by
  rw [← get?_ofList_eq_some_iff] at last otherLast
  exact Option.some.inj (last.symm.trans otherLast)

theorem exists_lastNamed (known : ∃ f ∈ formats, f.type.name = name) :
    ∃ f, LastNamed formats name f := by
  obtain ⟨f, mem, named⟩ := known
  cases found : (ofList formats).formats.get? name with
  | none => exact absurd named (get?_ofList_eq_none_iff.mp found f mem)
  | some last => exact ⟨last, get?_ofList_eq_some_iff.mp found⟩

theorem lastNamed_of_nodup (nodup : (formats.map (·.type.name)).Nodup) (mem : f ∈ formats) :
    LastNamed formats f.type.name f := by
  obtain ⟨before, behind, rfl⟩ := List.append_of_mem mem
  refine ⟨before, behind, rfl, rfl, ?_⟩
  intro other memBehind same
  rw [List.map_append, List.map_cons] at nodup
  exact (List.nodup_cons.mp nodup.of_append_right).1 (same ▸ List.mem_map_of_mem memBehind)

theorem decode_ofList (last : LastNamed formats name f) (payload : Json) :
    (ofList formats).decode ⟨name, payload⟩ =
      (f.read payload).mapError fun refusal => .deserialize name refusal.cause.message := by
  have known := get?_ofList_eq_some_iff.mpr last
  simp only [decode, known]
  cases f.read payload <;> rfl

/-- A name is unknown if no format was registered under it. -/
theorem decode_ofList_eq_unknown_iff (v : Envelope) :
    (ofList formats).decode v = .error (.unknownEvent name) ↔
      name = v.eventName ∧ ∀ f ∈ formats, f.type.name ≠ v.eventName := by
  rw [← get?_ofList_eq_none_iff, decode]
  cases (ofList formats).formats.get? v.eventName with
  | none => simp [eq_comm]
  | some f => cases read : f.read v.payload <;> simp [read]

theorem decode_ofList_eq_ok_iff {v : Envelope} {e : Event} :
    (ofList formats).decode v = .ok e ↔
      ∃ f, LastNamed formats v.eventName f ∧ f.read v.payload = .ok e := by
  simp only [← get?_ofList_eq_some_iff, decode]
  cases (ofList formats).formats.get? v.eventName with
  | none => simp
  | some f => cases read : f.read v.payload <;> simp [read]

end Codec

/-! ## The catalogue -/

namespace Fact

open Decoder

/-- The fields of a fact in the order in which its type declares them. -/
def fields : Fact → List (String × Json)
  | test message => [("message", .string message)]
  | userCreated id | authSessionClosed id => [("id", .string id)]
  | folderCreated id userId | folderRemoved id userId | noteCreated id userId
  | noteRemoved id userId => [("id", .string id), ("user_id", .string userId)]
  | folderUpdated id updated userId | noteUpdated id updated userId =>
      [("id", .string id), ("updated_fields", .array (updated.map .string)),
        ("user_id", .string userId)]
  | noteRelationCreated id child userId | noteRelationRemoved id child userId =>
      [("id", .string id), ("child_note_id", .string child), ("user_id", .string userId)]
  | passwordChangeRequestCreated userId tokenId token email =>
      [("user_id", .string userId), ("token_id", .string tokenId), ("token", .string token),
        ("email", .string email)]
  | userPasswordChanged id email => [("id", .string id), ("email", .string email)]

theorem body_eq_ofFields (fact : Fact) : fact.body = .ofFields fact.fields := by
  cases fact <;>
    simp (disch := decide) only [body, fields, Json.ofFields, List.foldl_cons, List.foldl_nil,
      insertEntry, if_pos, if_neg]

/-- The fields are those that the type declares. -/
theorem fits (fact : Fact) :
    ∃ name declared, fact.format.shape = .record name false declared ∧
      (declared.map (·.1)).Nodup ∧ Fits (Shape.fieldDecoders .document declared) fact.fields := by
  cases fact <;> refine ⟨_, _, rfl, by decide, ?_⟩ <;>
    simp [Fits, Shape.fieldDecoders, fields, Shape.fixes_string, Shape.fixes_strings,
      Catalogue.textField, Catalogue.textsField]

theorem ofDocument_body (fact : Fact) : fact.format.shape.ofDocument fact.body = .ok fact.body := by
  obtain ⟨name, declared, shapeEq, nodup, fits⟩ := fact.fits
  rw [body_eq_ofFields, shapeEq]
  exact Shape.fixes_ofFields nodup fits name false

theorem toEvent_eq (fact : Fact) : fact.toEvent = ⟨fact.format.type, .ok fact.body⟩ := by
  cases fact <;> rfl

/-- The name of a fact tells of which kind it is. -/
theorem ctorIdx_eq (fact : Fact) :
    fact.ctorIdx = Catalogue.formats.findIdx fun f => f.type.name == fact.format.type.name := by
  cases fact <;> rfl

/-- An event of the catalogue tells the values of all its fields. -/
theorem toEvent_injective : Function.Injective toEvent := by
  intro fact other same
  rw [toEvent_eq, toEvent_eq, Event.mk.injEq] at same
  have sameBody : fact.body = other.body := Except.ok.inj same.2
  have sameKind : fact.ctorIdx = other.ctorIdx := by rw [ctorIdx_eq, ctorIdx_eq, same.1]
  have strings : Function.Injective Json.string := fun _ _ => Json.string.inj
  cases fact <;> cases other <;> cases sameKind <;> simp_all [body, strings.list_map.eq_iff]

end Fact

namespace Catalogue

theorem nodup_names : (formats.map (·.type.name)).Nodup := by
  decide

theorem format_mem_formats (fact : Fact) : fact.format ∈ formats := by
  cases fact <;> simp [Fact.format, formats]

/-- The envelope of a fact is read as the fact. -/
theorem codec_decode (fact : Fact) :
    codec.decode ⟨fact.format.type.name, fact.body⟩ = .ok fact.toEvent := by
  have last := Codec.lastNamed_of_nodup nodup_names (format_mem_formats fact)
  have read : fact.format.read fact.body = .ok fact.toEvent :=
    EventFormat.read_eq_ok_iff.mpr ⟨_, fact.ofDocument_body, rfl⟩
  rw [codec, Codec.decode_ofList last, read]
  rfl

theorem restores_of_mem_formats : ∀ f ∈ formats, f.Restores := by
  have regular : ∀ f ∈ formats,
      f.shape.Regular .document ∧ ∀ body, f.obstacle body = none := by
    simp [formats, format, test, userCreated, folderCreated, folderUpdated, folderRemoved,
      noteCreated, noteUpdated, noteRemoved, noteRelationCreated, noteRelationRemoved,
      passwordChangeRequestCreated, userPasswordChanged, authSessionClosed, textField, textsField,
      Shape.Regular, Shape.FieldsRegular, Decoder.StandsIn]
  intro f mem
  exact EventFormat.restores_of_regular (regular f mem).1 (regular f mem).2

end Catalogue

/-! ## Back from the queue -/

/-- A fact that is published comes out of the queue behind all that waits there, in an envelope that
is read as this fact and no other. -/
def Fact.ComesBack (fact : Fact) (q : EventQueue) : Prop :=
  ∃ v, (EventQueue.publishEvent fact.toEvent).Returns q (.ok ()) (q.joined [v]) ∧
    EventQueue.takeAll.Returns (q.joined [v]) (q.pending ++ [v])
      { q.joined [v] with pending := [] } ∧
    ∀ other : Fact, Catalogue.codec.decode v = .ok other.toEvent ↔ other = fact

/-- How the codec of formats that were registered one after the other reads an envelope. -/
structure Codec.Resolves (formats : List EventFormat) (v : Envelope) : Prop where
  /-- Unknown is a name under which no format was registered. -/
  unknown : ∀ name, (ofList formats).decode v = .error (.unknownEvent name) ↔
    name = v.eventName ∧ ∀ f ∈ formats, f.type.name ≠ v.eventName
  /-- Any other is read by the last format of its name. -/
  known : (∃ f ∈ formats, f.type.name = v.eventName) → ∃ f, LastNamed formats v.eventName f ∧
    (ofList formats).decode v =
      (f.read v.payload).mapError (fun refusal =>
        .deserialize v.eventName refusal.cause.message) ∧
    ∀ e, (ofList formats).decode v = .ok e → e.type = f.type
  /-- What was read has the name of the envelope. -/
  named : ∀ e, (ofList formats).decode v = .ok e → e.name = v.eventName

/-- What was read can be written again, and is read from that as it was. -/
def Codec.Repeats (formats : List EventFormat) (v : Envelope) : Prop :=
  ∀ e, (ofList formats).decode v = .ok e →
    ∃ own, Envelope.ofEvent e = .ok own ∧ own.eventName = v.eventName ∧
      (ofList formats).decode own = .ok e

theorem Fact.comesBack (fact : Fact) {q : EventQueue} (unlimited : q.limit = none) :
    fact.ComesBack q := by
  have serialized : Envelope.ofEvent fact.toEvent = .ok ⟨fact.format.type.name, fact.body⟩ := by
    rw [Fact.toEvent_eq]
    rfl
  refine ⟨⟨fact.format.type.name, fact.body⟩, ?_, ⟨rfl, rfl⟩, ?_⟩
  · exact (EventQueue.publishEvent_returns_iff unlimited _ _ _).mpr (.inl ⟨_, serialized, rfl, rfl⟩)
  · intro other
    rw [Catalogue.codec_decode, Except.ok.injEq, Fact.toEvent_injective.eq_iff, eq_comm]

namespace Codec

variable {formats : List EventFormat}

theorem LastNamed.name_of_read {v : Envelope} {f : EventFormat} {e : Event}
    (last : LastNamed formats v.eventName f) (read : f.read v.payload = .ok e) :
    e.name = v.eventName := by
  obtain ⟨_, _, _, named, _⟩ := last
  rw [Event.name, EventFormat.type_of_read read, named]

theorem resolves (formats : List EventFormat) (v : Envelope) : Resolves formats v where
  unknown _ := decode_ofList_eq_unknown_iff v
  known known := by
    obtain ⟨f, last⟩ := exists_lastNamed known
    refine ⟨f, last, decode_ofList last v.payload, ?_⟩
    intro e decoded
    obtain ⟨other, otherLast, read⟩ := decode_ofList_eq_ok_iff.mp decoded
    obtain rfl : other = f := otherLast.unique last
    exact EventFormat.type_of_read read
  named e decoded := by
    obtain ⟨f, last, read⟩ := decode_ofList_eq_ok_iff.mp decoded
    exact last.name_of_read read

theorem repeats (restores : ∀ f ∈ formats, f.Restores) (v : Envelope) : Repeats formats v := by
  intro e decoded
  obtain ⟨f, last, read⟩ := decode_ofList_eq_ok_iff.mp decoded
  have nameEq := last.name_of_read read
  have sound := restores f last.mem
  obtain ⟨written, serialized⟩ := sound.writes _ e read
  refine ⟨⟨e.name, written⟩, ?_, nameEq, ?_⟩
  · rw [Envelope.ofEvent, serialized]
  · rw [nameEq]
    exact decode_ofList_eq_ok_iff.mpr ⟨f, last, sound.reads _ e written read serialized⟩

/-- An event of the catalogue comes back from the queue as it was.  The codec of any formats tells
by the name alone which of them reads an envelope: the one that was registered last under that
name.  Where the formats restore what they have written, what was read can be written and read any
number of times. -/
theorem resolves_repeats (formats : List EventFormat) (pending : List Envelope) (count : Nat) :
    (∀ fact : Fact, fact.ComesBack { pending, published := count }) ∧
      (∀ v, Resolves formats v) ∧
      ((∀ f ∈ formats, f.Restores) → ∀ v, Repeats formats v) :=
  ⟨fun fact => fact.comesBack rfl, resolves formats, repeats⟩

/-- An event that has the name of one of the catalogue, and may tell that what was removed is
kept. -/
def archived : EventFormat where
  type := ⟨"archive::FolderRemoved", "FolderRemoved"⟩
  shape := .record "FolderRemoved" false
    [("id", .required, .string), ("kept", .defaulted (.bool false), .bool)]

theorem archived_restores : archived.Restores := by
  apply EventFormat.restores_of_regular
  · simp [archived, Shape.Regular, Shape.FieldsRegular, Decoder.StandsIn, Decoder.Fixes,
      Shape.decode]
  · exact fun _ => rfl

theorem archived_read :
    archived.read (Fact.folderRemoved "f" "u").body =
      .ok ⟨archived.type, .ok (.ofFields [("id", .string "f"), ("kept", .bool false)])⟩ := by
  simp only [EventFormat.read, archived, Shape.ofDocument, Shape.decode, Shape.fieldDecoders]
  rfl

/-- Of two types of one name the later reads what was written for the earlier. -/
theorem resolves_repeats_namesakes :
    (∀ f ∈ [Catalogue.folderRemoved, archived], f.Restores) ∧
      (Fact.folderRemoved "f" "u").ComesBack { pending := [⟨"TestEvent", .null⟩], published := 1 } ∧
      ∃ e own, e.type = archived.type ∧
        (ofList [Catalogue.folderRemoved, archived]).decode
          ⟨"FolderRemoved", (Fact.folderRemoved "f" "u").body⟩ = .ok e ∧
        Envelope.ofEvent e = .ok own ∧ own.eventName = "FolderRemoved" ∧
        (ofList [Catalogue.folderRemoved, archived]).decode own = .ok e := by
  obtain ⟨comesBack, _, repeats⟩ :=
    resolves_repeats [Catalogue.folderRemoved, archived] [⟨"TestEvent", .null⟩] 1
  have restores : ∀ f ∈ [Catalogue.folderRemoved, archived], f.Restores := by
    rw [List.forall_mem_cons, List.forall_mem_singleton]
    exact ⟨Catalogue.restores_of_mem_formats _ (by simp [Catalogue.formats]), archived_restores⟩
  have last : LastNamed [Catalogue.folderRemoved, archived] "FolderRemoved" archived :=
    ⟨[Catalogue.folderRemoved], [], rfl, rfl, by simp⟩
  have decoded := (decode_ofList_eq_ok_iff
    (v := ⟨"FolderRemoved", (Fact.folderRemoved "f" "u").body⟩)).mpr ⟨archived, last, archived_read⟩
  obtain ⟨own, written, named, again⟩ := repeats restores _ _ decoded
  exact ⟨restores, comesBack _, _, own, rfl, decoded, written, named, again⟩

end Codec

end Courier
