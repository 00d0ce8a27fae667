import Courier.Proofs.Settings.Decoding

/-!
# What is written is read back

A shape is regular if the fields of its records have different names, if what stands in for a
missing field could itself be read there, and if a case that holds a record is one.  What a regular
shape gives for some value it gives for that again: `Shape.decode_stable`.  So a value that was read
once may be written and read any number of times.
-/

namespace Courier

variable {dialect : Dialect}

namespace Decoder

variable {decode : Decoder}

@[simp]
theorem bind_eq_ok_iff {α β : Type} (x : Except Refusal α) (f : α → Except Refusal β) (b : β) :
    x >>= f = .ok b ↔ ∃ a, x = .ok a ∧ f a = .ok b := by
  cases x <;> simp [bind, Except.bind]

@[simp]
theorem pure_eq_ok_iff {α : Type} (a b : α) : (pure a : Except Refusal α) = .ok b ↔ a = b := by
  simp [pure, Except.pure]

@[simp]
theorem refuse_ne_ok {α : Type} (cause : Cause) (a : α) : refuse cause ≠ .ok a := by
  simp [refuse]

/-- The decoder takes the value and leaves it as it is. -/
def Fixes (decode : Decoder) (a : Json) : Prop :=
  decode a = .ok a

/-- What the decoder gives it takes again, and leaves it as it is. -/
def Stable (decode : Decoder) : Prop :=
  ∀ a b, decode a = .ok b → decode.Fixes b

/-! ## Lists and dictionaries -/

theorem fixes_of_elements (stable : decode.Stable) {as bs : List Json} {start : Nat}
    (ok : elements decode start as = .ok bs) : ∀ b ∈ bs, decode.Fixes b := by
  induction as generalizing start bs with
  | nil =>
      cases ok
      simp
  | cons a rest ih =>
      simp only [elements, bind_eq_ok_iff, pure_eq_ok_iff, under_eq_ok_iff] at ok
      obtain ⟨b, here, others, read, rfl⟩ := ok
      exact List.forall_mem_cons.mpr ⟨stable a b here, ih read⟩

theorem elements_of_fixes {bs : List Json} (fixed : ∀ b ∈ bs, decode.Fixes b) (start : Nat) :
    elements decode start bs = .ok bs := by
  induction bs generalizing start with
  | nil => rfl
  | cons b rest ih =>
      rw [List.forall_mem_cons] at fixed
      simp only [elements, bind_eq_ok_iff, pure_eq_ok_iff, under_eq_ok_iff]
      exact ⟨b, fixed.1, rest, ih fixed.2 _, rfl⟩

theorem fixes_of_values (stable : decode.Stable) {entries read : List (String × Json)}
    (ok : values decode entries = .ok read) : ∀ entry ∈ read, decode.Fixes entry.2 := by
  induction entries generalizing read with
  | nil =>
      cases ok
      simp
  | cons entry rest ih =>
      simp only [values, bind_eq_ok_iff, pure_eq_ok_iff, under_eq_ok_iff] at ok
      obtain ⟨b, here, others, readRest, rfl⟩ := ok
      exact List.forall_mem_cons.mpr ⟨stable _ b here, ih readRest⟩

theorem values_of_fixes {entries : List (String × Json)}
    (fixed : ∀ entry ∈ entries, decode.Fixes entry.2) : values decode entries = .ok entries := by
  induction entries with
  | nil => rfl
  | cons entry rest ih =>
      rw [List.forall_mem_cons] at fixed
      simp only [values, bind_eq_ok_iff, pure_eq_ok_iff, under_eq_ok_iff]
      exact ⟨entry.2, fixed.1, rest, ih fixed.2, rfl⟩

/-! ## Records and tuples -/

/-- What stands in for a field that is not there could be read in its place. -/
def StandsIn (decode : Decoder) : Presence → Prop
  | .required => True
  | .nullable => decode.Fixes .null
  | .defaulted a => decode.Fixes a

/-- The values are values of the fields, one for each, and are left as they are. -/
def Fits (fields : List FieldDecoder) (named : List (String × Json)) : Prop :=
  List.Forall₂ (fun f entry => entry.1 = f.name ∧ f.decode.Fixes entry.2) fields named

variable {fields : List FieldDecoder} {given named : List (String × Json)}

theorem Fits.map_fst_eq (fits : Fits fields named) :
    named.map (·.1) = fields.map (·.name) := by
  induction fits with
  | nil => rfl
  | cons here _ ih => rw [List.map_cons, List.map_cons, here.1, ih]

theorem find?_of_mem (nodup : (fields.map (·.name)).Nodup) {f : FieldDecoder} (mem : f ∈ fields) :
    fields.find? (fun other => other.name == f.name) = some f := by
  induction fields with
  | nil => contradiction
  | cons first rest ih =>
      rw [List.map_cons, List.nodup_cons] at nodup
      rcases List.mem_cons.mp mem with rfl | mem
      · simp
      · have other : first.name ≠ f.name := by
          intro same
          exact nodup.1 (same ▸ List.mem_map_of_mem mem)
        rw [List.find?_cons_of_neg (by simpa using other), ih nodup.2 mem]

theorem lookup_of_mem {entries : List (String × Json)} (nodup : (entries.map (·.1)).Nodup)
    {entry : String × Json} (mem : entry ∈ entries) : entries.lookup entry.1 = some entry.2 := by
  induction entries with
  | nil => contradiction
  | cons first rest ih =>
      rw [List.map_cons, List.nodup_cons] at nodup
      rw [lookup_cons_eq_ite]
      rcases List.mem_cons.mp mem with rfl | mem
      · exact if_pos rfl
      · have other : entry.1 ≠ first.1 := by
          intro same
          exact nodup.1 (same ▸ List.mem_map_of_mem mem)
        rw [if_neg other, ih nodup.2 mem]

theorem mem_of_lookup {entries : List (String × Json)} {key : String} {a : Json}
    (found : entries.lookup key = some a) : (key, a) ∈ entries := by
  obtain ⟨before, behind, rfl, _⟩ := List.lookup_eq_some_iff.mp found
  exact List.mem_append_right _ List.mem_cons_self

/-- A given field is one of the declared ones, and its value is left as it is. -/
theorem fixes_of_givenFields (stable : ∀ f ∈ fields, f.decode.Stable) {strict : Bool}
    {entries : List (String × Json)} (ok : givenFields fields strict entries = .ok given) :
    ∀ entry ∈ given, ∃ f, fields.find? (fun f => f.name == entry.1) = some f ∧
      f.decode.Fixes entry.2 := by
  induction entries generalizing given with
  | nil =>
      cases ok
      simp
  | cons entry rest ih =>
      rw [givenFields] at ok
      cases found : fields.find? fun f => f.name == entry.1 with
      | some f =>
          simp only [found, bind_eq_ok_iff, pure_eq_ok_iff, under_eq_ok_iff] at ok
          obtain ⟨b, here, others, read, rfl⟩ := ok
          rw [List.forall_mem_cons]
          exact ⟨⟨f, found, stable f (List.mem_of_find?_eq_some found) _ b here⟩, ih read⟩
      | none =>
          cases strict with
          | true => simp [found] at ok
          | false =>
              simp only [found] at ok
              exact ih ok

theorem givenFields_of_fixes {entries : List (String × Json)} (strict : Bool)
    (fixed : ∀ entry ∈ entries, ∃ f, fields.find? (fun f => f.name == entry.1) = some f ∧
      f.decode.Fixes entry.2) : givenFields fields strict entries = .ok entries := by
  induction entries with
  | nil => rfl
  | cons entry rest ih =>
      rw [List.forall_mem_cons] at fixed
      obtain ⟨⟨f, found, here⟩, others⟩ := fixed
      rw [givenFields]
      simp only [found, bind_eq_ok_iff, pure_eq_ok_iff, under_eq_ok_iff]
      exact ⟨entry.2, here, rest, ih others, rfl⟩

theorem fits_of_completed (standIn : ∀ f ∈ fields, StandsIn f.decode f.presence)
    (fixed : ∀ f ∈ fields, ∀ a, given.lookup f.name = some a → f.decode.Fixes a)
    (ok : completed given fields = .ok named) : Fits fields named := by
  induction fields generalizing named with
  | nil =>
      cases ok
      exact .nil
  | cons f rest ih =>
      rw [List.forall_mem_cons] at standIn fixed
      have standInHere := standIn.1
      rw [completed] at ok
      cases found : given.lookup f.name with
      | some a =>
          simp only [found, bind_eq_ok_iff, pure_eq_ok_iff] at ok
          obtain ⟨others, read, rfl⟩ := ok
          exact .cons ⟨rfl, fixed.1 a found⟩ (ih standIn.2 fixed.2 read)
      | none =>
          cases presenceEq : f.presence with
          | required => simp [found, presenceEq] at ok
          | nullable =>
              rw [presenceEq] at standInHere
              simp only [found, presenceEq, bind_eq_ok_iff, pure_eq_ok_iff] at ok
              obtain ⟨others, read, rfl⟩ := ok
              exact .cons ⟨rfl, standInHere⟩ (ih standIn.2 fixed.2 read)
          | defaulted a =>
              rw [presenceEq] at standInHere
              simp only [found, presenceEq, bind_eq_ok_iff, pure_eq_ok_iff] at ok
              obtain ⟨others, read, rfl⟩ := ok
              exact .cons ⟨rfl, standInHere⟩ (ih standIn.2 fixed.2 read)

theorem completed_of_lookup
    (found : List.Forall₂ (fun f entry => entry.1 = f.name ∧ given.lookup f.name = some entry.2)
      fields named) : completed given fields = .ok named := by
  induction found with
  | nil => rfl
  | @cons f entry _ others here _ ih =>
      rw [completed]
      simp only [here.2, bind_eq_ok_iff, pure_eq_ok_iff]
      exact ⟨others, ih, by rw [← here.1]⟩

theorem fits_of_positional (stable : ∀ f ∈ fields, f.decode.Stable)
    (standIn : ∀ f ∈ fields, StandsIn f.decode f.presence) {expected : String} {index : Nat}
    {as : List Json} (ok : positional expected index fields as = .ok named) :
    Fits fields named := by
  induction fields generalizing index as named with
  | nil =>
      cases ok
      exact .nil
  | cons f rest ih =>
      rw [List.forall_mem_cons] at stable standIn
      cases as with
      | nil =>
          have standInHere := standIn.1
          rw [positional] at ok
          cases presenceEq : f.presence with
          | defaulted a =>
              rw [presenceEq] at standInHere
              simp only [presenceEq, bind_eq_ok_iff, pure_eq_ok_iff] at ok
              obtain ⟨others, read, rfl⟩ := ok
              exact .cons ⟨rfl, standInHere⟩ (ih stable.2 standIn.2 read)
          | required => simp [presenceEq] at ok
          | nullable => simp [presenceEq] at ok
      | cons a others =>
          simp only [positional, bind_eq_ok_iff, pure_eq_ok_iff, under_eq_ok_iff] at ok
          obtain ⟨b, here, others, read, rfl⟩ := ok
          exact .cons ⟨rfl, stable.1 a b here⟩ (ih stable.2 standIn.2 read)

theorem positional_of_fits (fits : Fits fields named) (expected : String) (index : Nat) :
    positional expected index fields (named.map (·.2)) = .ok named := by
  induction fits generalizing index with
  | nil => rfl
  | @cons f entry _ others here _ ih =>
      rw [List.map_cons, positional]
      simp only [bind_eq_ok_iff, pure_eq_ok_iff, under_eq_ok_iff]
      exact ⟨entry.2, here.2, others, ih _, by rw [← here.1]⟩

theorem increasing_ofFields (pairs : List (String × Json)) :
    Increasing (pairs.foldl (fun fields pair => insertEntry pair.1 pair.2 fields) []) := by
  induction pairs using List.reverseRecOn with
  | nil => exact .nil
  | append_singleton front last ih =>
      rw [List.foldl_append]
      exact ih.insertEntry last.1 last.2

/-- The object of fitting values is read back as it is. -/
theorem recordOfObject_of_fits (nodup : (fields.map (·.name)).Nodup) (fits : Fits fields named)
    (strict : Bool) : ∃ entries, Json.ofFields named = .object entries ∧
      recordOfObject fields strict entries = .ok (.object entries) := by
  have namedNodup : (named.map (·.1)).Nodup := by
    rw [fits.map_fst_eq]
    exact nodup
  obtain ⟨sameLength, paired⟩ := List.forall₂_iff_zip.mp fits
  obtain ⟨entries, objectEq, increasing, lookupEq⟩ : ∃ entries,
      Json.ofFields named = .object entries ∧ Increasing entries ∧
        ∀ key, entries.lookup key = named.lookup key :=
    ⟨_, rfl, increasing_ofFields named, Json.field?_ofFields namedNodup⟩
  have given : givenFields fields strict entries = .ok entries := by
    apply givenFields_of_fixes
    intro entry mem
    have found := increasing.lookup_of_mem mem
    rw [lookupEq] at found
    obtain ⟨i, here, entryEq⟩ := List.mem_iff_getElem.mp (mem_of_lookup found)
    have inFields : i < fields.length := sameLength ▸ here
    have pair : (fields[i], named[i]) ∈ fields.zip named := by
      rw [List.mem_iff_getElem]
      exact ⟨i, by simpa using ⟨inFields, here⟩, by simp⟩
    obtain ⟨nameEq, fixed⟩ := paired pair
    rw [entryEq] at nameEq fixed
    refine ⟨fields[i], ?_, fixed⟩
    rw [show entry.1 = fields[i].name from nameEq]
    exact find?_of_mem nodup (List.getElem_mem inFields)
  have complete : completed entries fields = .ok named := by
    apply completed_of_lookup
    rw [List.forall₂_iff_zip]
    refine ⟨sameLength, ?_⟩
    intro f entry mem
    obtain ⟨nameEq, _⟩ := paired mem
    rw [lookupEq, ← nameEq]
    exact ⟨rfl, lookup_of_mem namedNodup (List.of_mem_zip mem).2⟩
  refine ⟨entries, objectEq, ?_⟩
  simp only [recordOfObject, bind_eq_ok_iff, pure_eq_ok_iff]
  exact ⟨entries, given, named, complete, objectEq⟩

theorem fixes_record (nodup : (fields.map (·.name)).Nodup) (fits : Fits fields named)
    (name : String) (strict : Bool) :
    (record dialect name strict fields).Fixes (.ofFields named) := by
  obtain ⟨entries, objectEq, ok⟩ := recordOfObject_of_fits nodup fits strict
  rw [objectEq]
  exact ok

theorem stable_record (nodup : (fields.map (·.name)).Nodup)
    (stable : ∀ f ∈ fields, f.decode.Stable)
    (standIn : ∀ f ∈ fields, StandsIn f.decode f.presence) (name : String) (strict : Bool) :
    (record dialect name strict fields).Stable := by
  intro a b ok
  cases a with
  | object entries =>
      simp only [record, recordOfObject, bind_eq_ok_iff, pure_eq_ok_iff] at ok
      obtain ⟨given, readGiven, named, read, rfl⟩ := ok
      have declared := fixes_of_givenFields stable readGiven
      refine fixes_record nodup (fits_of_completed standIn ?_ read) name strict
      intro f mem a found
      obtain ⟨other, otherEq, fixed⟩ := declared _ (mem_of_lookup found)
      rw [find?_of_mem nodup mem] at otherEq
      cases otherEq
      exact fixed
  | array given =>
      simp only [record, bind_eq_ok_iff, pure_eq_ok_iff] at ok
      obtain ⟨named, read, _, _, rfl⟩ := ok
      exact fixes_record nodup (fits_of_positional stable standIn read) name strict
  | _ => simp [record] at ok

theorem stable_tuple {items : List Decoder} (stable : ∀ decode ∈ items, decode.Stable)
    (name : String) : (tuple dialect name items).Stable := by
  intro a b ok
  cases a with
  | array given =>
      simp only [tuple, bind_eq_ok_iff, pure_eq_ok_iff] at ok
      obtain ⟨named, read, _, _, rfl⟩ := ok
      have fits : Fits (items.map fun decode => ⟨"", .required, decode⟩) named := by
        apply fits_of_positional _ _ read
        · simpa using stable
        · simp [StandsIn]
      have sameLength : items.length = named.length := by simpa using fits.length_eq
      simp only [Fixes, tuple, bind_eq_ok_iff, pure_eq_ok_iff]
      exact ⟨named, positional_of_fits fits _ _, (), by simp [noSurplus, sameLength], rfl⟩
  | _ => simp [tuple] at ok

/-! ## Cases -/

/-- What a case gives for an object is an object. -/
def KeepsObjects (decode : Decoder) : Prop :=
  ∀ entries b, decode (.object entries) = .ok b → ∃ written, b = .object written

theorem keepsObjects_record (name : String) (strict : Bool) :
    (record dialect name strict fields).KeepsObjects := by
  intro entries b ok
  simp only [record, recordOfObject, bind_eq_ok_iff, pure_eq_ok_iff] at ok
  obtain ⟨_, _, named, _, rfl⟩ := ok
  exact ⟨_, rfl⟩

theorem caseNamed_eq_ok {type : String} {cases : List CaseDecoder} {isKey : Bool} {name : String}
    {c : CaseDecoder} (named : caseNamed type cases isKey name = .ok c) :
    c ∈ cases ∧ ∀ isKey, caseNamed type cases isKey c.name = .ok c := by
  unfold caseNamed at named ⊢
  cases found : cases.find? fun c => c.name == name with
  | none => simp [found] at named
  | some other =>
      rw [found] at named
      cases named
      have nameEq : c.name = name := by simpa using List.find?_some found
      rw [nameEq]
      exact ⟨List.mem_of_find?_eq_some found, fun _ => by rw [found]⟩

variable {type : String} {cases : List CaseDecoder}

theorem caseOfKey_eq_ok {name : String} {c : CaseDecoder}
    (named : caseOfKey type cases name = .ok c) :
    c ∈ cases ∧ (∀ isKey, caseNamed type cases isKey c.name = .ok c) ∧
      caseOfKey type cases c.name = .ok c := by
  unfold caseOfKey at named ⊢
  cases found : caseNamed type cases true name with
  | error r => simp [found] at named
  | ok other =>
      rw [found] at named
      cases named
      obtain ⟨mem, again⟩ := caseNamed_eq_ok found
      exact ⟨mem, again, by rw [again]⟩

/-- A case with what it holds is read back as it is. -/
theorem fixes_of_heldCase {c : CaseDecoder} {name : String} {held b : Json}
    (named : caseOfKey type cases name = .ok c) (stable : c.decode.Stable)
    (keeps : c.kind = .record → c.decode.KeepsObjects) (ok : heldCase c held = .ok b) :
    (variants dialect type cases).Fixes b := by
  obtain ⟨_, again, againAsKey⟩ := caseOfKey_eq_ok named
  rcases c with ⟨caseName, kind, decode⟩
  have held_again : ∀ written, heldCase ⟨caseName, kind, decode⟩ written = .ok b →
      b = .object [(caseName, written)] → (variants dialect type cases).Fixes b := by
    rintro written ok rfl
    simp only [Fixes, variants, caseOfFields, againAsKey]
    exact ok
  cases kind with
  | bare =>
      cases held with
      | null =>
          cases ok
          simp only [Fixes, variants, again, bind_eq_ok_iff]
          exact ⟨_, rfl, rfl⟩
      | _ => simp [heldCase, under_eq_ok_iff] at ok
  | wrapped =>
      simp only [heldCase, bind_eq_ok_iff, pure_eq_ok_iff, under_eq_ok_iff] at ok held_again
      obtain ⟨written, read, rfl⟩ := ok
      exact held_again written ⟨written, stable held written read, rfl⟩ rfl
  | record =>
      cases held with
      | object entries =>
          simp only [heldCase, bind_eq_ok_iff, pure_eq_ok_iff, under_eq_ok_iff] at ok
          obtain ⟨written, read, rfl⟩ := ok
          obtain ⟨fields, rfl⟩ := keeps rfl entries written read
          apply held_again (.object fields) _ rfl
          simp only [heldCase, bind_eq_ok_iff, pure_eq_ok_iff, under_eq_ok_iff]
          exact ⟨_, stable _ _ read, rfl⟩
      | _ => simp [heldCase] at ok

theorem stable_variants (stable : ∀ c ∈ cases, c.decode.Stable)
    (keeps : ∀ c ∈ cases, c.kind = .record → c.decode.KeepsObjects) :
    (variants dialect type cases).Stable := by
  have of_key : ∀ name held b, (do heldCase (← caseOfKey type cases name) held) = .ok b →
      (variants dialect type cases).Fixes b := by
    intro name held b ok
    obtain ⟨c, named, ok⟩ := (bind_eq_ok_iff _ _ _).mp ok
    have mem := (caseOfKey_eq_ok named).1
    exact fixes_of_heldCase named (stable c mem) (keeps c mem) ok
  intro a b ok
  cases a with
  | string name =>
      simp only [variants, bind_eq_ok_iff] at ok
      obtain ⟨c, named, ok⟩ := ok
      unfold bareCase at ok
      cases kindEq : c.kind with
      | bare =>
          rw [kindEq] at ok
          cases ok
          simp only [Fixes, variants, (caseNamed_eq_ok named).2, bind_eq_ok_iff, bareCase]
          exact ⟨c, rfl, by rw [kindEq]⟩
      | wrapped => simp [kindEq] at ok
      | record => simp [kindEq] at ok
  | object entries =>
      simp only [variants] at ok
      unfold caseOfFields at ok
      split at ok
      · exact of_key _ _ b ok
      · split at ok
        · exact of_key _ _ b ok
        · simp at ok
      · split at ok <;> simp at ok
  | _ =>
      simp only [variants] at ok
      split at ok <;> simp at ok

end Decoder

/-! ## Shapes -/

namespace Shape

open Decoder

/-- A record. -/
def isRecord : Shape → Bool
  | record _ _ _ => true
  | _ => false

mutual

/-- What the shape gives for a value it gives for that again. -/
def Regular (dialect : Dialect) : Shape → Prop
  | list item | dict item => item.Regular dialect
  | optional inner => inner.Regular dialect
  | record _ _ fields => (fields.map (·.1)).Nodup ∧ FieldsRegular dialect fields
  | tuple _ items => ItemsRegular dialect items
  | variants _ cases => CasesRegular dialect cases
  | _ => True

/-- The fields have regular shapes, and what stands in for one that is missing could be read in its
place. -/
def FieldsRegular (dialect : Dialect) : List (String × Presence × Shape) → Prop
  | [] => True
  | (_, presence, shape) :: rest =>
      shape.Regular dialect ∧ StandsIn (shape.decode dialect) presence ∧
        FieldsRegular dialect rest

/-- The items have regular shapes. -/
def ItemsRegular (dialect : Dialect) : List Shape → Prop
  | [] => True
  | shape :: rest => shape.Regular dialect ∧ ItemsRegular dialect rest

/-- The cases have regular shapes, and one that holds a record is one. -/
def CasesRegular (dialect : Dialect) : List (String × VariantKind × Shape) → Prop
  | [] => True
  | (_, kind, shape) :: rest =>
      shape.Regular dialect ∧ (kind = .record → shape.isRecord = true) ∧ CasesRegular dialect rest

end

theorem keepsObjects_of_isRecord {shape : Shape} (isRecord : shape.isRecord = true) :
    (shape.decode dialect).KeepsObjects := by
  cases shape with
  | record name strict fields =>
      rw [decode]
      exact keepsObjects_record name strict
  | _ => contradiction

theorem map_name_fieldDecoders (dialect : Dialect) (fields : List (String × Presence × Shape)) :
    (fieldDecoders dialect fields).map (·.name) = fields.map (·.1) := by
  induction fields with
  | nil => rfl
  | cons field rest ih => simp [fieldDecoders, ih]

theorem fixes_bool (b : Bool) : (bool.decode dialect).Fixes (.bool b) := by
  simp [Fixes, decode]

theorem fixes_string (s : String) : (string.decode dialect).Fixes (.string s) := by
  simp [Fixes, decode]

theorem fixes_list {item : Shape} {as : List Json}
    (fixed : ∀ a ∈ as, (item.decode dialect).Fixes a) :
    ((list item).decode dialect).Fixes (.array as) := by
  simp only [Fixes, decode, bind_eq_ok_iff, pure_eq_ok_iff]
  exact ⟨as, elements_of_fixes fixed 0, rfl⟩

theorem fixes_strings (ss : List String) :
    ((list string).decode dialect).Fixes (.array (ss.map .string)) :=
  fixes_list (by simp [fixes_string])

theorem fixes_dict {item : Shape} {entries : List (String × Json)}
    (fixed : ∀ entry ∈ entries, (item.decode dialect).Fixes entry.2) :
    ((dict item).decode dialect).Fixes (.object entries) := by
  simp only [Fixes, decode, bind_eq_ok_iff, pure_eq_ok_iff]
  exact ⟨entries, values_of_fixes fixed, rfl⟩

/-- The object of values of its fields is a value of a record. -/
theorem fixes_ofFields {fields : List (String × Presence × Shape)} {named : List (String × Json)}
    (nodup : (fields.map (·.1)).Nodup) (fits : Fits (fieldDecoders dialect fields) named)
    (name : String) (strict : Bool) :
    ((record name strict fields).decode dialect).Fixes (.ofFields named) := by
  rw [← map_name_fieldDecoders dialect] at nodup
  rw [decode]
  exact fixes_record nodup fits name strict

mutual

/-- What a regular shape gives is read back as it is. -/
theorem decode_stable : ∀ shape : Shape, shape.Regular dialect → (shape.decode dialect).Stable
  | any, _ => fun a b _ => by simp [Fixes, decode]
  | unit, _ => fun a b ok => by
      cases a <;> simp [decode] at ok
      simp [← ok, Fixes, decode]
  | bool, _ => fun a b ok => by
      cases a <;> simp [decode] at ok
      simp [← ok, Fixes, decode]
  | string, _ => fun a b ok => by
      cases a <;> simp [decode] at ok
      simp [← ok, Fixes, decode]
  | character, _ => fun a b ok => by
      cases a <;> simp [decode] at ok
      split at ok
      · rename_i single
        cases ok
        simp [Fixes, decode, single]
      · simp at ok
  | path, _ => fun a b ok => by
      cases a <;> simp [decode] at ok
      simp [← ok, Fixes, decode]
  | integer name low high, _ => fun a b ok => by
      simp only [decode] at ok
      split at ok
      · split at ok
        · rename_i z inRange
          cases ok
          simp [Fixes, decode, Json.int, inRange]
        · simp at ok
      · simp at ok
  | real, _ => fun a b ok => by
      simp only [decode] at ok
      split at ok
      · cases ok
        simp [Fixes, decode]
      · cases ok
        simp [Fixes, decode]
      · simp at ok
  | list item, regular => fun a b ok => by
      simp only [decode] at ok
      split at ok
      · simp only [bind_eq_ok_iff, pure_eq_ok_iff] at ok
        obtain ⟨bs, read, rfl⟩ := ok
        exact fixes_list (fixes_of_elements (decode_stable item regular) read)
      · simp at ok
  | dict item, regular => fun a b ok => by
      simp only [decode] at ok
      split at ok
      · simp only [bind_eq_ok_iff, pure_eq_ok_iff] at ok
        obtain ⟨entries, read, rfl⟩ := ok
        exact fixes_dict (fixes_of_values (decode_stable item regular) read)
      · simp at ok
  | optional inner, regular => fun a b ok => by
      simp only [decode] at ok
      split at ok
      · cases ok
        simp [Fixes, decode]
      · have fixed := decode_stable inner regular a b ok
        simp only [Fixes, decode]
        split
        · rfl
        · exact fixed
  | record name strict fields, ⟨nodup, regular⟩ => by
      have sound := fieldDecoders_stable fields regular
      rw [decode]
      apply stable_record
      · rw [map_name_fieldDecoders]
        exact nodup
      · exact fun f mem => (sound f mem).1
      · exact fun f mem => (sound f mem).2
  | unitRecord name, _ => fun a b ok => by
      cases a <;> simp [decode] at ok
      simp [← ok, Fixes, decode]
  | tuple name items, regular => by
      rw [decode]
      exact stable_tuple (itemDecoders_stable items regular) name
  | variants name cases, regular => by
      have sound := caseDecoders_stable cases regular
      rw [decode]
      exact stable_variants (fun c mem => (sound c mem).1) fun c mem => (sound c mem).2

theorem fieldDecoders_stable : ∀ fields : List (String × Presence × Shape),
    FieldsRegular dialect fields → ∀ f ∈ fieldDecoders dialect fields,
      f.decode.Stable ∧ StandsIn f.decode f.presence
  | [], _ => by simp [fieldDecoders]
  | (name, presence, shape) :: rest, ⟨regular, standIn, others⟩ => by
      rw [fieldDecoders, List.forall_mem_cons]
      exact ⟨⟨decode_stable shape regular, standIn⟩, fieldDecoders_stable rest others⟩

theorem itemDecoders_stable : ∀ items : List Shape, ItemsRegular dialect items →
    ∀ decode ∈ itemDecoders dialect items, Stable decode
  | [], _ => by simp [itemDecoders]
  | shape :: rest, ⟨regular, others⟩ => by
      rw [itemDecoders, List.forall_mem_cons]
      exact ⟨decode_stable shape regular, itemDecoders_stable rest others⟩

theorem caseDecoders_stable : ∀ cases : List (String × VariantKind × Shape),
    CasesRegular dialect cases → ∀ c ∈ caseDecoders dialect cases,
      c.decode.Stable ∧ (c.kind = .record → c.decode.KeepsObjects)
  | [], _ => by simp [caseDecoders]
  | (name, kind, shape) :: rest, ⟨regular, isRecord, others⟩ => by
      rw [caseDecoders, List.forall_mem_cons]
      exact ⟨⟨decode_stable shape regular, fun held => keepsObjects_of_isRecord (isRecord held)⟩,
        caseDecoders_stable rest others⟩

end

end Shape

end Courier
