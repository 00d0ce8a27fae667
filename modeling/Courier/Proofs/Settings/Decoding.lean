import Courier.Proofs.Settings.Overlay
import Mathlib

/-!
# Decoding single values

The shape of settings is made of open records, of dictionaries, and of single values at the
leaves.  A single value that is accepted comes out as it went in (`Tree.eq_toJson_of_decode`),
and what is refused of one is the value itself or one of its items
(`Tree.isSome_at?_of_decode_error`).
-/

namespace Courier

/-- An entry is what is found under its key. -/
theorem Increasing.lookup_of_mem {α : Type*} {entries : List (String × α)}
    (increasing : Increasing entries) {key : String} {value : α} (mem : (key, value) ∈ entries) :
    entries.lookup key = some value := by
  induction entries with
  | nil => contradiction
  | cons entry rest ih =>
      rw [lookup_cons_eq_ite]
      rcases List.mem_cons.mp mem with rfl | mem
      · exact if_pos rfl
      · have before : entry.1 < key := (List.pairwise_cons.mp increasing).1 (key, value) mem
        have other : key ≠ entry.1 := by
          rintro rfl
          exact String.lt_irrefl _ before
        rw [if_neg other, ih increasing.of_cons mem]

/-! ## Documents by place -/

namespace Json

/-- The value at a place, given by the keys that lead there. -/
def at? : (keys : List String) → Json → Option Json
  | [], a => some a
  | key :: keys, a => (a.field? key).bind (at? keys)

theorem lookup_foldl_insertEntry {pairs : List (String × Json)} (nodup : (pairs.map (·.1)).Nodup)
    (fields : List (String × Json)) (key : String) :
    (pairs.foldl (fun fields pair => insertEntry pair.1 pair.2 fields) fields).lookup key =
      (pairs.lookup key).or (fields.lookup key) := by
  induction pairs generalizing fields with
  | nil => rfl
  | cons pair rest ih =>
      rw [List.map_cons, List.nodup_cons] at nodup
      rw [List.foldl_cons, ih nodup.2, lookup_insertEntry, lookup_cons_eq_ite]
      by_cases here : key = pair.1
      · have absent : rest.lookup key = none := by
          rw [List.lookup_eq_none_iff]
          intro other mem
          rw [bne_iff_ne, here]
          intro same
          exact nodup.1 (List.mem_map.mpr ⟨other, mem, same.symm⟩)
        rw [if_pos here, if_pos here, absent]
        rfl
      · rw [if_neg here, if_neg here]

/-- A field of the object of pairs with different keys. -/
theorem field?_ofFields {pairs : List (String × Json)} (nodup : (pairs.map (·.1)).Nodup)
    (key : String) : (ofFields pairs).field? key = pairs.lookup key := by
  show (pairs.foldl (fun fields pair => insertEntry pair.1 pair.2 fields) []).lookup key = _
  rw [lookup_foldl_insertEntry nodup, List.lookup_nil, Option.or_none]

end Json

namespace Tree

theorem itemsToJson_eq_map (items : List Tree) : itemsToJson items = items.map toJson := by
  induction items with
  | nil => rfl
  | cons item rest ih => rw [itemsToJson, ih, List.map_cons]

end Tree

/-! ## Shapes of settings -/

namespace Shape

/-- A single value that can be anything of one kind. -/
def isScalar : Shape → Bool
  | bool => true
  | string => true
  | path => true
  | _ => false

/-- A single value, which may be a list of others. -/
def isPlain : Shape → Bool
  | optional inner => inner.isScalar
  | list item => item.isScalar
  | variants _ cases => cases.all fun c => c.2.1 = .bare
  | shape => shape.isScalar

theorem cases_of_isPlain {shape : Shape} (plain : shape.isPlain = true) :
    shape.isScalar = true ∨ (∃ inner, shape = optional inner ∧ inner.isScalar = true) ∨
      (∃ item, shape = list item ∧ item.isScalar = true) ∨
      ∃ type cases, shape = variants type cases ∧ ∀ c ∈ cases, c.2.1 = .bare := by
  cases shape with
  | optional inner => exact .inr (.inl ⟨inner, rfl, plain⟩)
  | list item => exact .inr (.inr (.inl ⟨item, rfl, plain⟩))
  | variants type cases =>
      exact .inr (.inr (.inr ⟨type, cases, rfl, by simpa [isPlain] using plain⟩))
  | _ => exact .inl plain

mutual

/-- Open records, dictionaries and single values. -/
def isLayered : Shape → Bool
  | record _ strict fields => !strict && (fields.map (·.1)).Nodup && fieldsLayered fields
  | dict item => item.isPlain
  | shape => shape.isPlain

/-- The shapes of the fields are of this kind. -/
def fieldsLayered : List (String × Presence × Shape) → Bool
  | [] => true
  | (_, _, shape) :: rest => shape.isLayered && fieldsLayered rest

end

variable {shape part : Shape} {key : String}

theorem isTable_of_isPlain (plain : shape.isPlain = true) : shape.isTable = false := by
  cases shape <;> first | rfl | contradiction

theorem isLayered_of_isPlain (plain : shape.isPlain = true) : shape.isLayered = true := by
  cases shape <;> first | exact plain | contradiction

theorem isPlain_of_isLayered (layered : shape.isLayered = true) (single : shape.isTable = false) :
    shape.isPlain = true := by
  cases shape <;> first | exact layered | contradiction

theorem fieldsLayered_lookup {fields : List (String × Presence × Shape)}
    (layered : fieldsLayered fields = true) {field : Presence × Shape}
    (found : fields.lookup key = some field) : field.2.isLayered = true := by
  induction fields with
  | nil => contradiction
  | cons entry rest ih =>
      rcases entry with ⟨name, presence, shape⟩
      rw [fieldsLayered, Bool.and_eq_true] at layered
      rw [lookup_cons_eq_ite] at found
      by_cases here : key = name
      · rw [if_pos here] at found
        cases found
        exact layered.1
      · rw [if_neg here] at found
        exact ih layered.2 found

theorem isLayered_of_inner? (layered : shape.isLayered = true)
    (found : shape.inner? key = some part) : part.isLayered = true := by
  cases shape with
  | dict item =>
      cases found
      exact isLayered_of_isPlain layered
  | record name strict fields =>
      obtain ⟨field, here, rfl⟩ := Option.map_eq_some_iff.mp found
      rw [isLayered, Bool.and_eq_true] at layered
      exact fieldsLayered_lookup layered.2 here
  | _ => contradiction

theorem sizeOf_lt_of_lookup {fields : List (String × Presence × Shape)}
    {field : Presence × Shape} (found : fields.lookup key = some field) :
    sizeOf field.2 < sizeOf fields := by
  obtain ⟨before, after, rfl, _⟩ := List.lookup_eq_some_iff.mp found
  have mem : (key, field) ∈ before ++ (key, field) :: after := by simp
  have lt := List.sizeOf_lt_of_mem mem
  rcases field with ⟨presence, inner⟩
  simp only [Prod.mk.sizeOf_spec] at lt ⊢
  omega

theorem sizeOf_lt_of_inner? (found : shape.inner? key = some part) :
    sizeOf part < sizeOf shape := by
  cases shape with
  | dict item =>
      cases found
      simp only [dict.sizeOf_spec]
      omega
  | record name strict fields =>
      obtain ⟨field, here, rfl⟩ := Option.map_eq_some_iff.mp found
      have lt := sizeOf_lt_of_lookup here
      simp only [record.sizeOf_spec]
      omega
  | _ => contradiction

/-- Induction along the keys of tables. -/
theorem inner_induction {motive : Shape → Prop}
    (step : ∀ shape, (∀ key part, shape.inner? key = some part → motive part) → motive shape)
    (shape : Shape) : motive shape := by
  apply step
  intro key part found
  have smaller := sizeOf_lt_of_inner? found
  exact inner_induction step part
termination_by sizeOf shape

end Shape

/-- A shape is covered below a key where it is covered as a whole. -/
theorem Tree.Covers.below {shape part : Shape} {entries : List (String × Tree)} {key : String}
    {value : Tree} (covers : (Tree.table entries).Covers shape) (layered : shape.isLayered = true)
    (found : shape.inner? key = some part) (there : entries.lookup key = some value) :
    value.Covers part := by
  cases shape with
  | dict item =>
      cases found
      intro keys inner atItem
      cases keys with
      | nil => rfl
      | cons key keys =>
          have single := Shape.isTable_of_isPlain layered
          cases part <;> contradiction
  | record name strict fields =>
      obtain ⟨field, here, rfl⟩ := Option.map_eq_some_iff.mp found
      obtain ⟨value', there', below⟩ := covers.inner here
      rw [there] at there'
      cases there'
      exact below
  | _ => contradiction

/-! ## Single values -/

namespace Shape

variable {shape : Shape} {dialect : Dialect} {a n : Json} {r : Refusal}

theorem eq_of_decode_scalar (scalar : shape.isScalar = true)
    (ok : shape.decode dialect a = .ok n) : n = a := by
  cases shape <;> try contradiction
  all_goals
    simp only [decode] at ok
    split at ok
    · cases ok
      rfl
    · contradiction

theorem path_of_decode_scalar_error (scalar : shape.isScalar = true)
    (error : shape.decode dialect a = .error r) : r.path = [] := by
  cases shape <;> try contradiction
  all_goals
    simp only [decode] at error
    split at error
    · contradiction
    · cases error
      rfl

end Shape

namespace Decoder

variable {decode : Decoder} {a b : Json} {r : Refusal}

theorem under_eq_ok_iff {key : String} : under key decode a = .ok b ↔ decode a = .ok b := by
  unfold under
  cases decode a <;> simp

theorem under_eq_error_iff {key : String} :
    under key decode a = .error r ↔ ∃ inside, decode a = .error inside ∧ r = inside.within key := by
  unfold under
  cases decode a <;> simp [eq_comm]

theorem eq_of_elements {as bs : List Json} {start : Nat}
    (exact : ∀ a b, decode a = .ok b → b = a) (ok : elements decode start as = .ok bs) :
    bs = as := by
  induction as generalizing start bs with
  | nil =>
      cases ok
      rfl
  | cons a rest ih =>
      unfold elements at ok
      cases here : under (toString start) decode a with
      | error r =>
          rw [here] at ok
          contradiction
      | ok b =>
          cases others : elements decode (start + 1) rest with
          | error r =>
              rw [here, others] at ok
              contradiction
          | ok more =>
              rw [here, others] at ok
              cases ok
              rw [exact a b (under_eq_ok_iff.mp here), ih others]

/-- A refused element is named by its index. -/
theorem path_of_elements_error {as : List Json} {start : Nat}
    (top : ∀ a r, decode a = .error r → r.path = [])
    (error : elements decode start as = .error r) :
    ∃ i, i < as.length ∧ r.path = [toString (start + i)] := by
  induction as generalizing start with
  | nil => contradiction
  | cons a rest ih =>
      unfold elements at error
      cases here : under (toString start) decode a with
      | error inside =>
          rw [here] at error
          cases error
          obtain ⟨r, refused, rfl⟩ := under_eq_error_iff.mp here
          exact ⟨0, Nat.zero_lt_succ _, congrArg ([toString start] ++ ·) (top a r refused)⟩
      | ok b =>
          rw [here] at error
          cases others : elements decode (start + 1) rest with
          | error inside =>
              rw [others] at error
              cases error
              obtain ⟨i, lt, path⟩ := ih others
              refine ⟨i + 1, Nat.succ_lt_succ lt, ?_⟩
              rw [path, Nat.add_assoc, Nat.add_comm 1]
          | ok more =>
              rw [others] at error
              contradiction

end Decoder

namespace Shape

open Decoder

variable {shape : Shape} {dialect : Dialect} {t : Tree} {n : Json} {r : Refusal}

theorem find?_caseDecoders (cases : List (String × VariantKind × Shape)) (name : String) :
    (caseDecoders dialect cases).find? (fun c => c.name == name) =
      (cases.find? fun c => c.1 == name).map fun c => ⟨c.1, c.2.1, c.2.2.decode dialect⟩ := by
  induction cases with
  | nil => rfl
  | cons c rest ih =>
      simp only [caseDecoders, List.find?_cons]
      cases c.1 == name with
      | true => rfl
      | false => exact ih

/-- Of variants that hold nothing, a bare name is decoded as it is. -/
theorem eq_of_decode_variants {type : String} {cases : List (String × VariantKind × Shape)}
    (bare : ∀ c ∈ cases, c.2.1 = .bare) {name : String}
    (ok : (variants type cases).decode dialect (.string name) = .ok n) :
    n = .string name ∧ name ∈ cases.map (·.1) := by
  simp only [decode, Decoder.variants, caseNamed, find?_caseDecoders] at ok
  cases found : cases.find? fun c => c.1 == name with
  | none =>
      rw [found] at ok
      contradiction
  | some c =>
      have mem := List.mem_of_find?_eq_some found
      have named : c.1 = name := by simpa using List.find?_some found
      rw [found] at ok
      simp only [Option.map_some, bareCase, bare c mem, bind, Except.bind] at ok
      cases ok
      exact ⟨congrArg Json.string named, List.mem_map.mpr ⟨c, mem, named⟩⟩

theorem path_of_decode_variants_error {type : String}
    {cases : List (String × VariantKind × Shape)} (bare : ∀ c ∈ cases, c.2.1 = .bare) {a : Json}
    (single : a.object? = none) (error : (variants type cases).decode dialect a = .error r) :
    r.path = [] := by
  cases a with
  | object fields => contradiction
  | string name =>
      simp only [decode, Decoder.variants, caseNamed, find?_caseDecoders] at error
      cases found : cases.find? fun c => c.1 == name with
      | none =>
          rw [found] at error
          cases error
          rfl
      | some c =>
          rw [found] at error
          simp only [Option.map_some, bareCase, bare c (List.mem_of_find?_eq_some found), bind,
            Except.bind] at error
          contradiction
  | _ =>
      simp only [decode, Decoder.variants] at error
      split at error <;> cases error <;> rfl

end Shape

/-! ### Single values of trees -/

namespace Tree

variable {shape : Shape} {dialect : Dialect} {t : Tree} {n : Json} {r : Refusal}

theorem object?_toJson (single : t.isTable = false) : t.toJson.object? = none := by
  cases t <;> first | rfl | contradiction

/-- A single value is decoded as it is. -/
theorem eq_toJson_of_decode (plain : shape.isPlain = true) (single : t.isTable = false)
    (ok : shape.decode dialect t.toJson = .ok n) : n = t.toJson := by
  rcases Shape.cases_of_isPlain plain with scalar | ⟨inner, rfl, scalar⟩ | ⟨item, rfl, scalar⟩ |
    ⟨type, cases, rfl, bare⟩
  · exact Shape.eq_of_decode_scalar scalar ok
  · simp only [Shape.decode] at ok
    split at ok
    · next null => rw [null, Except.ok.inj ok]
    · exact Shape.eq_of_decode_scalar scalar ok
  · simp only [Shape.decode] at ok
    split at ok
    · next as array =>
        cases read : Decoder.elements (item.decode dialect) 0 as with
        | error r =>
            rw [read] at ok
            contradiction
        | ok bs =>
            rw [read] at ok
            cases ok
            rw [array, Decoder.eq_of_elements (fun a b => Shape.eq_of_decode_scalar scalar) read]
    · contradiction
  · cases t with
    | text s => exact (Shape.eq_of_decode_variants bare ok).1
    | letter c => exact (Shape.eq_of_decode_variants bare ok).1
    | table entries => contradiction
    | _ =>
        simp only [toJson, Json.int, Shape.decode, Decoder.variants] at ok
        split at ok <;> contradiction

/-- What is refused of a single value is there: the value itself or one of its items. -/
theorem isSome_at?_of_decode_error (plain : shape.isPlain = true) (single : t.isTable = false)
    (error : shape.decode dialect t.toJson = .error r) : (t.at? r.path).isSome := by
  have whole : r.path = [] → (t.at? r.path).isSome := by
    intro top
    rw [top]
    rfl
  rcases Shape.cases_of_isPlain plain with scalar | ⟨inner, rfl, scalar⟩ | ⟨item, rfl, scalar⟩ |
    ⟨type, cases, rfl, bare⟩
  · exact whole (Shape.path_of_decode_scalar_error scalar error)
  · simp only [Shape.decode] at error
    split at error
    · contradiction
    · exact whole (Shape.path_of_decode_scalar_error scalar error)
  · cases t with
    | list items =>
        simp only [toJson, Shape.decode] at error
        cases read : Decoder.elements (item.decode dialect) 0 (itemsToJson items) with
        | ok bs =>
            rw [read] at error
            contradiction
        | error inside =>
            rw [read] at error
            cases error
            obtain ⟨i, lt, path⟩ := Decoder.path_of_elements_error
              (fun a r => Shape.path_of_decode_scalar_error scalar) read
            rw [itemsToJson_eq_map, List.length_map] at lt
            simp [path, at?, lt]
    | _ =>
        apply whole
        cases error
        rfl
  · exact whole (Shape.path_of_decode_variants_error bare (object?_toJson single) error)

end Tree
end Courier
