import Courier.Shape.Basic

/-!
# Reading data by shape

Each shape denotes a decoder, a function from JSON values to the normal form of
the described value.  Records are read from objects, field by field in the
order of the object, or from arrays in the declared order.
-/

namespace Courier

/-- Gives the normal form of the described value, or says why there is none. -/
abbrev Decoder : Type :=
  Json → Except Refusal Json

/-- What differs between sources of data. -/
structure Dialect where
  /-- Whether an array may have more elements than there are fields. -/
  surplusElements : Bool
  /-- Whether the first key of an object decides which variant it is, whatever
  keys follow, and a value that is neither a name nor an object is said to be
  expected to be the variant type itself. -/
  looseVariants : Bool
deriving DecidableEq, Repr

/-- Payloads and other JSON documents. -/
def Dialect.document : Dialect := ⟨false, false⟩

/-- Settings that are put together from several sources. -/
def Dialect.layered : Dialect := ⟨true, true⟩

/-- A field of a record with its decoder. -/
structure FieldDecoder where
  name : String
  presence : Presence
  decode : Decoder

/-- A variant with the decoder of what it holds. -/
structure CaseDecoder where
  name : String
  kind : VariantKind
  decode : Decoder

namespace Decoder

/-- Refuse a value for a cause. -/
def refuse {α : Type} (cause : Cause) : Except Refusal α :=
  .error { cause := cause }

/-- The element count of a record or tuple in a message. -/
def elementCount (n : Nat) : String :=
  "with " ++ toString n ++ (if n = 1 then " element" else " elements")

/-- Decode under a key: a refusal tells the way to the value. -/
def under (key : String) (decode : Decoder) : Decoder := fun a =>
  match decode a with
  | .ok b => .ok b
  | .error r => .error (r.within key)

/-- The elements of an array, each at its index. -/
def elements (decode : Decoder) (start : Nat) : List Json → Except Refusal (List Json)
  | [] => .ok []
  | a :: rest => do
      let b ← under (toString start) decode a
      return b :: (← elements decode (start + 1) rest)

/-- The values of an object with free keys. -/
def values (decode : Decoder) : List (String × Json) → Except Refusal (List (String × Json))
  | [] => .ok []
  | (k, a) :: rest => do
      let b ← under k decode a
      return (k, b) :: (← values decode rest)

/-- The fields that an object gives, in its order; others are passed over or
refused. -/
def givenFields (fields : List FieldDecoder) (strict : Bool) :
    List (String × Json) → Except Refusal (List (String × Json))
  | [] => .ok []
  | (k, a) :: rest =>
      match fields.find? fun f => f.name == k with
      | some f => do
          let b ← under k f.decode a
          return (k, b) :: (← givenFields fields strict rest)
      | none =>
          if strict then refuse (.unknownField k (fields.map (·.name)))
          else givenFields fields strict rest

/-- All fields of a record in declared order, those not given by default. -/
def completed (given : List (String × Json)) :
    List FieldDecoder → Except Refusal (List (String × Json))
  | [] => .ok []
  | f :: rest =>
      match given.lookup f.name, f.presence with
      | some a, _ => return (f.name, a) :: (← completed given rest)
      | none, .defaulted a => return (f.name, a) :: (← completed given rest)
      | none, .nullable => return (f.name, .null) :: (← completed given rest)
      | none, .required => refuse (.missingField f.name)

/-- A record from an object. -/
def recordOfObject (fields : List FieldDecoder) (strict : Bool)
    (entries : List (String × Json)) : Except Refusal Json := do
  let given ← givenFields fields strict entries
  return .ofFields (← completed given fields)

/-- The fields of a record from the elements of an array, in declared order;
`index` is that of the first of them. -/
def positional (expected : String) : (index : Nat) → List FieldDecoder → List Json →
    Except Refusal (List (String × Json))
  | _, [], _ => .ok []
  | index, f :: fields, [] =>
      match f.presence with
      | .defaulted a => return (f.name, a) :: (← positional expected (index + 1) fields [])
      | _ => refuse (.invalidLength index expected)
  | index, f :: fields, a :: rest => do
      let b ← under (toString index) f.decode a
      return (f.name, b) :: (← positional expected (index + 1) fields rest)

/-- Refuse an array that has more elements than are wanted. -/
def noSurplus (dialect : Dialect) (wanted : Nat) (given : List Json) : Except Refusal Unit :=
  if !dialect.surplusElements && wanted < given.length then
    refuse (.invalidLength given.length "fewer elements in array")
  else .ok ()

/-- A record from an object or an array. -/
def record (dialect : Dialect) (name : String) (strict : Bool)
    (fields : List FieldDecoder) : Decoder
  | .object entries => recordOfObject fields strict entries
  | .array given => do
      let expected := "struct " ++ name ++ " " ++ elementCount fields.length
      let named ← positional expected 0 fields given
      noSurplus dialect fields.length given
      return .ofFields named
  | a => refuse (.invalidType a ("struct " ++ name))

/-- A tuple from an array. -/
def tuple (dialect : Dialect) (name : String) (items : List Decoder) : Decoder
  | .array given => do
      let expected := "tuple struct " ++ name ++ " " ++ elementCount items.length
      let fields := items.map fun decode => FieldDecoder.mk "" .required decode
      let named ← positional expected 0 fields given
      noSurplus dialect items.length given
      return .array (named.map (·.2))
  | a => refuse (.invalidType a ("tuple struct " ++ name))

/-- A variant that is given by its bare name. -/
def bareCase (c : CaseDecoder) : Except Refusal Json :=
  match c.kind with
  | .bare => .ok (.string c.name)
  | .wrapped => refuse (.bareVariant "newtype variant")
  | .record => refuse (.bareVariant "struct variant")

/-- A variant with what it holds. -/
def heldCase (c : CaseDecoder) (held : Json) : Except Refusal Json :=
  match c.kind, held with
  | .bare, .null => .ok (.string c.name)
  | .bare, held => under c.name (fun held => refuse (.invalidType held "unit")) held
  | .wrapped, held => do return .object [(c.name, ← under c.name c.decode held)]
  | .record, .object entries => do
      return .object [(c.name, ← under c.name c.decode (.object entries))]
  | .record, held => refuse (.invalidType held "struct variant")

/-- The variant that a name stands for. -/
def caseNamed (type : String) (cases : List CaseDecoder) (isKey : Bool) (name : String) :
    Except Refusal CaseDecoder :=
  match cases.find? fun c => c.name == name with
  | some c => .ok c
  | none => refuse (.unknownVariant type name isKey (cases.map (·.name)))

/-- The variant that the key of an object stands for; a refusal is about what the key
leads to. -/
def caseOfKey (type : String) (cases : List CaseDecoder) (key : String) :
    Except Refusal CaseDecoder :=
  match caseNamed type cases true key with
  | .ok c => .ok c
  | .error r => .error (r.within key)

/-- A variant from the fields of an object. -/
def caseOfFields (dialect : Dialect) (type : String) (cases : List CaseDecoder)
    (fields : List (String × Json)) : Except Refusal Json :=
  match fields with
  | [(name, held)] => do heldCase (← caseOfKey type cases name) held
  | (name, held) :: _ =>
      if dialect.looseVariants then do heldCase (← caseOfKey type cases name) held
      else refuse (.invalidValue (.object fields) "map with a single key")
  | [] =>
      if dialect.looseVariants then refuse (.invalidType (.object fields) "enum")
      else refuse (.invalidValue (.object fields) "map with a single key")

/-- One of several named cases: a bare name, or an object whose key is the
name. -/
def variants (dialect : Dialect) (type : String) (cases : List CaseDecoder) : Decoder
  | .string name => do bareCase (← caseNamed type cases false name)
  | .object fields => caseOfFields dialect type cases fields
  | a =>
      if dialect.looseVariants then refuse (.invalidType a ("enum " ++ type))
      else refuse (.invalidType a "string or map")

end Decoder

namespace Shape

open Decoder

mutual

/-- The decoder of a shape. -/
def decode (dialect : Dialect) : Shape → Decoder
  | any => fun a => .ok a
  | unit => fun a =>
      match a with
      | .null => .ok .null
      | a => refuse (.invalidType a "unit")
  | bool => fun a =>
      match a with
      | .bool b => .ok (.bool b)
      | a => refuse (.invalidType a "a boolean")
  | string => fun a =>
      match a with
      | .string s => .ok (.string s)
      | a => refuse (.invalidType a "a string")
  | character => fun a =>
      match a with
      | .string s =>
          if s.length = 1 then .ok (.string s)
          else refuse (.invalidValue (.string s) "a character")
      | a => refuse (.invalidType a "a character")
  | path => fun a =>
      match a with
      | .string s => .ok (.string s)
      | a => refuse (.invalidType a "path string")
  | integer name low high => fun a =>
      match a with
      | .number (.integer z) =>
          if low ≤ z ∧ z ≤ high then .ok (.int z)
          else refuse (.invalidValue (.int z) name)
      | a => refuse (.invalidType a name)
  | real => fun a =>
      match a with
      | .number (.real x) => .ok (.number (.real x))
      | .number (.integer z) =>
          .ok (.number (.real ((Binary64.ofInt? z).getD (Binary64.zero false))))
      | a => refuse (.invalidType a "f64")
  | list item => fun a =>
      match a with
      | .array given => do return .array (← elements (item.decode dialect) 0 given)
      | a => refuse (.invalidType a "a sequence")
  | dict item => fun a =>
      match a with
      | .object entries => do return .object (← values (item.decode dialect) entries)
      | a => refuse (.invalidType a "a map")
  | optional inner => fun a =>
      match a with
      | .null => .ok .null
      | a => inner.decode dialect a
  | record name strict fields =>
      Decoder.record dialect name strict (fieldDecoders dialect fields)
  | unitRecord name => fun a =>
      match a with
      | .null => .ok .null
      | a => refuse (.invalidType a ("unit struct " ++ name))
  | tuple name items => Decoder.tuple dialect name (itemDecoders dialect items)
  | variants name cases => Decoder.variants dialect name (caseDecoders dialect cases)

/-- The decoders of the fields of a record. -/
def fieldDecoders (dialect : Dialect) : List (String × Presence × Shape) → List FieldDecoder
  | [] => []
  | (name, presence, shape) :: rest =>
      ⟨name, presence, shape.decode dialect⟩ :: fieldDecoders dialect rest

/-- The decoders of the items of a tuple. -/
def itemDecoders (dialect : Dialect) : List Shape → List Decoder
  | [] => []
  | shape :: rest => shape.decode dialect :: itemDecoders dialect rest

/-- The decoders of the cases of a variant type. -/
def caseDecoders (dialect : Dialect) :
    List (String × VariantKind × Shape) → List CaseDecoder
  | [] => []
  | (name, kind, shape) :: rest =>
      ⟨name, kind, shape.decode dialect⟩ :: caseDecoders dialect rest

end

/-- The normal form of the value that a document describes. -/
def ofDocument (shape : Shape) (a : Json) : Except Refusal Json :=
  shape.decode .document a

end Shape

end Courier
