import Courier.Proofs.Settings.Decoding

/-!
# Decoding leaf by leaf

Of a tree that says something for every field, the decoder of the shape of settings looks at
nothing but the single values: each one that is accepted comes out as it went in
(`Tree.at?_of_decode`), the outcome is the same for trees with the same single values
(`Tree.decode_congr`), and what is refused is a single value or a part of one
(`Tree.exists_leaf_of_decode_error`).

For this, the decoders of records and dictionaries are brought into one form: the results of
the entries are collected (`Decoder.collect`), and a document is made of them
(`Shape.assemble`).
-/

namespace Courier

namespace Decoder

/-- The results under some keys, or the first refusal among them. -/
def collect : List (String × Except Refusal Json) → Except Refusal (List (String × Json))
  | [] => .ok []
  | (key, result) :: rest => do
      let b ← result
      return (key, b) :: (← collect rest)

theorem eq_map_of_collect {results : List (String × Except Refusal Json)}
    {given : List (String × Json)} (ok : collect results = .ok given) :
    results = given.map fun pair => (pair.1, .ok pair.2) := by
  induction results generalizing given with
  | nil =>
      cases ok
      rfl
  | cons result rest ih =>
      rcases result with ⟨key, result⟩
      unfold collect at ok
      cases result with
      | error r => contradiction
      | ok b =>
          cases others : collect rest with
          | error r =>
              rw [others] at ok
              contradiction
          | ok more =>
              rw [others] at ok
              cases ok
              rw [ih others, List.map_cons]

theorem lookup_of_collect {results : List (String × Except Refusal Json)}
    {given : List (String × Json)} (ok : collect results = .ok given) (key : String) :
    results.lookup key = (given.lookup key).map .ok := by
  rw [eq_map_of_collect ok]
  clear ok
  induction given with
  | nil => rfl
  | cons pair rest ih =>
      rw [List.map_cons, lookup_cons_eq_ite, lookup_cons_eq_ite]
      by_cases here : key = pair.1
      · rw [if_pos here, if_pos here]
        rfl
      · rw [if_neg here, if_neg here]
        exact ih

/-- A refusal of the whole is one of some entry. -/
theorem mem_of_collect_error {results : List (String × Except Refusal Json)} {r : Refusal}
    (error : collect results = .error r) : ∃ key, (key, .error r) ∈ results := by
  induction results with
  | nil => contradiction
  | cons result rest ih =>
      rcases result with ⟨key, result⟩
      unfold collect at error
      cases result with
      | error r' =>
          cases error
          exact ⟨key, List.mem_cons_self⟩
      | ok b =>
          cases others : collect rest with
          | ok more =>
              rw [others] at error
              contradiction
          | error r' =>
              rw [others] at error
              cases error
              obtain ⟨key, mem⟩ := ih others
              exact ⟨key, List.mem_cons_of_mem _ mem⟩

end Decoder

namespace Shape

open Decoder

variable {dialect : Dialect}

/-- What the decoder says to the entries for which the shape has something. -/
def answers (dialect : Dialect) (shape : Shape) (entries : List (String × Tree)) :
    List (String × Except Refusal Json) :=
  entries.filterMap fun entry => (shape.inner? entry.1).map fun part =>
    (entry.1, under entry.1 (part.decode dialect) entry.2.toJson)

/-- The document that is made of what the entries give. -/
def assemble (shape : Shape) (given : List (String × Json)) : Json :=
  match shape with
  | record _ _ fields =>
      .ofFields (fields.map fun field => (field.1, (given.lookup field.1).getD .null))
  | _ => .object given

theorem answers_cons (shape : Shape) (entry : String × Tree) (rest : List (String × Tree)) :
    shape.answers dialect (entry :: rest) =
      match shape.inner? entry.1 with
      | some part =>
          (entry.1, under entry.1 (part.decode dialect) entry.2.toJson) ::
            shape.answers dialect rest
      | none => shape.answers dialect rest := by
  rw [answers, List.filterMap_cons]
  cases shape.inner? entry.1 <;> rfl

theorem lookup_answers (shape : Shape) (entries : List (String × Tree)) (key : String) :
    (shape.answers dialect entries).lookup key = (entries.lookup key).bind fun value =>
      (shape.inner? key).map fun part => under key (part.decode dialect) value.toJson := by
  induction entries with
  | nil => rfl
  | cons entry rest ih =>
      rw [answers_cons, lookup_cons_eq_ite]
      by_cases here : key = entry.1
      · subst here
        rw [if_pos rfl]
        cases found : shape.inner? entry.1 with
        | none =>
            dsimp only
            rw [ih, found]
            cases rest.lookup entry.1 <;> rfl
        | some part => simp
      · rw [if_neg here]
        cases shape.inner? entry.1 with
        | none => exact ih
        | some part =>
            dsimp only
            rw [lookup_cons_eq_ite, if_neg here]
            exact ih

theorem increasing_answers (shape : Shape) {entries : List (String × Tree)}
    (increasing : Increasing entries) : Increasing (shape.answers dialect entries) := by
  apply List.Pairwise.filterMap _ _ increasing
  intro a b lt a' ha b' hb
  obtain ⟨_, _, rfl⟩ := Option.map_eq_some_iff.mp ha
  obtain ⟨_, _, rfl⟩ := Option.map_eq_some_iff.mp hb
  exact lt

/-! ## Records and dictionaries in one form -/

theorem find?_fieldDecoders (fields : List (String × Presence × Shape)) (key : String) :
    (fieldDecoders dialect fields).find? (fun f => f.name == key) =
      (fields.lookup key).map fun field => ⟨key, field.1, field.2.decode dialect⟩ := by
  induction fields with
  | nil => rfl
  | cons field rest ih =>
      rcases field with ⟨name, presence, shape⟩
      rw [fieldDecoders, List.find?_cons, lookup_cons_eq_ite]
      by_cases here : key = name
      · subst here
        simp
      · have other : (name == key) = false := beq_eq_false_iff_ne.mpr (Ne.symm here)
        rw [if_neg here]
        simp only [other]
        exact ih

theorem values_eq_collect (item : Shape) (entries : List (String × Tree)) :
    values (item.decode dialect) (Tree.entriesToJson entries) =
      collect ((dict item).answers dialect entries) := by
  induction entries with
  | nil => rfl
  | cons entry rest ih =>
      rw [Tree.entriesToJson, values, ih]
      rfl

theorem givenFields_eq_collect (name : String) (fields : List (String × Presence × Shape))
    (entries : List (String × Tree)) :
    givenFields (fieldDecoders dialect fields) false (Tree.entriesToJson entries) =
      collect ((record name false fields).answers dialect entries) := by
  induction entries with
  | nil => rfl
  | cons entry rest ih =>
      rw [Tree.entriesToJson, givenFields, ih, find?_fieldDecoders, answers_cons, inner?]
      cases fields.lookup entry.1 <;> rfl

/-- Where every field is given, none is filled in. -/
theorem completed_eq {given : List (String × Json)} {fields : List (String × Presence × Shape)}
    (all : ∀ field ∈ fields, (given.lookup field.1).isSome) :
    completed given (fieldDecoders dialect fields) =
      .ok (fields.map fun field => (field.1, (given.lookup field.1).getD .null)) := by
  induction fields with
  | nil => rfl
  | cons field rest ih =>
      rcases field with ⟨name, presence, shape⟩
      rw [List.forall_mem_cons] at all
      obtain ⟨a, found⟩ := Option.isSome_iff_exists.mp all.1
      rw [fieldDecoders, completed, found, ih all.2]
      simp only [List.map_cons, found]
      rfl

variable {shape part : Shape} {entries : List (String × Tree)} {given : List (String × Json)}

/-- Under a key of a covered table, what is decoded is what the tree has there. -/
theorem lookup_given (ok : collect (shape.answers dialect entries) = .ok given) {key : String}
    {value : Tree} (found : shape.inner? key = some part)
    (there : entries.lookup key = some value) :
    ∃ b, given.lookup key = some b ∧ part.decode dialect value.toJson = .ok b := by
  have same := lookup_of_collect ok key
  rw [lookup_answers, there, found] at same
  obtain ⟨b, atGiven, result⟩ := Option.map_eq_some_iff.mp same.symm
  exact ⟨b, atGiven, under_eq_ok_iff.mp result.symm⟩

theorem lookup_given_eq_none (ok : collect (shape.answers dialect entries) = .ok given)
    {key : String} (absent : shape.inner? key = none ∨ entries.lookup key = none) :
    given.lookup key = none := by
  have same := lookup_of_collect ok key
  rw [lookup_answers] at same
  apply Option.map_eq_none_iff.mp (same.symm.trans _)
  rcases absent with absent | absent
  · rw [absent]
    cases entries.lookup key <;> rfl
  · rw [absent]
    rfl

theorem isSome_lookup_given {name : String} {strict : Bool}
    {fields : List (String × Presence × Shape)}
    (covers : (Tree.table entries).Covers (record name strict fields))
    (ok : collect ((record name strict fields).answers dialect entries) = .ok given)
    {field : String × Presence × Shape} (mem : field ∈ fields) :
    (given.lookup field.1).isSome := by
  have known : (fields.lookup field.1).isSome := by
    rw [Option.isSome_iff_ne_none]
    intro absent
    have other := List.lookup_eq_none_iff.mp absent field mem
    simp at other
  obtain ⟨first, found⟩ := Option.isSome_iff_exists.mp known
  obtain ⟨value, there, _⟩ := covers.inner found
  obtain ⟨b, atGiven, _⟩ := lookup_given ok (Option.map_eq_some_iff.mpr ⟨first, found, rfl⟩) there
  rw [atGiven]
  rfl

/-- A covered table is decoded entry by entry. -/
theorem decode_table (layered : shape.isLayered = true) (tables : shape.isTable = true)
    (covers : (Tree.table entries).Covers shape) :
    shape.decode dialect (Tree.table entries).toJson =
      (collect (shape.answers dialect entries)).map shape.assemble := by
  cases shape with
  | dict item =>
      simp only [Tree.toJson, decode, values_eq_collect]
      cases collect ((dict item).answers dialect entries) <;> rfl
  | record name strict fields =>
      have isOpen : strict = false := by
        simp only [isLayered, Bool.and_eq_true, Bool.not_eq_true'] at layered
        exact layered.1.1
      subst isOpen
      simp only [Tree.toJson, decode, Decoder.record, recordOfObject, givenFields_eq_collect name]
      cases read : collect ((record name false fields).answers dialect entries) with
      | error r => rfl
      | ok given =>
          simp only [bind, Except.bind, completed_eq fun _ => isSome_lookup_given covers read]
          rfl
  | _ => contradiction

/-- The field of an assembled document is what is given there. -/
theorem field?_assemble (layered : shape.isLayered = true) (tables : shape.isTable = true)
    (covers : (Tree.table entries).Covers shape)
    (ok : collect (shape.answers dialect entries) = .ok given) (key : String) :
    (shape.assemble given).field? key = given.lookup key := by
  cases shape with
  | dict item => rfl
  | record name strict fields =>
      have nodup : (fields.map (·.1)).Nodup := by
        simp only [isLayered, Bool.and_eq_true, decide_eq_true_eq] at layered
        exact layered.1.2
      have value : ∀ names : List (String × Presence × Shape),
          (names.map fun field => (field.1, (given.lookup field.1).getD .null)).lookup key =
            (names.lookup key).map fun _ => (given.lookup key).getD .null := by
        intro names
        induction names with
        | nil => rfl
        | cons field rest ih =>
            rw [List.map_cons, lookup_cons_eq_ite, lookup_cons_eq_ite]
            by_cases here : key = field.1
            · rw [if_pos here, if_pos here, here]
              rfl
            · rw [if_neg here, if_neg here, ih]
      rw [assemble, Json.field?_ofFields (by simpa [Function.comp_def] using nodup), value]
      cases found : fields.lookup key with
      | none =>
          have absent : (record name strict fields).inner? key = none := by rw [inner?, found]; rfl
          rw [lookup_given_eq_none ok (.inl absent)]
          rfl
      | some field =>
          have mem : (key, field) ∈ fields := by
            obtain ⟨before, after, rfl, _⟩ := List.lookup_eq_some_iff.mp found
            simp
          obtain ⟨b, atGiven⟩ := Option.isSome_iff_exists.mp (isSome_lookup_given covers ok mem)
          rw [atGiven]
          rfl
  | _ => contradiction

end Shape

/-! ## Leaf by leaf -/

namespace Tree

open Decoder

variable {shape : Shape} {dialect : Dialect} {t t' : Tree} {n : Json} {r : Refusal}

/-- The tree has a value for each field, tables where the shape has tables, and all of them in
order. -/
structure Complete (shape : Shape) (t : Tree) : Prop where
  suits : t.Suits shape
  covers : t.Covers shape
  ordered : t.Ordered

theorem Complete.below {entries : List (String × Tree)} {part : Shape} {key : String}
    {value : Tree} (complete : (table entries).Complete shape) (layered : shape.isLayered = true)
    (found : shape.inner? key = some part) (there : entries.lookup key = some value) :
    value.Complete part where
  suits := complete.suits.inner found there
  covers := complete.covers.below layered found there
  ordered := complete.ordered.lookup there

/-- A decoded document has at each leaf what the tree has there. -/
theorem at?_of_decode (layered : shape.isLayered = true) (complete : t.Complete shape)
    (ok : shape.decode dialect t.toJson = .ok n) {keys : List String} (leaf : shape.Leaf keys) :
    n.at? keys = (t.at? keys).map toJson := by
  induction keys generalizing shape t n with
  | nil =>
      obtain ⟨_, ⟨⟩, single⟩ := leaf
      have plain := Shape.isPlain_of_isLayered layered single
      rw [eq_toJson_of_decode plain (complete.suits.isTable_eq.trans single) ok]
      rfl
  | cons key keys ih =>
      obtain ⟨part, found, leaf⟩ := (shape.leaf_cons_iff key keys).mp leaf
      obtain ⟨entries, rfl⟩ := complete.suits.exists_table found
      have tables := Shape.isTable_of_inner? found
      rw [Shape.decode_table layered tables complete.covers] at ok
      cases read : collect (shape.answers dialect entries) with
      | error r =>
          rw [read] at ok
          contradiction
      | ok given =>
          rw [read] at ok
          cases ok
          rw [Json.at?, Shape.field?_assemble layered tables complete.covers read]
          cases there : entries.lookup key with
          | none =>
              rw [Shape.lookup_given_eq_none read (.inr there), at?, there]
              rfl
          | some value =>
              obtain ⟨b, atGiven, accepted⟩ := Shape.lookup_given read found there
              rw [atGiven, at?, there]
              exact ih (Shape.isLayered_of_inner? layered found)
                (complete.below layered found there) accepted leaf

theorem at?_singleton (entries : List (String × Tree)) (key : String) :
    (table entries).at? [key] = entries.lookup key := by
  rw [at?]
  cases entries.lookup key <;> rfl

/-- A covered table has a table wherever its shape has one. -/
theorem Covers.exists_lookup {entries : List (String × Tree)}
    (covers : (table entries).Covers shape) (layered : shape.isLayered = true) {key : String}
    {part : Shape} (found : shape.inner? key = some part) (tables : part.isTable = true) :
    ∃ value, entries.lookup key = some value := by
  cases shape with
  | dict item =>
      cases found
      rw [Shape.isTable_of_isPlain layered] at tables
      contradiction
  | record name strict fields =>
      obtain ⟨field, here, rfl⟩ := Option.map_eq_some_iff.mp found
      obtain ⟨value, there, _⟩ := covers.inner here
      exact ⟨value, there⟩
  | _ => contradiction

/-- The outcome depends on nothing but what is at the leaves. -/
theorem decode_congr (layered : shape.isLayered = true) (complete : t.Complete shape)
    (complete' : t'.Complete shape)
    (leaves : ∀ keys, shape.Leaf keys → t.at? keys = t'.at? keys) :
    shape.decode dialect t.toJson = shape.decode dialect t'.toJson := by
  induction shape using Shape.inner_induction generalizing t t' with
  | step shape ih =>
      cases tables : shape.isTable with
      | false =>
          have same := leaves [] ⟨shape, rfl, tables⟩
          rw [Option.some.inj same]
      | true =>
          obtain ⟨entries, rfl⟩ := exists_table_of_isTable (complete.suits.isTable_eq.trans tables)
          obtain ⟨entries', rfl⟩ :=
            exists_table_of_isTable (complete'.suits.isTable_eq.trans tables)
          have increasing := ((ordered_table_iff entries).mp complete.ordered).1
          have increasing' := ((ordered_table_iff entries').mp complete'.ordered).1
          rw [Shape.decode_table layered tables complete.covers,
            Shape.decode_table layered tables complete'.covers]
          apply congrArg fun results => (collect results).map shape.assemble
          apply (Shape.increasing_answers shape increasing).eq_of_lookup
            (Shape.increasing_answers shape increasing')
          intro key
          rw [Shape.lookup_answers, Shape.lookup_answers]
          cases found : shape.inner? key with
          | none => cases entries.lookup key <;> cases entries'.lookup key <;> rfl
          | some part =>
              cases inside : part.isTable with
              | false =>
                  have leaf : shape.Leaf [key] :=
                    ⟨part, Option.bind_eq_some_iff.mpr ⟨part, found, rfl⟩, inside⟩
                  have same := leaves [key] leaf
                  rw [at?_singleton, at?_singleton] at same
                  rw [same]
              | true =>
                  obtain ⟨value, there⟩ := complete.covers.exists_lookup layered found inside
                  obtain ⟨value', there'⟩ := complete'.covers.exists_lookup layered found inside
                  have leavesBelow : ∀ keys, part.Leaf keys → value.at? keys = value'.at? keys := by
                    intro keys leaf
                    have atKey := leaves (key :: keys)
                      ((shape.leaf_cons_iff key keys).mpr ⟨part, found, leaf⟩)
                    rwa [at?, at?, there, there'] at atKey
                  have below := ih key part found (Shape.isLayered_of_inner? layered found)
                    (complete.below layered found there) (complete'.below layered found there')
                    leavesBelow
                  rw [there, there']
                  simp only [Option.bind_some, Option.map_some, under, below]

/-- What is refused is a single value at a leaf or a part of one. -/
theorem exists_leaf_of_decode_error (layered : shape.isLayered = true)
    (complete : t.Complete shape) (error : shape.decode dialect t.toJson = .error r) :
    ∃ keys rest, r.path = keys ++ rest ∧ shape.Leaf keys ∧
      ∃ value, t.at? keys = some value ∧ (value.at? rest).isSome := by
  induction shape using Shape.inner_induction generalizing t r with
  | step shape ih =>
      cases tables : shape.isTable with
      | false =>
          have plain := Shape.isPlain_of_isLayered layered tables
          have single := complete.suits.isTable_eq.trans tables
          exact ⟨[], r.path, rfl, ⟨shape, rfl, tables⟩, t, rfl,
            isSome_at?_of_decode_error plain single error⟩
      | true =>
          obtain ⟨entries, rfl⟩ := exists_table_of_isTable (complete.suits.isTable_eq.trans tables)
          have increasing := ((ordered_table_iff entries).mp complete.ordered).1
          rw [Shape.decode_table layered tables complete.covers] at error
          cases read : collect (shape.answers dialect entries) with
          | ok given =>
              rw [read] at error
              contradiction
          | error r' =>
              rw [read] at error
              cases error
              obtain ⟨key, mem⟩ := mem_of_collect_error read
              have result := (Shape.increasing_answers shape increasing).lookup_of_mem mem
              rw [Shape.lookup_answers] at result
              obtain ⟨value, there, result⟩ := Option.bind_eq_some_iff.mp result
              obtain ⟨part, found, result⟩ := Option.map_eq_some_iff.mp result
              obtain ⟨inside, refused, rfl⟩ := under_eq_error_iff.mp result
              obtain ⟨keys, rest, path, leaf, single, atKeys, atRest⟩ :=
                ih key part found (Shape.isLayered_of_inner? layered found)
                  (complete.below layered found there) refused
              refine ⟨key :: keys, rest, congrArg (key :: ·) path,
                (shape.leaf_cons_iff key keys).mpr ⟨part, found, leaf⟩, single, ?_, atRest⟩
              rw [at?, there]
              exact atKeys

end Tree
end Courier
