import Courier.Proofs.Dictionary
import Courier.Proofs.Settings.Ordered
import Courier.Settings.Document

/-!
# Trees laid over each other, place by place

A shape has places: what the keys of its records and dictionaries lead to.  At some of
them it has tables and at the others, its leaves, single values.  Where trees have tables
and single values as the shape does, the tree that is laid over another decides at each leaf
where it says anything, and the lower one decides at the other leaves
(`Tree.at?_overlay_of_leaf`).  For many trees this is `Tree.at?_stack`: the last one that says
anything at a leaf decides there.
-/

namespace Courier

/-! ## Places -/

namespace Shape

/-- Whether values of the shape are tables. -/
def isTable : Shape → Bool
  | dict _ => true
  | record _ _ _ => true
  | _ => false

/-- The shape of what is under a key. -/
def inner? (key : String) : Shape → Option Shape
  | dict item => some item
  | record _ _ fields => (fields.lookup key).map (·.2)
  | _ => none

/-- The shape of what is at a place. -/
def at? : (keys : List String) → Shape → Option Shape
  | [], shape => some shape
  | key :: keys, shape => (shape.inner? key).bind (at? keys)

/-- A place of a single value. -/
def Leaf (shape : Shape) (keys : List String) : Prop :=
  ∃ leaf, shape.at? keys = some leaf ∧ leaf.isTable = false

theorem isTable_of_inner? {shape inner : Shape} {key : String}
    (found : shape.inner? key = some inner) : shape.isTable = true := by
  cases shape with
  | dict item => rfl
  | record name strict fields => rfl
  | _ => contradiction

theorem leaf_cons_iff (shape : Shape) (key : String) (keys : List String) :
    shape.Leaf (key :: keys) ↔ ∃ inner, shape.inner? key = some inner ∧ inner.Leaf keys := by
  constructor
  · rintro ⟨leaf, found, single⟩
    obtain ⟨inner, here, below⟩ := Option.bind_eq_some_iff.mp found
    exact ⟨inner, here, leaf, below, single⟩
  · rintro ⟨inner, here, leaf, below, single⟩
    exact ⟨leaf, Option.bind_eq_some_iff.mpr ⟨inner, here, below⟩, single⟩

end Shape

namespace Tree

/-- Whether a value is a table. -/
def isTable : Tree → Bool
  | table _ => true
  | _ => false

/-- The tree has tables where the shape has, and single values at its leaves. -/
def Suits (shape : Shape) (t : Tree) : Prop :=
  ∀ path inner value, shape.at? path = some inner → t.at? path = some value →
    value.isTable = inner.isTable

variable {shape part : Shape} {t low high value : Tree} {key : String} {path : List String}

theorem Suits.isTable_eq (suits : t.Suits shape) : t.isTable = shape.isTable :=
  suits [] shape t rfl rfl

theorem exists_table_of_isTable (isTable : t.isTable = true) : ∃ entries, t = table entries := by
  cases t with
  | table entries => exact ⟨entries, rfl⟩
  | _ => contradiction

/-- A tree that suits a shape with something under a key is a table. -/
theorem Suits.exists_table (suits : t.Suits shape) (found : shape.inner? key = some part) :
    ∃ entries, t = table entries := by
  apply exists_table_of_isTable
  rw [suits.isTable_eq, Shape.isTable_of_inner? found]

theorem Suits.inner {entries : List (String × Tree)} (suits : (table entries).Suits shape)
    (found : shape.inner? key = some part) (there : entries.lookup key = some value) :
    value.Suits part := by
  intro path innermost below atShape atTree
  apply suits (key :: path) innermost below
  · exact Option.bind_eq_some_iff.mpr ⟨part, found, atShape⟩
  · exact Option.bind_eq_some_iff.mpr ⟨value, there, atTree⟩

/-- Only a single value is at a leaf. -/
theorem Suits.isTable_of_leaf (suits : t.Suits shape) (leaf : shape.Leaf path)
    (there : t.at? path = some value) : value.isTable = false := by
  rcases leaf with ⟨inner, found, single⟩
  rw [suits path inner value found there, single]

theorem suits_empty (tables : shape.isTable = true) : empty.Suits shape := by
  intro path inner value atShape atTree
  cases path with
  | nil =>
      cases atShape
      cases atTree
      exact tables.symm
  | cons key path => contradiction

/-! ## Laying over -/

/-- What is found under both of two keys, the second laid over the first. -/
def laid : (low high : Option Tree) → Option Tree
  | low, none => low
  | none, some high => some high
  | some low, some high => some (low.overlay high)

theorem lookup_overlayEntries {low high : List (String × Tree)} (increasing : Increasing high)
    (key : String) :
    (overlayEntries low high).lookup key = laid (low.lookup key) (high.lookup key) := by
  induction high generalizing low with
  | nil => rfl
  | cons entry rest ih =>
      rcases entry with ⟨first, value⟩
      rw [overlayEntries, ih increasing.of_cons, lookup_insertEntry, lookup_cons_eq_ite]
      by_cases same : key = first
      · subst same
        rw [if_pos rfl, if_pos rfl, increasing.lookup_rest]
        cases low.lookup key <;> rfl
      · rw [if_neg same, if_neg same]

theorem isTable_overlay (low high : Tree) : (low.overlay high).isTable = high.isTable := by
  cases high <;> rfl

/-- A single value replaces what is there. -/
theorem overlay_of_single (low : Tree) (single : high.isTable = false) :
    low.overlay high = high := by
  cases high with
  | table entries => contradiction
  | _ => rfl

/-- Where both trees suit the shape, what is at a place is laid over what is there. -/
theorem at?_overlay (lowSuits : low.Suits shape) (highSuits : high.Suits shape)
    (ordered : high.Ordered) (found : shape.at? path = some part) :
    (low.overlay high).at? path = laid (low.at? path) (high.at? path) := by
  induction path generalizing shape low high with
  | nil => rfl
  | cons key path ih =>
      obtain ⟨under, here, below⟩ := Option.bind_eq_some_iff.mp found
      obtain ⟨lowEntries, rfl⟩ := lowSuits.exists_table here
      obtain ⟨highEntries, rfl⟩ := highSuits.exists_table here
      have increasing := ((ordered_table_iff highEntries).mp ordered).1
      simp only [overlay, entries, at?, lookup_overlayEntries increasing]
      cases inHigh : highEntries.lookup key with
      | none => rfl
      | some above =>
          cases inLow : lowEntries.lookup key with
          | none =>
              show at? path above = laid none (at? path above)
              cases at? path above <;> rfl
          | some beneath =>
              exact ih (lowSuits.inner here inLow) (highSuits.inner here inHigh)
                (ordered.lookup inHigh) below

theorem Suits.overlay (lowSuits : low.Suits shape) (highSuits : high.Suits shape)
    (ordered : high.Ordered) : (low.overlay high).Suits shape := by
  intro path inner value atShape atTree
  rw [at?_overlay lowSuits highSuits ordered atShape] at atTree
  cases inHigh : high.at? path with
  | none =>
      rw [inHigh] at atTree
      exact lowSuits path inner value atShape atTree
  | some above =>
      have tables := highSuits path inner above atShape inHigh
      cases inLow : low.at? path with
      | none =>
          rw [inHigh, inLow] at atTree
          cases atTree
          exact tables
      | some beneath =>
          rw [inHigh, inLow] at atTree
          cases atTree
          rw [isTable_overlay]
          exact tables

/-- At a leaf the upper tree decides if it says anything there. -/
theorem at?_overlay_of_leaf (lowSuits : low.Suits shape) (highSuits : high.Suits shape)
    (ordered : high.Ordered) (leaf : shape.Leaf path) :
    (low.overlay high).at? path = (high.at? path).or (low.at? path) := by
  have single : ∀ {above}, high.at? path = some above → above.isTable = false :=
    fun inHigh => highSuits.isTable_of_leaf leaf inHigh
  obtain ⟨_, found, _⟩ := leaf
  rw [at?_overlay lowSuits highSuits ordered found]
  cases inHigh : high.at? path with
  | none => rfl
  | some above =>
      cases low.at? path with
      | none => rfl
      | some beneath =>
          rw [laid, overlay_of_single beneath (single inHigh)]
          rfl

/-! ## Many trees -/

theorem suits_foldl_overlay {trees : List Tree} (suits : ∀ t ∈ trees, t.Suits shape)
    (ordered : ∀ t ∈ trees, t.Ordered) (lowSuits : low.Suits shape) :
    (trees.foldl overlay low).Suits shape := by
  induction trees generalizing low with
  | nil => exact lowSuits
  | cons t rest ih =>
      rw [List.forall_mem_cons] at suits ordered
      exact ih suits.2 ordered.2 (lowSuits.overlay suits.1 ordered.1)

theorem at?_foldl_overlay {trees : List Tree} (suits : ∀ t ∈ trees, t.Suits shape)
    (ordered : ∀ t ∈ trees, t.Ordered) (lowSuits : low.Suits shape) (leaf : shape.Leaf path) :
    (trees.foldl overlay low).at? path =
      (trees.reverse.findSome? (at? path)).or (low.at? path) := by
  induction trees generalizing low with
  | nil => rfl
  | cons t rest ih =>
      rw [List.forall_mem_cons] at suits ordered
      rw [List.foldl_cons, ih suits.2 ordered.2 (lowSuits.overlay suits.1 ordered.1),
        at?_overlay_of_leaf lowSuits suits.1 ordered.1 leaf, List.reverse_cons,
        List.findSome?_append, Option.or_assoc]
      simp

/-- Trees that suit a shape make up one that suits it. -/
theorem suits_stack {trees : List Tree} (tables : shape.isTable = true)
    (suits : ∀ t ∈ trees, t.Suits shape) (ordered : ∀ t ∈ trees, t.Ordered) :
    (stack trees).Suits shape :=
  suits_foldl_overlay suits ordered (suits_empty tables)

/-- At a leaf the last tree decides that says anything there. -/
theorem at?_stack {trees : List Tree} (tables : shape.isTable = true)
    (suits : ∀ t ∈ trees, t.Suits shape) (ordered : ∀ t ∈ trees, t.Ordered)
    (leaf : shape.Leaf path) :
    (stack trees).at? path = trees.reverse.findSome? (at? path) := by
  have nothing : empty.at? path = none := by
    cases path with
    | nil =>
        rcases leaf with ⟨_, ⟨⟩, single⟩
        rw [tables] at single
        contradiction
    | cons key path => rfl
  rw [stack, at?_foldl_overlay suits ordered (suits_empty tables) leaf, nothing, Option.or_none]

end Tree

/-! ## Places that are always there -/

namespace Shape

/-- The shape at a place that fields of records lead to. -/
def fixed? : (keys : List String) → Shape → Option Shape
  | [], shape => some shape
  | key :: keys, record _ _ fields => (fields.lookup key).bind fun field => fixed? keys field.2
  | _ :: _, _ => none

theorem at?_of_fixed? {shape inner : Shape} {keys : List String}
    (found : shape.fixed? keys = some inner) : shape.at? keys = some inner := by
  induction keys generalizing shape with
  | nil => exact found
  | cons key keys ih =>
      cases shape with
      | record name strict fields =>
          obtain ⟨field, here, below⟩ := Option.bind_eq_some_iff.mp found
          apply Option.bind_eq_some_iff.mpr
          exact ⟨field.2, Option.map_eq_some_iff.mpr ⟨field, here, rfl⟩, ih below⟩
      | _ => contradiction

end Shape

namespace Tree

/-- The tree says something under each field of each record. -/
def Covers (shape : Shape) (t : Tree) : Prop :=
  ∀ path inner, shape.fixed? path = some inner → (t.at? path).isSome

variable {shape : Shape} {t low high : Tree}

theorem isSome_laid (low high : Option Tree) :
    (laid low high).isSome = (low.isSome || high.isSome) := by
  cases low <;> cases high <;> rfl

/-- What covers a shape does so under or over another tree. -/
theorem covers_overlay (lowSuits : low.Suits shape) (highSuits : high.Suits shape)
    (ordered : high.Ordered) (covers : low.Covers shape ∨ high.Covers shape) :
    (low.overlay high).Covers shape := by
  intro path inner found
  rw [at?_overlay lowSuits highSuits ordered (Shape.at?_of_fixed? found), isSome_laid]
  rcases covers with covers | covers
  · rw [covers path inner found, Bool.true_or]
  · rw [covers path inner found, Bool.or_true]

theorem covers_foldl_overlay {trees : List Tree} (suits : ∀ t ∈ trees, t.Suits shape)
    (ordered : ∀ t ∈ trees, t.Ordered) (lowSuits : low.Suits shape) (covers : low.Covers shape) :
    (trees.foldl overlay low).Covers shape := by
  induction trees generalizing low with
  | nil => exact covers
  | cons t rest ih =>
      rw [List.forall_mem_cons] at suits ordered
      exact ih suits.2 ordered.2 (lowSuits.overlay suits.1 ordered.1)
        (covers_overlay lowSuits suits.1 ordered.1 (.inl covers))

/-- Trees on top of one that covers the shape cover it. -/
theorem covers_stack {trees : List Tree} (tables : shape.isTable = true)
    (suits : ∀ t' ∈ t :: trees, t'.Suits shape) (ordered : ∀ t' ∈ t :: trees, t'.Ordered)
    (covers : t.Covers shape) : (stack (t :: trees)).Covers shape := by
  rw [List.forall_mem_cons] at suits ordered
  apply covers_foldl_overlay suits.2 ordered.2
  · exact (suits_empty tables).overlay suits.1 ordered.1
  · exact covers_overlay (suits_empty tables) suits.1 ordered.1 (.inr covers)

theorem Covers.inner {entries : List (String × Tree)} {name : String} {strict : Bool}
    {fields : List (String × Presence × Shape)}
    (covers : (table entries).Covers (.record name strict fields)) {key : String}
    {field : Presence × Shape} (found : fields.lookup key = some field) :
    ∃ value, entries.lookup key = some value ∧ value.Covers field.2 := by
  have here := covers [key] field.2 (Option.bind_eq_some_iff.mpr ⟨field, found, rfl⟩)
  obtain ⟨value, there⟩ := Option.isSome_iff_exists.mp here
  obtain ⟨_, there, same⟩ := Option.bind_eq_some_iff.mp there
  cases same
  refine ⟨value, there, ?_⟩
  intro path inner below
  have deeper := covers (key :: path) inner (Option.bind_eq_some_iff.mpr ⟨field, found, below⟩)
  simpa only [at?, there, Option.bind_some] using deeper

end Tree

end Courier
