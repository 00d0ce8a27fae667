import Courier.Proofs.Settings.Ordered
import Courier.Settings.Loader

/-!
# What sources give

The tree of a file and that of the environment variables have their tables in order.  For
values this goes by the depth that their readers allow, and for the lines of a file by the
changes that headers and keys make to the table under construction.
-/

namespace Courier

open Courier.Tree
open Text (Reader)

/-- What a reader takes off the front of its input has a property. -/
def Text.Reader.Yields {α : Type} (read : Reader α) (P : α → Prop) : Prop :=
  ∀ {s a rest}, read s = some (a, rest) → P a

/-! ## Environment variables -/

namespace Environment

theorem ordered_of_real? {s : List Char} {t : Tree} (number : real? s = some t) : t.Ordered := by
  simp only [real?, Option.bind_eq_bind] at number
  split at number
  · split at number
    · contradiction
    · obtain ⟨power, _, same⟩ := Option.bind_eq_some_iff.mp number
      cases same
      trivial
  · contradiction

theorem ordered_of_integer? {s : List Char} {t : Tree} (number : integer? s = some t) :
    t.Ordered := by
  simp only [integer?] at number
  by_cases numeral : Text.isNumeral (Text.splitSign s).2
  · rw [if_pos numeral] at number
    split at number
    · split at number
      · cases number
        trivial
      · contradiction
    · split at number
      · cases number
        trivial
      · contradiction
  · rw [if_neg numeral] at number
    contradiction

theorem ordered_bare (s : List Char) : (bare s).Ordered := by
  simp only [bare]
  cases isReal : real? (Text.trimChars s) with
  | some t => exact ordered_of_real? isReal
  | none =>
      cases isInteger : integer? (Text.trimChars s) with
      | some t => exact ordered_of_integer? isInteger
      | none => trivial

theorem ordered_scalar : Reader.Yields scalar Ordered := by
  intro s t rest read
  unfold scalar at read
  split at read
  · cases read
    trivial
  · cases read
    trivial
  · obtain ⟨r, _, read⟩ := Option.map_eq_some_iff.mp read
    cases read
    trivial
  · cases read
    trivial
  · contradiction
  · cases read
    exact ordered_bare _

/-- Every item has what the reader of items gives them. -/
theorem yields_items {α : Type} {item : Reader α} {P : α → Prop} (yields : item.Yields P)
    (close : Char) (fuel : Nat) : Reader.Yields (items item close fuel) (∀ a ∈ ·, P a) := by
  induction fuel with
  | zero =>
      intro s as rest read
      contradiction
  | succ fuel ih =>
      intro s as rest read
      cases s with
      | nil => contradiction
      | cons c s =>
          by_cases closed : c = close
          · simp only [items, if_pos closed] at read
            cases read
            simp
          · simp only [items, if_neg closed, Option.bind_eq_bind, Option.bind_eq_some_iff] at read
            obtain ⟨⟨a, s'⟩, first, read⟩ := read
            have here := yields first
            cases s' with
            | nil => contradiction
            | cons d s' =>
                by_cases comma : d = ','
                · simp only [if_pos comma, Option.bind_eq_some_iff] at read
                  obtain ⟨⟨more, s''⟩, others, read⟩ := read
                  cases read
                  exact List.forall_mem_cons.mpr ⟨here, ih others⟩
                · by_cases last : d = close
                  · simp only [if_neg comma, if_pos last] at read
                    cases read
                    simpa using here
                  · simp only [if_neg comma, if_neg last] at read
                    contradiction

theorem yields_entry {value : Reader Tree} (yields : value.Yields Ordered) :
    Reader.Yields (entry value) fun e => e.2.Ordered := by
  intro s e rest read
  simp only [entry, Option.bind_eq_bind, Option.bind_eq_some_iff] at read
  obtain ⟨⟨name, s'⟩, _, read⟩ := read
  simp only at read
  split at read
  · simp only [Option.bind_eq_some_iff] at read
    obtain ⟨⟨t, s''⟩, first, read⟩ := read
    cases read
    exact yields first
  · contradiction

/-- Entries that are put one after the other make an ordered table. -/
theorem ordered_foldl_put {entries : List (String × Tree)}
    (ordered : ∀ e ∈ entries, e.2.Ordered) {t : Tree} (start : t.Ordered) :
    (entries.foldl (fun t e => t.put e.1 e.2) t).Ordered := by
  induction entries generalizing t with
  | nil => exact start
  | cons e rest ih =>
      rw [List.forall_mem_cons] at ordered
      exact ih ordered.2 (start.table_entries.insertEntry e.1 ordered.1)

theorem ordered_value (depth : Nat) : Reader.Yields (value depth) Ordered := by
  induction depth with
  | zero =>
      intro s t rest read
      obtain ⟨r, first, same⟩ := Option.map_eq_some_iff.mp read
      cases same
      exact ordered_scalar first
  | succ depth ih =>
      intro s t rest read
      simp only [value, Option.bind_eq_bind] at read
      split at read
      · simp only [Option.bind_eq_some_iff] at read
        obtain ⟨⟨ts, s'⟩, _, read⟩ := read
        cases read
        trivial
      · simp only [Option.bind_eq_some_iff] at read
        obtain ⟨⟨es, s'⟩, entries, read⟩ := read
        cases read
        exact ordered_foldl_put (yields_items (yields_entry ih) _ _ entries) ordered_empty
      · obtain ⟨r, first, same⟩ := Option.map_eq_some_iff.mp read
        cases same
        exact ordered_scalar first

theorem ordered_parse (text : String) : (parse text).Ordered := by
  unfold parse
  simp only
  split
  case h_1 t read => exact ordered_value _ read
  case h_2 => trivial

theorem ordered_nested (keys : List String) {t : Tree} (ordered : t.Ordered) :
    (nested keys t).Ordered := by
  induction keys with
  | nil => exact ordered
  | cons key rest ih =>
      rw [nested, ordered_table_iff]
      exact ⟨List.pairwise_singleton _ _, by simpa using ih⟩

theorem ordered_tree (pairs : List (String × String)) : (tree pairs).Ordered := by
  apply ordered_stack
  intro t mem
  obtain ⟨v, _, read⟩ := List.mem_filterMap.mp mem
  obtain ⟨keys, _, rfl⟩ := Option.map_eq_some_iff.mp read
  exact ordered_nested keys (ordered_parse v.2)

end Environment

/-! ## Files -/

namespace Toml

theorem entriesToTree_eq_map (entries : Entries) :
    entriesToTree entries = entries.map fun entry => (entry.1, entry.2.toTree) := by
  induction entries with
  | nil => rfl
  | cons entry rest ih => rw [entriesToTree, ih, List.map_cons]

theorem entriesToTree_insertEntry (key : String) (item : Item) (entries : Entries) :
    entriesToTree (insertEntry key item entries) =
      insertEntry key item.toTree (entriesToTree entries) := by
  induction entries with
  | nil => rfl
  | cons entry rest ih =>
      simp only [insertEntry, entriesToTree]
      by_cases same : key = entry.1
      · rw [if_pos same, if_pos same]
        rfl
      · rw [if_neg same, if_neg same]
        by_cases before : key < entry.1
        · rw [if_pos before, if_pos before]
          rfl
        · rw [if_neg before, if_neg before, entriesToTree, ih]

namespace Entries

/-- The tree that the entries stand for has its tables in order. -/
def Ordered (entries : Entries) : Prop :=
  (Tree.table (entriesToTree entries)).Ordered

theorem ordered_nil : Ordered [] :=
  ordered_empty

theorem Ordered.insertEntry {entries : Entries} (ordered : entries.Ordered) (key : String)
    {item : Item} (value : item.toTree.Ordered) :
    Ordered (Courier.insertEntry key item entries) := by
  rw [Ordered, entriesToTree_insertEntry]
  exact Tree.Ordered.insertEntry ordered key value

theorem Ordered.lookup {entries : Entries} (ordered : entries.Ordered) {key : String} {item : Item}
    (found : entries.lookup key = some item) : item.toTree.Ordered := by
  obtain ⟨before, after, rfl, _⟩ := List.lookup_eq_some_iff.mp found
  rw [Ordered, entriesToTree_eq_map, ordered_table_iff] at ordered
  exact ordered.2 (key, item.toTree) (by simp)

/-- The change makes ordered entries of ordered entries. -/
def KeepsOrder (change : Change) : Prop :=
  ∀ {making entries entries'}, Ordered entries → change making entries = some entries' →
    Ordered entries'

theorem keepsOrder_alter {change : Change} (keeps : KeepsOrder change) (byDots : Bool)
    (path : List String) : KeepsOrder (alter change byDots path) := by
  induction path with
  | nil => exact keeps
  | cons key path ih =>
      intro making entries entries' ordered altered
      simp only [alter, Option.bind_eq_bind] at altered
      split at altered
      · obtain ⟨inner, innerAltered, same⟩ := Option.bind_eq_some_iff.mp altered
        cases same
        exact ordered.insertEntry key (ih ordered_nil innerAltered)
      · rename_i found
        split at altered
        · contradiction
        · obtain ⟨inner, innerAltered, same⟩ := Option.bind_eq_some_iff.mp altered
          cases same
          exact ordered.insertEntry key (ih (ordered.lookup found) innerAltered)
      · obtain ⟨last, _, altered⟩ := Option.bind_eq_some_iff.mp altered
        obtain ⟨inner, _, same⟩ := Option.bind_eq_some_iff.mp altered
        cases same
        exact ordered.insertEntry key trivial
      · contradiction

theorem keepsOrder_putNew (key : String) {t : Tree} (value : t.Ordered) (byDots : Bool) :
    KeepsOrder (putNew key t byDots) := by
  intro making entries entries' ordered put
  unfold putNew at put
  split at put
  · contradiction
  · split at put
    · contradiction
    · cases put
      exact ordered.insertEntry key value

theorem keepsOrder_putAt (path : List String) {t : Tree} (value : t.Ordered) :
    KeepsOrder (putAt path t) := by
  intro making entries entries' ordered put
  obtain ⟨key, _, altered⟩ := Option.bind_eq_some_iff.mp put
  exact keepsOrder_alter (keepsOrder_putNew key value _) _ _ ordered altered

theorem keepsOrder_declare (key : String) : KeepsOrder (declare key) := by
  intro making entries entries' ordered declared
  unfold declare at declared
  split at declared
  · cases declared
    exact ordered.insertEntry key ordered_nil
  · rename_i inner found
    have inside : (Item.table .passed inner).toTree.Ordered := ordered.lookup found
    cases declared
    exact ordered.insertEntry key inside
  · contradiction

theorem keepsOrder_declareNext (key : String) : KeepsOrder (declareNext key) := by
  intro making entries entries' ordered declared
  unfold declareNext at declared
  split at declared
  · cases declared
    exact ordered.insertEntry key trivial
  · cases declared
    exact ordered.insertEntry key trivial
  · contradiction

end Entries

/-! ### Values -/

theorem ordered_of_inRange {z : Int} {t : Tree} (number : inRange z = some t) : t.Ordered := by
  unfold inRange at number
  split at number
  · cases number
    trivial
  · contradiction

theorem ordered_integer : Reader.Yields integer Tree.Ordered := by
  have inBase : ∀ base, Reader.Yields (integerIn base) Tree.Ordered := by
    intro base s t rest number
    obtain ⟨⟨ds, s'⟩, _, number⟩ := Option.bind_eq_some_iff.mp number
    obtain ⟨z, ranged, same⟩ := Option.bind_eq_some_iff.mp number
    cases same
    exact ordered_of_inRange ranged
  intro s t rest number
  unfold integer at number
  split at number
  · exact inBase 16 number
  · exact inBase 8 number
  · exact inBase 2 number
  · simp only [decimalInteger, Option.bind_eq_bind] at number
    obtain ⟨⟨ds, s'⟩, _, number⟩ := Option.bind_eq_some_iff.mp number
    obtain ⟨z, ranged, same⟩ := Option.bind_eq_some_iff.mp number
    cases same
    exact ordered_of_inRange ranged

theorem ordered_real : Reader.Yields real Tree.Ordered := by
  intro s t rest number
  rcases Option.or_eq_some_iff.mp number with number | ⟨_, number⟩
  · simp only [decimalReal, Option.bind_eq_bind] at number
    obtain ⟨⟨whole, s'⟩, _, number⟩ := Option.bind_eq_some_iff.mp number
    obtain ⟨⟨fraction, s'⟩, _, number⟩ := Option.bind_eq_some_iff.mp number
    obtain ⟨⟨power, s'⟩, _, number⟩ := Option.bind_eq_some_iff.mp number
    simp only at number
    split at number
    · contradiction
    · split at number
      · contradiction
      · cases number
        trivial
  · unfold specialReal at number
    split at number
    · cases number
      trivial
    · cases number
      trivial
    · contradiction

theorem ordered_moment : Reader.Yields moment Tree.Ordered := by
  intro s t rest read
  obtain ⟨r, _, same⟩ := Option.map_eq_some_iff.mp read
  cases same
  rw [ordered_table_iff]
  exact ⟨List.pairwise_singleton _ _, by simp [Tree.Ordered]⟩

theorem ordered_scalar : Reader.Yields scalar Tree.Ordered := by
  intro s t rest read
  unfold scalar at read
  split at read
  · contradiction
  · split at read
    · obtain ⟨r, _, same⟩ := Option.map_eq_some_iff.mp read
      cases same
      trivial
    · split at read
      · cases read
        trivial
      · cases read
        trivial
      · rcases Option.or_eq_some_iff.mp read with read | ⟨_, read⟩
        · exact ordered_moment read
        · rcases Option.or_eq_some_iff.mp read with read | ⟨_, read⟩
          · exact ordered_real read
          · exact ordered_integer read

theorem yields_pair {value : Reader Tree} (yields : value.Yields Tree.Ordered) :
    Reader.Yields (pair value) fun p => p.2.Ordered := by
  intro s p rest read
  obtain ⟨⟨path, s'⟩, _, read⟩ := Option.bind_eq_some_iff.mp read
  simp only at read
  split at read
  · obtain ⟨⟨t, s''⟩, first, same⟩ := Option.bind_eq_some_iff.mp read
    cases same
    exact yields first
  · contradiction

theorem yields_pairs {value : Reader Tree} (yields : value.Yields Tree.Ordered) (fuel : Nat) :
    Reader.Yields (pairs value fuel) (∀ p ∈ ·, p.2.Ordered) := by
  induction fuel with
  | zero =>
      intro s ps rest read
      contradiction
  | succ fuel ih =>
      intro s ps rest read
      obtain ⟨⟨p, s'⟩, first, read⟩ := Option.bind_eq_some_iff.mp read
      have here := yields_pair yields first
      simp only at read
      split at read
      · cases read
        simpa using here
      · obtain ⟨⟨more, s''⟩, others, same⟩ := Option.bind_eq_some_iff.mp read
        cases same
        exact List.forall_mem_cons.mpr ⟨here, ih others⟩
      · contradiction

/-- Values that are put one after the other make an ordered table. -/
theorem ordered_foldlM_putAt {ps : List (List String × Tree)} (values : ∀ p ∈ ps, p.2.Ordered)
    {entries entries' : Entries} (start : entries.Ordered)
    (put : ps.foldlM (fun entries p => Entries.putAt p.1 p.2 .declared entries) entries =
      some entries') : entries'.Ordered := by
  induction ps generalizing entries with
  | nil =>
      cases put
      exact start
  | cons p rest ih =>
      rw [List.forall_mem_cons] at values
      rw [List.foldlM_cons] at put
      obtain ⟨middle, first, others⟩ := Option.bind_eq_some_iff.mp put
      exact ih values.2 (Entries.keepsOrder_putAt p.1 values.1 start first) others

theorem yields_inlineTable {value : Reader Tree} (yields : value.Yields Tree.Ordered) :
    Reader.Yields (inlineTable value) Tree.Ordered := by
  intro s t rest read
  simp only [inlineTable, Option.bind_eq_bind] at read
  split at read
  · cases read
    exact ordered_empty
  · obtain ⟨⟨ps, s'⟩, values, read⟩ := Option.bind_eq_some_iff.mp read
    obtain ⟨entries, put, same⟩ := Option.bind_eq_some_iff.mp read
    cases same
    exact ordered_foldlM_putAt (yields_pairs yields _ values) Entries.ordered_nil put

theorem ordered_value (depth : Nat) : Reader.Yields (value depth) Tree.Ordered := by
  induction depth with
  | zero =>
      intro s t rest read
      exact ordered_scalar read
  | succ depth ih =>
      intro s t rest read
      unfold value at read
      split at read
      · obtain ⟨r, _, same⟩ := Option.map_eq_some_iff.mp read
        cases same
        trivial
      · exact yields_inlineTable ih read
      · exact ordered_scalar read

/-! ### Lines -/

theorem ordered_open? {change : String → Change} (keeps : ∀ key, Entries.KeepsOrder (change key))
    {path : List String} {d d' : Draft} (ordered : d.root.Ordered)
    (opened : d.open? change path = some d') : d'.root.Ordered := by
  obtain ⟨key, _, opened⟩ := Option.bind_eq_some_iff.mp opened
  obtain ⟨root, altered, same⟩ := Option.bind_eq_some_iff.mp opened
  cases same
  exact Entries.keepsOrder_alter (keeps key) false _ ordered altered

theorem ordered_put? {path : List String} {t : Tree} (value : t.Ordered) {d d' : Draft}
    (ordered : d.root.Ordered) (put : d.put? path t = some d') : d'.root.Ordered := by
  obtain ⟨root, altered, same⟩ := Option.bind_eq_some_iff.mp put
  cases same
  exact Entries.keepsOrder_alter (Entries.keepsOrder_putAt path value) false _ ordered altered

/-- One line of a file keeps the order. -/
theorem yields_line {d : Draft} (ordered : d.root.Ordered) :
    Reader.Yields (line d) fun d' => d'.root.Ordered := by
  intro s d' rest read
  unfold line at read
  split at read
  · obtain ⟨⟨path, s'⟩, _, read⟩ := Option.bind_eq_some_iff.mp read
    obtain ⟨d'', opened, same⟩ := Option.bind_eq_some_iff.mp read
    cases same
    exact ordered_open? Entries.keepsOrder_declareNext ordered opened
  · obtain ⟨⟨path, s'⟩, _, read⟩ := Option.bind_eq_some_iff.mp read
    obtain ⟨d'', opened, same⟩ := Option.bind_eq_some_iff.mp read
    cases same
    exact ordered_open? Entries.keepsOrder_declare ordered opened
  · obtain ⟨⟨⟨path, t⟩, s'⟩, value, read⟩ := Option.bind_eq_some_iff.mp read
    obtain ⟨d'', put, read⟩ := Option.bind_eq_some_iff.mp read
    obtain ⟨s'', _, same⟩ := Option.bind_eq_some_iff.mp read
    cases same
    exact ordered_put? (yields_pair (ordered_value _) value) ordered put

theorem ordered_lines {fuel : Nat} {d d' : Draft} {s : List Char} (ordered : d.root.Ordered)
    (read : lines fuel d s = some d') : d'.root.Ordered := by
  induction fuel generalizing d s with
  | zero => contradiction
  | succ fuel ih =>
      simp only [lines, Option.bind_eq_bind] at read
      split at read
      · cases read
        exact ordered
      · split at read
        · exact ih ordered read
        · obtain ⟨⟨middle, rest⟩, first, read⟩ := Option.bind_eq_some_iff.mp read
          exact ih (yields_line ordered first) read

theorem ordered_parse {text : String} {t : Tree} (read : parse text = some t) : t.Ordered := by
  obtain ⟨d, drafted, rfl⟩ := Option.map_eq_some_iff.mp read
  have start : (Draft.root {}).Ordered := Entries.ordered_nil
  exact ordered_lines start drafted

end Toml

end Courier
