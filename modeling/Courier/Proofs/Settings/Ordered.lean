import Courier.Settings.Tree

/-!
# Tables in order

Every source of settings gives its tables with increasing keys: settings of the program by
the order of the fields of a document, files and variables because a value is put under a
key by `insertEntry` wherever it comes from.  Laying trees over each other keeps the order.

Only tables that are reached through tables matter, since lists are replaced as a whole.
-/

namespace Courier

namespace Tree

mutual

/-- Each table has increasing keys. -/
def Ordered : Tree → Prop
  | table entries => Increasing entries ∧ EntriesOrdered entries
  | _ => True

/-- Each table among the values of entries has increasing keys. -/
def EntriesOrdered : List (String × Tree) → Prop
  | [] => True
  | (_, t) :: rest => t.Ordered ∧ EntriesOrdered rest

end

theorem entriesOrdered_iff (entries : List (String × Tree)) :
    EntriesOrdered entries ↔ ∀ entry ∈ entries, entry.2.Ordered := by
  induction entries with
  | nil => simp [EntriesOrdered]
  | cons entry rest ih => simp [EntriesOrdered, ih]

theorem ordered_table_iff (entries : List (String × Tree)) :
    (table entries).Ordered ↔ Increasing entries ∧ ∀ entry ∈ entries, entry.2.Ordered := by
  rw [Ordered, entriesOrdered_iff]

theorem ordered_empty : empty.Ordered :=
  (ordered_table_iff []).mpr ⟨List.Pairwise.nil, by simp⟩

theorem Ordered.table_entries {t : Tree} (ordered : t.Ordered) : (table t.entries).Ordered := by
  cases t with
  | table entries => exact ordered
  | _ => exact ordered_empty

theorem Ordered.lookup {entries : List (String × Tree)} (ordered : (table entries).Ordered)
    {key : String} {t : Tree} (found : entries.lookup key = some t) : t.Ordered := by
  obtain ⟨before, after, rfl, _⟩ := List.lookup_eq_some_iff.mp found
  exact ((ordered_table_iff _).mp ordered).2 (key, t) (by simp)

theorem Ordered.insertEntry {entries : List (String × Tree)} (ordered : (table entries).Ordered)
    (key : String) {t : Tree} (value : t.Ordered) :
    (table (insertEntry key t entries)).Ordered := by
  rw [ordered_table_iff] at ordered ⊢
  refine ⟨ordered.1.insertEntry key t, ?_⟩
  intro entry mem
  rcases mem_insertEntry mem with rfl | mem
  · exact value
  · exact ordered.2 entry mem

/-! ## Laying over -/

mutual

theorem Ordered.overlay {low : Tree} (lowOrdered : low.Ordered) :
    ∀ {high : Tree}, high.Ordered → (low.overlay high).Ordered
  | .table highEntries, highOrdered => by
      rw [Tree.overlay]
      rw [Tree.Ordered] at highOrdered
      exact lowOrdered.table_entries.overlayEntries highOrdered.2
  | .null, _ => trivial
  | .bool _, _ => trivial
  | .integer _ _, _ => trivial
  | .real _, _ => trivial
  | .letter _, _ => trivial
  | .text _, _ => trivial
  | .list _, _ => trivial

theorem Ordered.overlayEntries {low : List (String × Tree)} (lowOrdered : (table low).Ordered) :
    ∀ {high : List (String × Tree)}, EntriesOrdered high →
      (table (overlayEntries low high)).Ordered
  | [], _ => lowOrdered
  | (key, value) :: rest, highOrdered => by
      rw [EntriesOrdered] at highOrdered
      rw [Tree.overlayEntries]
      apply Ordered.overlayEntries _ highOrdered.2
      apply lowOrdered.insertEntry key
      split
      case h_1 under found => exact (lowOrdered.lookup found).overlay highOrdered.1
      case h_2 => exact highOrdered.1

end

theorem ordered_stack {trees : List Tree} (ordered : ∀ t ∈ trees, t.Ordered) :
    (stack trees).Ordered := by
  have above : ∀ low : Tree, low.Ordered → (trees.foldl overlay low).Ordered := by
    induction trees with
    | nil => exact fun low lowOrdered => lowOrdered
    | cons t rest ih =>
        rw [List.forall_mem_cons] at ordered
        exact fun low lowOrdered => ih ordered.2 _ (lowOrdered.overlay ordered.1)
  exact above empty ordered_empty

/-! ## Documents -/

theorem entriesOfJson_eq_map (fields : List (String × Json)) :
    entriesOfJson fields = fields.map fun field => (field.1, ofJson field.2) := by
  induction fields with
  | nil => rfl
  | cons field rest ih => rw [entriesOfJson, ih, List.map_cons]

theorem ordered_ofJson_object {fields : List (String × Json)} (increasing : Increasing fields)
    (ordered : ∀ field ∈ fields, (ofJson field.2).Ordered) :
    (ofJson (.object fields)).Ordered := by
  rw [ofJson, entriesOfJson_eq_map, ordered_table_iff]
  constructor
  · rw [Increasing, List.pairwise_map]
    exact increasing
  · intro entry mem
    obtain ⟨field, fieldMem, rfl⟩ := List.mem_map.mp mem
    exact ordered field fieldMem

theorem ordered_ofJson_ofFields {pairs : List (String × Json)}
    (ordered : ∀ pair ∈ pairs, (ofJson pair.2).Ordered) :
    (ofJson (.ofFields pairs)).Ordered := by
  have inserted : ∀ (pairs fields : List (String × Json)),
      (∀ pair ∈ pairs, (ofJson pair.2).Ordered) → Increasing fields →
      (∀ field ∈ fields, (ofJson field.2).Ordered) →
      (ofJson (.object (pairs.foldl (fun fields pair => Courier.insertEntry pair.1 pair.2 fields)
        fields))).Ordered := by
    intro pairs
    induction pairs with
    | nil => exact fun fields _ increasing rest => ordered_ofJson_object increasing rest
    | cons pair others ih =>
        intro fields ordered increasing orderedFields
        rw [List.forall_mem_cons] at ordered
        apply ih _ ordered.2 (increasing.insertEntry pair.1 pair.2)
        intro field mem
        rcases mem_insertEntry mem with rfl | mem
        · exact ordered.1
        · exact orderedFields field mem
  exact inserted pairs [] ordered List.Pairwise.nil (by simp)

end Tree

end Courier
