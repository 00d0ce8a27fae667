import Courier.Lookup

/-!
# Dictionaries in key order

A dictionary keeps one value for each of its string keys, in increasing order
of the keys.  The order is part of the type, so that listing the keys needs no
sorting and two dictionaries with the same look-ups have the same entries.

The main statements are the look-up laws `get?_insert`, `get?_erase` and
`get?_filter`.
-/

namespace Courier

universe u

/-- Put `value` under `key` in a list that is increasing in its keys, in the
place of the value that was there. -/
def insertEntry {α : Type u} (key : String) (value : α) :
    List (String × α) → List (String × α)
  | [] => [(key, value)]
  | entry :: rest =>
      if key = entry.1 then (key, value) :: rest
      else if key < entry.1 then (key, value) :: entry :: rest
      else entry :: insertEntry key value rest

/-- Entries in strictly increasing order of their keys. -/
def Increasing {α : Type u} (entries : List (String × α)) : Prop :=
  entries.Pairwise fun a b => a.1 < b.1

theorem mem_insertEntry {α : Type u} {key : String} {value : α}
    {entries : List (String × α)} {entry : String × α}
    (h : entry ∈ insertEntry key value entries) :
    entry = (key, value) ∨ entry ∈ entries := by
  induction entries with
  | nil => simpa [insertEntry] using h
  | cons head rest ih =>
      unfold insertEntry at h
      split at h
      · rcases List.mem_cons.mp h with h | h
        · exact .inl h
        · exact .inr (List.mem_cons_of_mem _ h)
      · split at h
        · rcases List.mem_cons.mp h with h | h
          · exact .inl h
          · exact .inr h
        · rcases List.mem_cons.mp h with h | h
          · exact .inr (h ▸ List.mem_cons_self)
          · rcases ih h with h | h
            · exact .inl h
            · exact .inr (List.mem_cons_of_mem _ h)

theorem Increasing.insertEntry {α : Type u} {entries : List (String × α)}
    (h : Increasing entries) (key : String) (value : α) :
    Increasing (insertEntry key value entries) := by
  induction entries with
  | nil => simp [Courier.insertEntry, Increasing]
  | cons head rest ih =>
      have hrest : Increasing rest := List.Pairwise.of_cons h
      have hhead := (List.pairwise_cons.mp h).1
      unfold Courier.insertEntry
      split
      case isTrue heq =>
        exact List.pairwise_cons.mpr ⟨fun a ha => heq ▸ hhead a ha, hrest⟩
      case isFalse hne =>
        split
        case isTrue hlt =>
          refine List.pairwise_cons.mpr ⟨fun a ha => ?_, h⟩
          rcases List.mem_cons.mp ha with ha | ha
          · exact ha ▸ hlt
          · exact String.lt_trans hlt (hhead a ha)
        case isFalse hge =>
          refine List.pairwise_cons.mpr ⟨fun a ha => ?_, ih hrest⟩
          rcases mem_insertEntry ha with ha | ha
          · subst ha
            rcases String.le_total head.1 key with hle | hle
            · exact String.not_le.mp fun hle' => hne (String.le_antisymm hle' hle)
            · exact absurd (String.not_le.mp fun hle' =>
                hne (String.le_antisymm hle hle')) hge
          · exact hhead a ha

/-- A finite map from strings to values, listed by increasing key. -/
structure Dict (α : Type u) where
  /-- The entries, by increasing key. -/
  entries : List (String × α) := []
  /-- No key occurs twice, and smaller keys come first. -/
  increasing : Increasing entries := by exact List.Pairwise.nil

namespace Dict

variable {α : Type u} {β : Type u}

/-- The dictionary without entries. -/
def empty : Dict α := ⟨[], List.Pairwise.nil⟩

instance : EmptyCollection (Dict α) := ⟨empty⟩

instance : Inhabited (Dict α) := ⟨empty⟩

@[ext]
theorem ext {a b : Dict α} (h : a.entries = b.entries) : a = b := by
  cases a; cases b; cases h; rfl

instance [DecidableEq α] : DecidableEq (Dict α) := fun a b =>
  if h : a.entries = b.entries then isTrue (ext h)
  else isFalse fun hab => h (hab ▸ rfl)

/-- The value under a key. -/
def get? (d : Dict α) (key : String) : Option α :=
  d.entries.lookup key

/-- Whether a key has a value. -/
def contains (d : Dict α) (key : String) : Bool :=
  (d.get? key).isSome

/-- The keys, in increasing order. -/
def keys (d : Dict α) : List String :=
  d.entries.map (·.1)

/-- The number of entries. -/
def size (d : Dict α) : Nat :=
  d.entries.length

/-- Whether there is no entry. -/
def isEmpty (d : Dict α) : Bool :=
  d.entries.isEmpty

/-- Put a value under a key, in the place of the value that was there. -/
def insert (d : Dict α) (key : String) (value : α) : Dict α where
  entries := insertEntry key value d.entries
  increasing := d.increasing.insertEntry key value

/-- Keep the entries that pass a test. -/
def filter (d : Dict α) (keep : String → α → Bool) : Dict α where
  entries := d.entries.filter fun entry => keep entry.1 entry.2
  increasing := d.increasing.filter _

/-- Take a key out. -/
def erase (d : Dict α) (key : String) : Dict α :=
  d.filter fun k _ => k != key

/-- The dictionary of a list of pairs; of two values of one key the later
counts. -/
def ofList (pairs : List (String × α)) : Dict α :=
  pairs.foldl (fun d pair => d.insert pair.1 pair.2) empty

/-- The entries of both; where both have a key, the second decides. -/
def union (d e : Dict α) : Dict α :=
  e.entries.foldl (fun d pair => d.insert pair.1 pair.2) d

end Dict

/-- What a list of entries holds under a key after an insertion. -/
theorem lookup_insertEntry {α : Type u} (key : String) (value : α)
    (entries : List (String × α)) (other : String) :
    (insertEntry key value entries).lookup other =
      if other = key then some value else entries.lookup other := by
  induction entries with
  | nil => simp [insertEntry, lookup_cons_eq_ite]
  | cons head rest ih =>
      unfold insertEntry
      split
      case isTrue heq =>
        simp only [lookup_cons_eq_ite, ← heq]
        split <;> rfl
      case isFalse hne =>
        split
        · simp only [lookup_cons_eq_ite]
        · simp only [lookup_cons_eq_ite, ih]
          by_cases h : other = head.1
          · have : ¬ other = key := fun h' => hne (h' ▸ h)
            rw [if_pos h, if_pos h, if_neg this]
          · rw [if_neg h, if_neg h]

namespace Dict

variable {α : Type u}

@[simp]
theorem get?_empty (key : String) : (empty : Dict α).get? key = none :=
  rfl

/-- Inserting changes the look-up of the inserted key only. -/
theorem get?_insert (d : Dict α) (key : String) (value : α) (other : String) :
    (d.insert key value).get? other =
      if other = key then some value else d.get? other :=
  lookup_insertEntry key value d.entries other

/-- Filtering keeps the look-ups that pass the test. -/
theorem get?_filter (d : Dict α) (keep : String → α → Bool) (key : String) :
    (d.filter keep).get? key = (d.get? key).filter (keep key) := by
  obtain ⟨entries, increasing⟩ := d
  show (entries.filter fun entry => keep entry.1 entry.2).lookup key =
    (entries.lookup key).filter (keep key)
  induction entries with
  | nil => rfl
  | cons head rest ih =>
      have hrest : Increasing rest := List.Pairwise.of_cons increasing
      have hhead := (List.pairwise_cons.mp increasing).1
      have hih := ih hrest
      by_cases h : key = head.1
      · subst h
        have habsent : rest.lookup head.1 = none := by
          rw [List.lookup_eq_none_iff]
          intro p hp
          have hlt := hhead p hp
          rw [bne_iff_ne]
          intro heq
          exact String.lt_irrefl head.1 (heq ▸ hlt)
        cases hkeep : keep head.1 head.2 with
        | true =>
            simp [hkeep, lookup_cons_eq_ite, Option.filter]
        | false =>
            simp [hkeep, lookup_cons_eq_ite, Option.filter, hih, habsent]
      · cases hkeep : keep head.1 head.2 with
        | true =>
            simp [hkeep, lookup_cons_eq_ite, h, hih]
        | false =>
            simp [hkeep, lookup_cons_eq_ite, h, hih]

/-- Taking a key out changes the look-up of that key only. -/
theorem get?_erase (d : Dict α) (key other : String) :
    (d.erase key).get? other = if other = key then none else d.get? other := by
  rw [erase, get?_filter]
  by_cases h : other = key
  · subst h
    cases d.get? other <;> simp
  · cases d.get? other <;> simp [h]

end Dict

end Courier
