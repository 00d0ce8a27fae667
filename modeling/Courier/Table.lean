import Courier.Lookup

/-!
# Tables

A table keeps one value for each of its keys.  The order of the entries has no
meaning.
-/

namespace Courier

universe u v

/-- A finite map from keys to values. -/
structure Table (κ : Type u) (α : Type v) where
  entries : List (κ × α)
  /-- No key occurs twice. -/
  distinct : (entries.map (·.1)).Nodup

namespace Table

variable {κ : Type u} {α : Type v}

/-- The table without entries. -/
def empty : Table κ α := ⟨[], List.Pairwise.nil⟩

instance : Inhabited (Table κ α) := ⟨empty⟩

/-- Whether there is no entry. -/
def isEmpty (t : Table κ α) : Bool :=
  t.entries.isEmpty

variable [DecidableEq κ]

/-- The value under a key. -/
def get? (t : Table κ α) (key : κ) : Option α :=
  t.entries.lookup key

/-- Keep the entries with other keys. -/
def without (entries : List (κ × α)) (key : κ) : List (κ × α) :=
  entries.filter fun entry => entry.1 ≠ key

/-- Take a key out. -/
def erase (t : Table κ α) (key : κ) : Table κ α where
  entries := without t.entries key
  distinct := t.distinct.sublist (List.filter_sublist.map _)

/-- Put a value under a key, in the place of the value that was there. -/
def insert (t : Table κ α) (key : κ) (value : α) : Table κ α where
  entries := (key, value) :: without t.entries key
  distinct := by
    rw [List.map_cons, List.nodup_cons]
    refine ⟨?_, t.distinct.sublist (List.filter_sublist.map _)⟩
    intro h
    obtain ⟨entry, hentry, heq⟩ := List.mem_map.mp h
    simp [without] at hentry
    exact hentry.2 heq

theorem lookup_without (entries : List (κ × α)) (key other : κ) :
    (without entries key).lookup other =
      if other = key then none else entries.lookup other := by
  induction entries with
  | nil => simp [without]
  | cons entry rest ih =>
      simp only [without, ne_eq, decide_not, List.filter_cons] at ih ⊢
      by_cases hk : entry.1 = key
      · by_cases ho : other = key
        · simpa [hk, ho] using ih
        · simpa [hk, ho, lookup_cons_eq_ite] using ih
      · by_cases ho : other = entry.1
        · simp [hk, ho, lookup_cons_eq_ite]
        · simpa [hk, ho, lookup_cons_eq_ite] using ih

/-- Taking a key out changes the look-up of that key only. -/
theorem get?_erase (t : Table κ α) (key other : κ) :
    (t.erase key).get? other = if other = key then none else t.get? other :=
  lookup_without t.entries key other

/-- Inserting changes the look-up of the inserted key only. -/
theorem get?_insert (t : Table κ α) (key : κ) (value : α) (other : κ) :
    (t.insert key value).get? other =
      if other = key then some value else t.get? other := by
  show List.lookup other ((key, value) :: without t.entries key) = _
  rw [lookup_cons_eq_ite, lookup_without]
  by_cases h : other = key
  · rw [if_pos h, if_pos h]
  · rw [if_neg h, if_neg h, if_neg h]
    rfl

end Table

end Courier
