/-!
# Look-ups in lists of pairs
-/

namespace Courier

universe u v w

/-- The first pair decides if it has the key, and otherwise the others do. -/
theorem lookup_cons_eq_ite {κ : Type u} {α : Type v} [BEq κ] [LawfulBEq κ] [DecidableEq κ]
    (entry : κ × α) (entries : List (κ × α)) (key : κ) :
    (entry :: entries).lookup key =
      if key = entry.1 then some entry.2 else entries.lookup key := by
  obtain ⟨k, a⟩ := entry
  rw [List.lookup_cons]
  by_cases h : key = k
  · rw [if_pos h, beq_iff_eq.mpr h]
  · rw [if_neg h, beq_eq_false_iff_ne.mpr h]

/-- What is found among changed values is what was found, changed. -/
theorem lookup_map_snd {κ : Type u} {α : Type v} {β : Type w} [BEq κ] (f : α → β)
    (entries : List (κ × α)) (key : κ) :
    (entries.map fun entry => (entry.1, f entry.2)).lookup key = (entries.lookup key).map f := by
  induction entries with
  | nil => rfl
  | cons entry rest ih =>
      rw [List.map_cons, List.lookup_cons, List.lookup_cons, ih]
      split <;> rfl

end Courier
