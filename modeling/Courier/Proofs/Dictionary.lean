import Courier.Context

/-!
# Dictionaries by their look-ups

The order of the keys is part of a dictionary, so that what is found under each key
determines it.  A context is determined by its entries in the same way.
-/

namespace Courier

universe u

variable {α : Type u}

/-- Nothing is found under a key that comes before all others. -/
theorem Increasing.lookup_of_lt {entry : String × α} {rest : List (String × α)}
    (increasing : Increasing (entry :: rest)) {key : String} (lt : key < entry.1) :
    (entry :: rest).lookup key = none := by
  rw [List.lookup_eq_none_iff]
  intro other mem
  have after : key < other.1 := by
    rcases List.mem_cons.mp mem with rfl | mem
    · exact lt
    · exact String.lt_trans lt ((List.pairwise_cons.mp increasing).1 other mem)
  rw [bne_iff_ne]
  rintro rfl
  exact String.lt_irrefl _ after

/-- Behind an entry its key does not occur again. -/
theorem Increasing.lookup_rest {entry : String × α} {rest : List (String × α)}
    (increasing : Increasing (entry :: rest)) : rest.lookup entry.1 = none := by
  rw [List.lookup_eq_none_iff]
  intro other mem
  have after : entry.1 < other.1 := (List.pairwise_cons.mp increasing).1 other mem
  rw [bne_iff_ne]
  intro same
  exact String.lt_irrefl entry.1 (same ▸ after)

/-- Two lists of entries begin with the same one if they have the same look-ups. -/
theorem Increasing.head_eq {entry entry' : String × α} {rest rest' : List (String × α)}
    (increasing : Increasing (entry :: rest)) (increasing' : Increasing (entry' :: rest'))
    (same : ∀ key, (entry :: rest).lookup key = (entry' :: rest').lookup key) : entry = entry' := by
  rcases entry with ⟨key, value⟩
  rcases entry' with ⟨key', value'⟩
  have atKey := same key
  have atKey' := same key'
  rw [List.lookup_cons_self] at atKey atKey'
  have keyEq : key = key' := by
    apply String.le_antisymm
    · apply String.not_lt.mp
      intro lt
      rw [increasing.lookup_of_lt lt] at atKey'
      contradiction
    · apply String.not_lt.mp
      intro lt
      rw [increasing'.lookup_of_lt lt] at atKey
      contradiction
  subst keyEq
  rw [List.lookup_cons_self] at atKey
  rw [Option.some.inj atKey]

/-- Lists of entries with the same look-ups are the same. -/
theorem Increasing.eq_of_lookup {entries entries' : List (String × α)}
    (increasing : Increasing entries) (increasing' : Increasing entries')
    (same : ∀ key, entries.lookup key = entries'.lookup key) : entries = entries' := by
  induction entries generalizing entries' with
  | nil =>
      cases entries' with
      | nil => rfl
      | cons entry' rest' =>
          have found := same entry'.1
          simp [lookup_cons_eq_ite] at found
  | cons entry rest ih =>
      cases entries' with
      | nil =>
          have found := same entry.1
          simp [lookup_cons_eq_ite] at found
      | cons entry' rest' =>
          obtain rfl := increasing.head_eq increasing' same
          have sameRest : ∀ key, rest.lookup key = rest'.lookup key := by
            intro key
            by_cases atHead : key = entry.1
            · rw [atHead, increasing.lookup_rest, increasing'.lookup_rest]
            · simpa [lookup_cons_eq_ite, atHead] using same key
          rw [ih increasing.of_cons increasing'.of_cons sameRest]

/-- The keys of a dictionary come in strictly increasing order. -/
theorem Dict.pairwise_keys (d : Dict α) : d.keys.Pairwise (· < ·) := by
  rw [keys, List.pairwise_map]
  exact d.increasing

/-- Something is found under the keys of the entries. -/
theorem isSome_lookup_iff (entries : List (String × α)) (key : String) :
    (entries.lookup key).isSome ↔ key ∈ entries.map (·.1) := by
  rw [List.lookup_isSome_iff, List.mem_map]
  constructor
  · rintro ⟨entry, mem, same⟩
    exact ⟨entry, mem, (beq_iff_eq.mp same).symm⟩
  · rintro ⟨entry, mem, rfl⟩
    exact ⟨entry, mem, beq_self_eq_true entry.1⟩

theorem Dict.mem_keys_iff (d : Dict α) (key : String) : key ∈ d.keys ↔ (d.get? key).isSome :=
  (isSome_lookup_iff d.entries key).symm

/-- Dictionaries with the same look-ups are the same. -/
theorem Dict.ext_get? {d d' : Dict α} (same : ∀ key, d.get? key = d'.get? key) : d = d' :=
  Dict.ext (d.increasing.eq_of_lookup d'.increasing same)

/-- Where both have a key, the second dictionary of a union decides. -/
theorem Dict.get?_union (d e : Dict α) (key : String) :
    (d.union e).get? key = (e.get? key).or (d.get? key) := by
  have inserted : ∀ (entries : List (String × α)) (base : Dict α), Increasing entries →
      (entries.foldl (fun d entry => d.insert entry.1 entry.2) base).get? key =
        (entries.lookup key).or (base.get? key) := by
    intro entries
    induction entries with
    | nil => exact fun base _ => rfl
    | cons entry rest ih =>
        intro base increasing
        rw [List.foldl_cons, ih _ increasing.of_cons, Dict.get?_insert, lookup_cons_eq_ite]
        by_cases here : key = entry.1
        · subst here
          rw [if_pos rfl, if_pos rfl, increasing.lookup_rest]
          rfl
        · rw [if_neg here, if_neg here]
  exact inserted e.entries d e.increasing

/-- A dictionary is made of its entries. -/
theorem Dict.ofList_entries (d : Dict α) : ofList d.entries = d := by
  apply Dict.ext_get?
  intro key
  rw [show ofList d.entries = empty.union d from rfl, get?_union, get?_empty, Option.or_none]

/-- Contexts with the same entries are the same. -/
theorem Context.ext_at? {c c' : Context} (same : ∀ key, c.at? key = c'.at? key) : c = c' := by
  rcases c with ⟨entries⟩
  rcases c' with ⟨entries'⟩
  exact congrArg Context.mk (Dict.ext_get? same)

end Courier
