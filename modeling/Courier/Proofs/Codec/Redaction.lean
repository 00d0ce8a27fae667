import Courier.Proofs.Audit.Masking
import Mathlib.Algebra.BigOperators.Group.List.Lemmas
import Mathlib.Algebra.GroupWithZero.Nat

/-!
# What redaction changes, and what it counts

Redaction takes one name after the other and looks it up in what the names before it have left.
The mask stands in the place of a value, so that no name adds a key or removes one, and the payload
depends on which names there are and on nothing else about the list
(`Redaction.masks_named_fields`).  The count is another matter: each name adds one for the key that
it hits, and a name that comes twice hits the same key twice.  So the count is the number of masked
fields for a list that names no key of the payload twice, and is greater for every other.
-/

namespace Courier

namespace Redaction

variable {names names' : List String} {d d' d'' : Dict Json}

/-! ## The masked object -/

/-- The named fields of an object are masked, and nothing else about it has changed. -/
structure Masks (names : List String) (d d' : Dict Json) : Prop where
  keys : d'.keys = d.keys
  named : ∀ key ∈ d.keys, key ∈ names → d'.get? key = some mask
  other : ∀ key, key ∉ names → d'.get? key = d.get? key

theorem masks_masked (names : List String) (d : Dict Json) : Masks names d (masked names d) := by
  constructor
  case keys =>
    show (d.entries.map (maskField names)).map (·.1) = d.entries.map (·.1)
    rw [List.map_map]
    exact List.map_congr_left fun field _ => fst_maskField names field
  case named =>
    intro key mem named
    obtain ⟨value, found⟩ := Option.isSome_iff_exists.mp ((d.mem_keys_iff key).mp mem)
    rw [get?_masked, if_pos named, found]
    rfl
  case other =>
    intro key unnamed
    rw [get?_masked, if_neg unnamed]

/-- There is one way to mask an object. -/
theorem Masks.unique (masks : Masks names d d') (masks' : Masks names d d'') : d' = d'' := by
  apply Dict.ext_get?
  intro key
  by_cases named : key ∈ names
  · by_cases mem : key ∈ d.keys
    · rw [masks.named key mem named, masks'.named key mem named]
    · have nothing : ∀ e : Dict Json, e.keys = d.keys → e.get? key = none := by
        intro e keysEq
        rw [← keysEq, e.mem_keys_iff] at mem
        simpa using mem
      rw [nothing d' masks.keys, nothing d'' masks'.keys]
  · rw [masks.other key named, masks'.other key named]

/-! ## One name after the other -/

/-- Put the mask into the field of a name, if the object has it, and count it. -/
def overwrite (state : Dict Json × Nat) (name : String) : Dict Json × Nat :=
  if state.1.contains name then (state.1.insert name mask, state.2 + 1) else state

theorem overwrite_of_contains {state : Dict Json × Nat} {name : String}
    (there : state.1.contains name) :
    overwrite state name = (state.1.insert name mask, state.2 + 1) :=
  if_pos there

theorem overwrite_of_not_contains {state : Dict Json × Nat} {name : String}
    (missing : ¬state.1.contains name) : overwrite state name = state :=
  if_neg missing

/-- The names that come later find the same keys. -/
theorem contains_overwrite (state : Dict Json × Nat) (name key : String) :
    (overwrite state name).1.contains key = state.1.contains key := by
  by_cases there : state.1.contains name
  · rw [overwrite_of_contains there, Dict.contains, Dict.get?_insert]
    split
    case isTrue here =>
      subst here
      exact there.symm
    case isFalse => rfl
  · rw [overwrite_of_not_contains there]

/-- Whether a field is masked before the others or together with them comes to the same. -/
theorem masked_overwrite (names : List String) (state : Dict Json × Nat) (name : String) :
    masked names (overwrite state name).1 = masked (name :: names) state.1 := by
  apply Dict.ext_get?
  intro key
  rw [get?_masked, get?_masked]
  by_cases there : state.1.contains name
  · rw [overwrite_of_contains there, Dict.get?_insert]
    by_cases here : key = name
    · subst here
      obtain ⟨value, found⟩ := Option.isSome_iff_exists.mp there
      simp [found]
    · simp [here]
  · rw [overwrite_of_not_contains there]
    by_cases here : key = name
    · subst here
      have nothing : state.1.get? key = none := by simpa [Dict.contains] using there
      simp [nothing]
    · simp [here]

/-- Overwriting the fields one by one masks them all, and counts the names as they would be
counted in the object at the start. -/
theorem foldl_overwrite (names : List String) (state : Dict Json × Nat) :
    names.foldl overwrite state =
      (masked names state.1, state.2 + count names (.ofDict state.1)) := by
  induction names generalizing state with
  | nil =>
      have unchanged : Masks [] state.1 state.1 := ⟨rfl, by simp, fun _ _ => rfl⟩
      exact Prod.ext (unchanged.unique (masks_masked [] state.1)) rfl
  | cons name rest ih =>
      have counted : (overwrite state name).2 + count rest (.ofDict (overwrite state name).1) =
          state.2 + count (name :: rest) (.ofDict state.1) := by
        show _ + rest.countP (overwrite state name).1.contains =
          _ + (name :: rest).countP state.1.contains
        rw [funext (contains_overwrite state name)]
        by_cases there : state.1.contains name
        · rw [overwrite_of_contains there, List.countP_cons_of_pos there]
          exact Nat.add_right_comm ..
        · rw [overwrite_of_not_contains there, List.countP_cons_of_neg there]
      rw [List.foldl_cons, ih, masked_overwrite, counted]

/-! ## The count -/

/-- The keys of an object that are named. -/
def hits (names : List String) (d : Dict Json) : List String :=
  d.keys.filter fun key => key ∈ names

theorem mem_hits {key : String} : key ∈ hits names d ↔ key ∈ d.keys ∧ key ∈ names := by
  rw [hits, List.mem_filter, decide_eq_true_iff]

/-- They are the different names of the list that are keys. -/
theorem hits_perm (names : List String) (d : Dict Json) :
    (hits names d).Perm (names.dedup.filter d.contains) := by
  have nodup : d.keys.Nodup := List.nodup_iff_pairwise_ne.mpr (d.pairwise_keys.imp String.ne_of_lt)
  apply (List.perm_ext_iff_of_nodup (nodup.filter _) (names.nodup_dedup.filter _)).mpr
  intro key
  rw [← hits, mem_hits, List.mem_filter, List.mem_dedup, d.mem_keys_iff]
  exact And.comm

/-- Each hit is counted once, and once more whenever its name is repeated. -/
theorem count_ofDict (names : List String) (d : Dict Json) :
    count names (.ofDict d) =
      (hits names d).length + ((hits names d).map fun key => names.count key - 1).sum := by
  have split : ∀ key ∈ hits names d, names.count key = 1 + (names.count key - 1) := by
    intro key hit
    have named := List.one_le_count_iff.mpr (mem_hits.mp hit).2
    omega
  have each : count names (.ofDict d) = ((hits names d).map fun key => names.count key).sum := by
    rw [((hits_perm names d).map _).sum_eq, List.sum_map_count_dedup_filter_eq_countP]
    rfl
  rw [each, List.map_congr_left split, List.sum_map_add, List.map_const', List.sum_replicate_nat,
    Nat.mul_one]

/-- The count is right for the lists that name no key of the object twice. -/
theorem count_eq_length_hits_iff (names : List String) (d : Dict Json) :
    count names (.ofDict d) = (hits names d).length ↔ ∀ key ∈ d.keys, names.count key ≤ 1 := by
  rw [count_ofDict, Nat.add_eq_left, List.sum_eq_zero_iff_forall_eq_nat, List.forall_mem_map]
  constructor
  · intro once key mem
    by_cases named : key ∈ names
    · exact Nat.sub_eq_zero_iff_le.mp (once key (mem_hits.mpr ⟨mem, named⟩))
    · rw [List.count_eq_zero.mpr named]
      exact Nat.zero_le 1
  · intro once key hit
    exact Nat.sub_eq_zero_of_le (once key (mem_hits.mp hit).1)

/-! ## Any payload -/

theorem apply_of_not_object {a : Json} (plain : a.object? = none) (names : List String) :
    apply names a = a ∧ count names a = 0 := by
  cases a with
  | object fields => cases plain
  | _ => exact ⟨rfl, rfl⟩

theorem apply_congr (same : ∀ name, name ∈ names ↔ name ∈ names') (a : Json) :
    apply names a = apply names' a := by
  have sameFields : maskField names = maskField names' := by
    funext field
    simp only [maskField, same]
  cases a with
  | object fields => rw [apply, apply, sameFields]
  | _ => rfl

theorem apply_apply (names : List String) (a : Json) :
    apply names (apply names a) = apply names a := by
  have again : ∀ field, maskField names (maskField names field) = maskField names field := by
    intro field
    by_cases named : field.1 ∈ names <;> simp [maskField, named]
  cases a with
  | object fields => simp [apply, again]
  | _ => rfl

/-- The named fields are masked, and no others, one by one or all at once; it makes no difference
how the names are ordered, how often they come or how often they are masked.  The count is the
number of masked fields and of the repeats that hit them again. -/
theorem masks_named_fields (names : List String) :
    (∀ a, a.object? = none → apply names a = a ∧ count names a = 0) ∧
    (∀ names', (∀ name, name ∈ names' ↔ name ∈ names) → ∀ a, apply names' a = apply names a) ∧
    (∀ a, apply names (apply names a) = apply names a) ∧
    ∀ d : Dict Json, ∃ d', apply names (.ofDict d) = .ofDict d' ∧ Masks names d d' ∧
      names.foldl overwrite (d, 0) = (d', count names (.ofDict d)) ∧
      (hits names d).length = (names.dedup.filter d.contains).length ∧
      count names (.ofDict d) =
        (hits names d).length + ((hits names d).map fun key => names.count key - 1).sum ∧
      (count names (.ofDict d) = (hits names d).length ↔ ∀ key ∈ d.keys, names.count key ≤ 1) := by
  refine ⟨fun a plain => apply_of_not_object plain names, fun names' same => apply_congr same,
    apply_apply names, fun d => ⟨masked names d, rfl, masks_masked names d, ?_,
      (hits_perm names d).length_eq, count_ofDict names d, count_eq_length_hits_iff names d⟩⟩
  rw [foldl_overwrite, Nat.zero_add]

theorem masks_named_fields_login :
    let d : Dict Json := .ofList [("password", .null), ("user", .object [("token", .string "t")])]
    let names := ["token", "password", "password"]
    apply ["password", "token"] (.ofDict d) = apply names (.ofDict d) ∧
      apply names .null = .null ∧
      (∃ d', apply names (.ofDict d) = .ofDict d' ∧ d'.keys = ["password", "user"] ∧
        d'.get? "password" = some mask ∧ d'.get? "user" = d.get? "user") ∧
      count names (.ofDict d) ≠ (hits names d).length := by
  obtain ⟨plain, same, -, object⟩ :=
    masks_named_fields ["token", "password", "password"]
  obtain ⟨d', applied, masks, -, -, -, countEq⟩ :=
    object (.ofList [("password", .null), ("user", .object [("token", .string "t")])])
  refine ⟨same _ (by simp [or_comm]) _, (plain .null rfl).1, ⟨d', applied, masks.keys, ?_, ?_⟩, ?_⟩
  · exact masks.named "password" (by decide) (by decide)
  · exact masks.other "user" (by decide)
  · intro right
    have once := countEq.mp right "password" (by decide)
    contradiction

/-- A name that comes twice is counted twice, though there is one field to mask, and one is masked:
the count is not the number of the fields. -/
theorem count_repeated_name :
    let d : Dict Json := .ofList [("token", .string "t")]
    count ["token", "token"] (.ofDict d) = 2 ∧ hits ["token", "token"] d = ["token"] ∧
      apply ["token", "token"] (.ofDict d) = .object [("token", mask)] ∧
      ¬ ∀ names (d : Dict Json), count names (.ofDict d) = (hits names d).length := by
  have counted : count ["token", "token"] (.ofDict (.ofList [("token", .string "t")])) = 2 := rfl
  have hit : hits ["token", "token"] (.ofList [("token", .string "t")]) = ["token"] := by decide
  refine ⟨counted, hit, rfl, fun always => ?_⟩
  have equal := always ["token", "token"] (.ofList [("token", .string "t")])
  rw [counted, hit] at equal
  contradiction

end Redaction

end Courier
