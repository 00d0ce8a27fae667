import Courier.Proofs.Dictionary
import Mathlib.Data.List.Induction

/-!
# What a context holds after a history of changes

Values are put into a context, keys are taken out, and what is call-scoped is released, in any
order.  For each key the last change that concerns it decides: one that names the key, or a release
if the entry of the key was call-scoped then.  What the context holds, and what it answers to every
question and every further change, is told by these last changes (`Context.follows_after`).
-/

namespace Courier.Context

/-- How a value is put into a context. -/
inductive Placement where
  /-- A value that others may hold as well. -/
  | shared
  /-- A value that is handed over. -/
  | owned
  /-- A value for one call only. -/
  | callScoped
deriving DecidableEq, Repr

/-- A change of a context. -/
inductive Change where
  | put (how : Placement) (key : String) (value : Value)
  | remove (key : String)
  | release

/-- What is answered to a change. -/
inductive Answer where
  /-- Whether the key was there before. -/
  | wasThere (present : Bool)
  /-- The keys that were released. -/
  | released (keys : List String)
deriving DecidableEq

namespace Change

/-- Make a change. -/
def perform (c : Context) : Change → Answer × Context
  | put how key value => (.wasThere (c.contains key), c.put key value (how = .callScoped))
  | remove key => (.wasThere (c.contains key), c.remove key)
  | release => (.released c.scopedKeys, c.releaseScoped)

/-- The key that a change names. -/
def key? : Change → Option String
  | put _ key _ => some key
  | remove key => some key
  | release => none

/-- Whether a change puts a value under a key for one call. -/
def isForCall : Change → Bool
  | put how _ _ => how = .callScoped
  | _ => false

/-- Whether a change concerns a key, of which the last change so far is known: it names the key, or
it is a release and the key was put there for one call. -/
def concerns (key : String) (last : Option Change) (change : Change) : Bool :=
  match change.key? with
  | some other => other = key
  | none => last.any isForCall

end Change

/-- The context that changes make of an empty one. -/
def after (changes : List Change) : Context :=
  changes.foldl (fun c change => (change.perform c).2) .empty

/-- The last of some changes that concerns a key. -/
def last? (key : String) (changes : List Change) : Option Change :=
  changes.foldl (fun last change => if change.concerns key last then some change else last) none

/-- The entry that the last change leaves under its key. -/
def leftBy? : Option Change → Option Entry
  | some (.put how _ value) => some ⟨value, how = .callScoped⟩
  | _ => none

/-- What a context holds and answers is told by the last of the changes that concerns each key. -/
structure Follows (changes : List Change) (c : Context) : Prop where
  /-- A key is present if it was put there last. -/
  contains_iff : ∀ key, c.contains key = true ↔
    ∃ how value, last? key changes = some (.put how key value)
  /-- A value is found if it was put there last, and is of the type that is asked for. -/
  get?_iff : ∀ key type value, c.get? key type = some value ↔
    (∃ how, last? key changes = some (.put how key value)) ∧ value.type = type
  require_ok_iff : ∀ key type value, c.require key type = .ok value ↔
    (∃ how, last? key changes = some (.put how key value)) ∧ value.type = type
  /-- Otherwise the key is missing, or its value is of another type, and both types are named. -/
  require_error_iff : ∀ key type e, c.require key type = .error e ↔
    ((¬ ∃ how value, last? key changes = some (.put how key value)) ∧ e = .missing key) ∨
      ∃ how value, last? key changes = some (.put how key value) ∧ value.type ≠ type ∧
        e = .typeMismatch key type value.type
  get?_eq : ∀ key type, c.get? key type = (c.require key type).toOption
  /-- Who puts a value under a key, or takes it out, is told whether the key was put there last. -/
  answers : ∀ key (change : Change), change.key? = some key → ∃ present,
    (change.perform c).1 = .wasThere present ∧
      (present = true ↔ ∃ how value, last? key changes = some (.put how key value))
  /-- The keys that were put there last for one call are released in order, they alone, and once. -/
  releases : ∃ keys, (Change.release.perform c).1 = .released keys ∧ keys.Pairwise (· < ·) ∧
    (∀ key, key ∈ keys ↔ ∃ value, last? key changes = some (.put .callScoped key value)) ∧
    (∀ key, (Change.release.perform c).2.at? key = if key ∈ keys then none else c.at? key) ∧
    (Change.release.perform (Change.release.perform c).2).1 = .released []
  /-- The keys are listed in order, as many as there are entries. -/
  keys_sorted : c.keys.Pairwise (· < ·)
  mem_keys_iff : ∀ key, key ∈ c.keys ↔ c.contains key = true
  length_keys : c.keys.length = c.size

/-! ## The last change -/

variable {changes : List Change} {change : Change} {c : Context} {key : String} {value : Value}

theorem last?_concat (changes : List Change) (change : Change) (key : String) :
    last? key (changes ++ [change]) =
      if change.concerns key (last? key changes) then some change else last? key changes := by
  rw [last?, List.foldl_append]
  rfl

theorem after_concat (changes : List Change) (change : Change) :
    after (changes ++ [change]) = (change.perform (after changes)).2 := by
  rw [after, List.foldl_append]
  rfl

/-- A value that concerns a key was put under that key. -/
theorem eq_of_last? {how : Placement} {other : String}
    (last : last? key changes = some (.put how other value)) : other = key := by
  induction changes using List.reverseRecOn with
  | nil => contradiction
  | append_singleton changes change ih =>
      rw [last?_concat] at last
      split at last
      · next concerned =>
          cases last
          simpa [Change.concerns, Change.key?] using concerned
      · exact ih last

/-- A change leaves what the last change leaves that concerns the key. -/
theorem at?_perform (change : Change) {last : Option Change} (same : c.at? key = leftBy? last) :
    (change.perform c).2.at? key =
      leftBy? (if change.concerns key last then some change else last) := by
  cases change with
  | put how other value =>
      simp only [Change.perform, at?_put, Change.concerns, Change.key?]
      by_cases here : key = other
      · simp [here, leftBy?]
      · simp [here, Ne.symm here, same]
  | remove other =>
      simp only [Change.perform, at?_remove, Change.concerns, Change.key?]
      by_cases here : key = other
      · simp [here, leftBy?]
      · simp [here, Ne.symm here, same]
  | release =>
      rw [Change.perform, at?_releaseScoped, same]
      cases last with
      | none => rfl
      | some last =>
          cases last with
          | put how other value => cases how <;> rfl
          | remove other => rfl
          | release => rfl

/-- After all changes there is what the last one leaves that concerns the key. -/
theorem at?_after (changes : List Change) (key : String) :
    (after changes).at? key = leftBy? (last? key changes) := by
  induction changes using List.reverseRecOn with
  | nil => rfl
  | append_singleton changes change ih => rw [after_concat, last?_concat, at?_perform change ih]

theorem at?_after_eq_some_iff {entry : Entry} :
    (after changes).at? key = some entry ↔
      ∃ how, last? key changes = some (.put how key entry.value) ∧
        entry.callScoped = decide (how = .callScoped) := by
  rw [at?_after]
  constructor
  · intro left
    unfold leftBy? at left
    split at left
    · next how other value last =>
        obtain rfl := eq_of_last? last
        cases left
        exact ⟨how, last, rfl⟩
    · contradiction
  · rintro ⟨how, last, forCall⟩
    rw [last, leftBy?, ← forCall]

/-! ## Questions -/

theorem contains_after_iff :
    (after changes).contains key = true ↔
      ∃ how value, last? key changes = some (.put how key value) := by
  rw [contains, Option.isSome_iff_exists]
  constructor
  · rintro ⟨entry, found⟩
    obtain ⟨how, last, _⟩ := at?_after_eq_some_iff.mp found
    exact ⟨how, entry.value, last⟩
  · rintro ⟨how, value, last⟩
    exact ⟨⟨value, how = .callScoped⟩, at?_after_eq_some_iff.mpr ⟨how, last, rfl⟩⟩

theorem require_eq_ok_iff {type : TypeName} :
    c.require key type = .ok value ↔
      ∃ entry, c.at? key = some entry ∧ entry.value = value ∧ value.type = type := by
  unfold require
  cases c.at? key with
  | none => simp
  | some entry =>
      by_cases typed : entry.value.type = type
      · simp only [if_pos typed, Except.ok.injEq, Option.some.injEq, exists_eq_left']
        constructor
        · rintro rfl
          exact ⟨rfl, typed⟩
        · exact fun same => same.1
      · simp only [if_neg typed, reduceCtorEq, Option.some.injEq, exists_eq_left', false_iff]
        rintro ⟨rfl, same⟩
        exact typed same

/-- To find a value is to require it and not to ask why it cannot be had. -/
theorem get?_eq_toOption_require (c : Context) (key : String) (type : TypeName) :
    c.get? key type = (c.require key type).toOption := by
  unfold get? require
  cases c.at? key with
  | none => rfl
  | some entry =>
      by_cases typed : entry.value.type = type <;> simp [Option.filter, typed, Except.toOption]

theorem get?_eq_some_iff {type : TypeName} :
    c.get? key type = some value ↔ c.require key type = .ok value := by
  rw [get?_eq_toOption_require]
  cases c.require key type <;> simp [Except.toOption]

theorem require_eq_error_iff {type : TypeName} {e : ContextError} :
    c.require key type = .error e ↔
      (c.at? key = none ∧ e = .missing key) ∨
        ∃ entry, c.at? key = some entry ∧ entry.value.type ≠ type ∧
          e = .typeMismatch key type entry.value.type := by
  unfold require
  cases c.at? key with
  | none => simp [eq_comm]
  | some entry =>
      by_cases typed : entry.value.type = type
      · simp [typed]
      · simp only [if_neg typed, Except.error.injEq, reduceCtorEq, false_and, Option.some.injEq,
          exists_eq_left', false_or]
        constructor
        · rintro rfl
          exact ⟨typed, rfl⟩
        · exact fun same => same.2.symm

/-! ## Releases -/

theorem mem_scopedKeys_iff :
    key ∈ c.scopedKeys ↔ ∃ entry, c.at? key = some entry ∧ entry.callScoped = true := by
  rw [scopedKeys, Dict.mem_keys_iff, Dict.get?_filter, Option.isSome_iff_exists]
  simp [Option.filter_eq_some_iff, at?]

theorem scopedKeys_releaseScoped (c : Context) : c.releaseScoped.scopedKeys = [] := by
  rw [List.eq_nil_iff_forall_not_mem]
  intro key released
  obtain ⟨entry, found, forCall⟩ := mem_scopedKeys_iff.mp released
  rw [at?_releaseScoped, Option.filter_eq_some_iff] at found
  simp [forCall] at found

theorem at?_releaseScoped_eq_ite (c : Context) (key : String) :
    c.releaseScoped.at? key = if key ∈ c.scopedKeys then none else c.at? key := by
  rw [at?_releaseScoped]
  cases found : c.at? key with
  | none => simp
  | some entry =>
      cases forCall : entry.callScoped <;>
        simp [mem_scopedKeys_iff, found, Option.filter, forCall]

theorem mem_scopedKeys_after_iff :
    key ∈ (after changes).scopedKeys ↔
      ∃ value, last? key changes = some (.put .callScoped key value) := by
  rw [mem_scopedKeys_iff]
  constructor
  · rintro ⟨entry, found, forCall⟩
    obtain ⟨how, last, same⟩ := at?_after_eq_some_iff.mp found
    obtain rfl : how = .callScoped := of_decide_eq_true (same ▸ forCall)
    exact ⟨entry.value, last⟩
  · rintro ⟨value, last⟩
    exact ⟨⟨value, true⟩, at?_after_eq_some_iff.mpr ⟨.callScoped, last, rfl⟩, rfl⟩

/-! ## All that a context holds and answers -/

/-- A change that names a key is answered by whether the key is there. -/
theorem answer_perform (named : change.key? = some key) :
    (change.perform c).1 = .wasThere (c.contains key) := by
  cases change with
  | put how other value =>
      cases named
      rfl
  | remove other =>
      cases named
      rfl
  | release => contradiction

theorem require_after_eq_ok_iff {type : TypeName} :
    (after changes).require key type = .ok value ↔
      (∃ how, last? key changes = some (.put how key value)) ∧ value.type = type := by
  rw [require_eq_ok_iff]
  constructor
  · rintro ⟨entry, found, rfl, typed⟩
    obtain ⟨how, last, _⟩ := at?_after_eq_some_iff.mp found
    exact ⟨⟨how, last⟩, typed⟩
  · rintro ⟨⟨how, last⟩, typed⟩
    exact ⟨⟨value, how = .callScoped⟩, at?_after_eq_some_iff.mpr ⟨how, last, rfl⟩, rfl, typed⟩

theorem require_after_eq_error_iff {type : TypeName} {e : ContextError} :
    (after changes).require key type = .error e ↔
      ((¬ ∃ how value, last? key changes = some (.put how key value)) ∧ e = .missing key) ∨
        ∃ how value, last? key changes = some (.put how key value) ∧ value.type ≠ type ∧
          e = .typeMismatch key type value.type := by
  have absent : (after changes).at? key = none ↔
      ¬ ∃ how value, last? key changes = some (.put how key value) := by
    rw [← contains_after_iff, contains, Option.not_isSome_iff_eq_none]
  rw [require_eq_error_iff, absent]
  apply or_congr_right
  constructor
  · rintro ⟨entry, found, others⟩
    obtain ⟨how, last, _⟩ := at?_after_eq_some_iff.mp found
    exact ⟨how, entry.value, last, others⟩
  · rintro ⟨how, value, last, others⟩
    exact ⟨⟨value, how = .callScoped⟩, at?_after_eq_some_iff.mpr ⟨how, last, rfl⟩, others⟩

/-- Changes make of an empty context one that holds and answers what they say. -/
theorem follows_after (changes : List Change) : Follows changes (after changes) where
  contains_iff _ := contains_after_iff
  get?_iff _ _ _ := get?_eq_some_iff.trans require_after_eq_ok_iff
  require_ok_iff _ _ _ := require_after_eq_ok_iff
  require_error_iff _ _ _ := require_after_eq_error_iff
  get?_eq key type := get?_eq_toOption_require _ key type
  answers _ _ named := ⟨_, answer_perform named, contains_after_iff⟩
  releases :=
    ⟨_, rfl, Dict.pairwise_keys _, fun _ => mem_scopedKeys_after_iff,
      at?_releaseScoped_eq_ite (after changes),
      congrArg Answer.released (scopedKeys_releaseScoped _)⟩
  keys_sorted := Dict.pairwise_keys _
  mem_keys_iff key := Dict.mem_keys_iff _ key
  length_keys := List.length_map _

/-- What is put under a call-scoped key for good is not released any more. -/
example :
    (Change.release.perform (after [.put .callScoped "mode" .unit, .put .owned "mode" .unit])).1 =
      .released [] := by
  decide

end Courier.Context
