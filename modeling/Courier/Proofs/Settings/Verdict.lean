import Courier.Settings.Validation

/-!
# Verdicts

The order in which the targets of log filters are visited is not known, and it may be another one
each time that settings are judged.  Whether they are accepted does not depend on it, and neither
does what is reported of them, unless several targets are invalid: then it may be another one of
these that is reported each time (`Settings.sameVerdict_validate`).
-/

namespace Courier

namespace KeyOrder

/-- The keys from the last one to the first. -/
def reversed : KeyOrder where
  arrange := List.reverse
  perm := List.reverse_perm

variable {keys : List String} {p : String → Bool}

theorem find?_eq_none_iff_of_orders (order order' : KeyOrder) :
    (order.arrange keys).find? p = none ↔ (order'.arrange keys).find? p = none := by
  simp only [List.find?_eq_none, (order.perm keys).mem_iff, (order'.perm keys).mem_iff]

theorem mem_of_find?_arrange {order : KeyOrder} {key : String}
    (found : (order.arrange keys).find? p = some key) : key ∈ keys ∧ p key = true :=
  ⟨(order.perm keys).mem_iff.mp (List.mem_of_find?_eq_some found), List.find?_some found⟩

/-- In two orders the same key comes first of those that are looked for, or there are several. -/
theorem find?_of_orders (order order' : KeyOrder) :
    (order.arrange keys).find? p = (order'.arrange keys).find? p ∨
      ∃ key key', key ≠ key' ∧ (key ∈ keys ∧ p key = true) ∧ (key' ∈ keys ∧ p key' = true) ∧
        (order.arrange keys).find? p = some key ∧ (order'.arrange keys).find? p = some key' := by
  cases found : (order.arrange keys).find? p with
  | none =>
      have nothing := (find?_eq_none_iff_of_orders order order').mp found
      exact .inl nothing.symm
  | some key =>
      cases found' : (order'.arrange keys).find? p with
      | none =>
          have nothing := (find?_eq_none_iff_of_orders order order').mpr found'
          rw [found] at nothing
          contradiction
      | some key' =>
          by_cases same : key = key'
          · exact .inl (congrArg some same)
          · exact .inr ⟨key, key', same, mem_of_find?_arrange found, mem_of_find?_arrange found',
              rfl, rfl⟩

end KeyOrder

namespace LoggingSettings

/-- A filter of the log has an invalid target. -/
def Mistargets (s : LoggingSettings) (target : String) : Prop :=
  target ∈ s.filters.keys ∧ isInvalidTarget target = true

/-- In two orders the same is wrong, or an invalid target is reported each time, but not the
same one. -/
theorem problem?_of_orders (s : LoggingSettings) (order order' : KeyOrder) :
    s.problem? order = s.problem? order' ∨
      ∃ target target', target ≠ target' ∧ s.Mistargets target ∧ s.Mistargets target' ∧
        s.problem? order = some (.filterTarget target) ∧
        s.problem? order' = some (.filterTarget target') := by
  unfold problem?
  rcases KeyOrder.find?_of_orders order order' with
    same | ⟨target, target', different, invalid, invalid', found, found'⟩
  · rw [same]
    exact .inl rfl
  · rw [found, found']
    exact .inr ⟨target, target', different, invalid, invalid', rfl, rfl⟩

end LoggingSettings

namespace Settings

/-- How the same settings may be judged in two orders: they are accepted in both, or the same is
reported of them, or it is two invalid targets that are reported. -/
inductive SameVerdict (s : Settings) :
    Except SettingsError Settings → Except SettingsError Settings → Prop
  | accepted : SameVerdict s (.ok s) (.ok s)
  | refused (problem : InvalidSetting) :
      SameVerdict s (.error (.validation problem.message)) (.error (.validation problem.message))
  | mistargeted {target target' : String} (different : target ≠ target')
      (invalid : s.logging.Mistargets target) (invalid' : s.logging.Mistargets target') :
      SameVerdict s (.error (.validation (InvalidSetting.filterTarget target).message))
        (.error (.validation (InvalidSetting.filterTarget target').message))

theorem SameVerdict.eq_ok_iff {s : Settings} {verdict verdict' : Except SettingsError Settings}
    (same : s.SameVerdict verdict verdict') (accepted : Settings) :
    verdict = .ok accepted ↔ verdict' = .ok accepted := by
  cases same <;> simp

theorem sameVerdict_validate (s : Settings) (order order' : KeyOrder) :
    s.SameVerdict (s.validate order) (s.validate order') := by
  unfold validate problem?
  rcases s.logging.problem?_of_orders order order' with
    same | ⟨target, target', different, invalid, invalid', reported, reported'⟩
  · rw [same]
    cases (s.logging.problem? order').or (s.bus.problem?.or s.notifications.problem?) with
    | none => exact .accepted
    | some problem => exact .refused problem
  · rw [reported, reported']
    exact .mistargeted different invalid invalid'

/-- Settings that are accepted in one order are accepted in any other. -/
theorem validate_of_order {s accepted : Settings} {order : KeyOrder}
    (valid : s.validate order = .ok accepted) (order' : KeyOrder) :
    s.validate order' = .ok accepted :=
  ((s.sameVerdict_validate order order').eq_ok_iff accepted).mp valid

theorem problem?_eq_none_of_order {s : Settings} {order : KeyOrder} (fine : s.problem? order = none)
    (order' : KeyOrder) : s.problem? order' = none := by
  have valid : s.validate order = .ok s := validate_eq_ok_iff.mpr ⟨fine, rfl⟩
  exact (validate_eq_ok_iff.mp (validate_of_order valid order')).1

end Settings

end Courier
