import Courier.Proofs.Bus.Drain

/-!
# Larger budgets

A budget bounds how often a loop goes on, and an action that needs more is cut off.  Nothing else
depends on it: where an action comes to its end, it does the same with any larger budget, and
writes the same log.

`Action.Approximates` says this of two actions.  The loops of the library keep it, and so do the
actions that are put together from them.
-/

namespace Courier

variable {S T α β : Type}

namespace Action

/-- Of two actions that follow each other the first comes to its end if both do so together. -/
theorem ne_unfinished_of_bind {action : Action S α} {next : α → Action S β} {s : S}
    (ended : ((action >>= next) s).outcome ≠ .unfinished) : (action s).outcome ≠ .unfinished := by
  intro cut
  apply ended
  show (action.bind next s).outcome = .unfinished
  rcases runEq : action s with ⟨outcome, s', log⟩
  obtain rfl : outcome = .unfinished := by rw [runEq] at cut; exact cut
  simp only [Action.bind, runEq]

/-- And so does the second, where the first has returned. -/
theorem Returns.next_ne_unfinished {action : Action S α} {next : α → Action S β} {s s' : S} {a : α}
    (returned : action.Returns s a s') (ended : ((action >>= next) s).outcome ≠ .unfinished) :
    (next a s').outcome ≠ .unfinished := by
  rcases returned with ⟨outcomeEq, rfl⟩
  have ended : (action.bind next s).outcome ≠ .unfinished := ended
  rcases runEq : action s with ⟨outcome, s', log⟩
  obtain rfl : outcome = .returned a := by rw [runEq] at outcomeEq; exact outcomeEq
  simpa only [Action.bind, runEq] using ended

theorem Returns.ne_unfinished {action : Action S α} {s s' : S} {a : α}
    (returned : action.Returns s a s') : (action s).outcome ≠ .unfinished := by
  rw [returned.1]
  rintro ⟨⟩

theorem onCrash_ne_unfinished_iff (action : Action S α) (repair : S → S) (s : S) :
    (action.onCrash repair s).outcome ≠ .unfinished ↔ (action s).outcome ≠ .unfinished := by
  simp only [onCrash]
  cases outcomeEq : (action s).outcome <;> simp [outcomeEq]

/-! ## Actions that need no budget -/

/-- The action is never cut off. -/
def Finishes (action : Action S α) : Prop :=
  ∀ s, (action s).outcome ≠ .unfinished

namespace Finishes

theorem pure (a : α) : (pure a : Action S α).Finishes :=
  pure_ne_unfinished a

theorem tell (lines : List LogLine) : (tell lines : Action S Unit).Finishes := by
  rintro s ⟨⟩

theorem bind {action : Action S α} {next : α → Action S β} (first : action.Finishes)
    (second : ∀ a, (next a).Finishes) : (action >>= next).Finishes :=
  fun s => bind_ne_unfinished (first s) fun a s' _ => second a s'

theorem within {action : Action T α} (finishes : action.Finishes) (look : S → T)
    (put : T → S → S) : (action.within look put).Finishes :=
  fun s => finishes (look s)

theorem ensuring {action : Action S α} {cleanup : Action S Unit} (first : action.Finishes)
    (second : cleanup.Finishes) : (action.ensuring cleanup).Finishes := by
  intro s
  have ended := first s
  have cleaned := second (action s).state
  simp only [Action.ensuring]
  cases outcomeEq : (action s).outcome with
  | unfinished => exact absurd outcomeEq ended
  | returned a =>
      cases cleanupEq : (cleanup (action s).state).outcome with
      | unfinished => exact absurd cleanupEq cleaned
      | _ => simp
  | crashed text =>
      cases cleanupEq : (cleanup (action s).state).outcome with
      | unfinished => exact absurd cleanupEq cleaned
      | _ => simp

end Finishes

/-! ## Actions with a budget -/

/-- Wherever the first action comes to its end, the second does the same. -/
def Approximates (first second : Action S α) : Prop :=
  ∀ s, (first s).outcome ≠ .unfinished → second s = first s

namespace Approximates

theorem refl (action : Action S α) : action.Approximates action :=
  fun _ _ => rfl

/-- An action that is cut off at once says nothing about another. -/
theorem cutOff (action : Action S α) : Action.cutOff.Approximates action :=
  fun _ ended => absurd rfl ended

theorem bind {first second : Action S α} {next next' : α → Action S β}
    (heads : first.Approximates second) (tails : ∀ a, (next a).Approximates (next' a)) :
    (first >>= next).Approximates (second >>= next') := by
  intro s ended
  show second.bind next' s = first.bind next s
  have ended : (first.bind next s).outcome ≠ .unfinished := ended
  have agree := heads s
  simp only [Action.bind] at ended ⊢
  rcases runEq : first s with ⟨outcome, middle, log⟩
  rw [runEq] at ended agree
  cases outcome with
  | returned a =>
      rw [agree (by rintro ⟨⟩)]
      simp only at ended ⊢
      rw [tails a middle ended]
  | crashed text => rw [agree (by rintro ⟨⟩)]
  | unfinished => exact absurd rfl ended

theorem within {first second : Action T α} (agree : first.Approximates second) (look : S → T)
    (put : T → S → S) : (first.within look put).Approximates (second.within look put) := by
  intro s ended
  simp only [Action.within]
  rw [agree (look s) ended]

theorem onCrash {first second : Action S α} (agree : first.Approximates second) (repair : S → S) :
    (first.onCrash repair).Approximates (second.onCrash repair) := by
  intro s ended
  have firstEnded : (first s).outcome ≠ .unfinished := by
    intro unfinished
    apply ended
    simp only [Action.onCrash, unfinished]
  simp only [Action.onCrash]
  rw [agree s firstEnded]

/-- What comes to its end comes to it with more as well. -/
theorem ne_unfinished {first second : Action S α} (agree : first.Approximates second) {s : S}
    (ended : (first s).outcome ≠ .unfinished) : (second s).outcome ≠ .unfinished := by
  rw [agree s ended]
  exact ended

theorem returns {first second : Action S α} (agree : first.Approximates second) {s s' : S} {a : α}
    (returned : first.Returns s a s') : second.Returns s a s' := by
  unfold Returns
  rw [agree s returned.ne_unfinished]
  exact returned

end Approximates

end Action

open Courier.Action

namespace Progress

/-- A loop over messages is not changed by a larger budget, nor by larger budgets for the single
messages. -/
theorem drain_approximates
    {dispatch dispatch' : Message → Progress → Action S (Except DispatchError Progress)}
    (dispatched : ∀ m p, (dispatch m p).Approximates (dispatch' m p)) {budget larger : Nat}
    (le : budget ≤ larger) (p : Progress) :
    (drain dispatch budget p).Approximates (drain dispatch' larger p) := by
  induction budget generalizing larger p with
  | zero =>
      rcases p with ⟨queue, results⟩
      cases queue with
      | nil => cases larger <;> exact .refl _
      | cons m rest => exact .cutOff _
  | succ budget ih =>
      obtain ⟨larger, rfl⟩ := Nat.exists_eq_add_of_le' le
      rcases p with ⟨queue, results⟩
      cases queue with
      | nil => exact .refl _
      | cons m rest =>
          apply (dispatched m ⟨rest, results⟩).bind
          intro r
          cases r with
          | error e => exact .refl _
          | ok next => exact ih (Nat.le_add_left _ _) next

theorem batch_approximates {handle handle' : Message → Action S CallResult}
    (handled : ∀ m, (handle m).Approximates (handle' m)) (ms : List Message) :
    (batch handle ms).Approximates (batch handle' ms) := by
  induction ms with
  | nil => exact .refl _
  | cons m rest ih =>
      apply (handled m).bind
      intro r
      cases r with
      | error e => exact .refl _
      | ok results => exact ih.bind fun _ => .refl _

/-- A budget that suffices for every message of a loop. -/
theorem Drains.exists_budget
    {dispatch : Nat → Message → Progress → Action S (Except DispatchError Progress)}
    (grows : ∀ {budget larger}, budget ≤ larger → ∀ m p,
      (dispatch budget m p).Approximates (dispatch larger m p))
    {p : Progress} {s s' : S} {taken : List Message} {r : CallResult}
    (drained : Drains (fun m p s r s' => ∃ budget, (dispatch budget m p).Returns s r s') p s taken
      r s') :
    ∃ enough, ∀ budget, enough ≤ budget →
      Drains (fun m p => (dispatch budget m p).Returns) p s taken r s' := by
  induction drained with
  | emptied => exact ⟨0, fun _ _ => .emptied⟩
  | failed dispatched =>
      obtain ⟨enough, returned⟩ := dispatched
      exact ⟨enough, fun budget le => .failed ((grows le _ _).returns returned)⟩
  | took dispatched _ ih =>
      obtain ⟨first, returned⟩ := dispatched
      obtain ⟨others, drained⟩ := ih
      refine ⟨max first others, fun budget le => ?_⟩
      obtain ⟨firstLe, othersLe⟩ := Nat.max_le.mp le
      exact .took ((grows firstLe _ _).returns returned) (drained budget othersLe)

end Progress

end Courier
