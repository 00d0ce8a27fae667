import Courier.Action
import Mathlib.Tactic.Simproc.ExistsAndEq

/-!
# What actions return

An action that ends normally on a state returns one value and leaves one state.
Read this way, as a relation, an action has no log, and actions that follow each
other compose as relations do.  An action that crashes leaves a state as well.
-/

namespace Courier.Action

variable {S T α β : Type}

/-- The action ends normally on `s`, with `a`, and leaves `s'`. -/
def Returns (action : Action S α) (s : S) (a : α) (s' : S) : Prop :=
  (action s).outcome = .returned a ∧ (action s).state = s'

/-- An action returns one value and leaves one state. -/
theorem Returns.unique {action : Action S α} {s first second : S} {a b : α}
    (firstReturns : action.Returns s a first) (secondReturns : action.Returns s b second) :
    a = b ∧ first = second := by
  rcases firstReturns with ⟨firstOutcome, rfl⟩
  rcases secondReturns with ⟨secondOutcome, rfl⟩
  rw [firstOutcome] at secondOutcome
  exact ⟨Outcome.returned.inj secondOutcome, rfl⟩

/-- What an action returns, and what `look` shows of the state that it leaves,
depends on no more of the state than `look` shows. -/
def Respects (look : S → T) (action : Action S α) : Prop :=
  ∀ {s t a s'}, look s = look t → action.Returns s a s' →
    ∃ t', action.Returns t a t' ∧ look s' = look t'

@[simp]
theorem returns_pure_iff (a b : α) (s s' : S) :
    (pure a : Action S α).Returns s b s' ↔ a = b ∧ s = s' := by
  show (Outcome.returned a = .returned b ∧ s = s') ↔ _
  rw [Outcome.returned.injEq]

/-- What follows an action goes on from the value and the state it has left. -/
@[simp]
theorem returns_bind_iff (action : Action S α) (next : α → Action S β) (s s' : S) (b : β) :
    (action >>= next).Returns s b s' ↔
      ∃ a middle, action.Returns s a middle ∧ (next a).Returns middle b s' := by
  show ((action.bind next s).outcome = .returned b ∧ (action.bind next s).state = s') ↔ _
  simp only [Returns, bind]
  rcases action s with ⟨outcome, state, log⟩
  cases outcome with
  | returned a =>
      constructor
      · rintro ⟨outcomeEq, stateEq⟩
        exact ⟨a, state, ⟨rfl, rfl⟩, outcomeEq, stateEq⟩
      · rintro ⟨_, _, ⟨valueEq, rfl⟩, outcomeEq, stateEq⟩
        cases valueEq
        exact ⟨outcomeEq, stateEq⟩
  | crashed text => simp
  | unfinished => simp

theorem Respects.pure (look : S → T) (a : α) : (pure a : Action S α).Respects look := by
  intro s t b s' same returned
  rcases (returns_pure_iff a b s s').mp returned with ⟨rfl, rfl⟩
  exact ⟨t, (returns_pure_iff a a t t).mpr ⟨rfl, rfl⟩, same⟩

theorem Respects.bind {look : S → T} {action : Action S α} {next : α → Action S β}
    (first : action.Respects look) (second : ∀ a, (next a).Respects look) :
    (action >>= next).Respects look := by
  intro s t b s' same returned
  obtain ⟨a, middle, firstReturns, secondReturns⟩ :=
    (returns_bind_iff action next s s' b).mp returned
  obtain ⟨middle', firstReturns, sameMiddle⟩ := first same firstReturns
  obtain ⟨t', secondReturns, sameEnd⟩ := second a sameMiddle secondReturns
  exact ⟨t', (returns_bind_iff action next t t' b).mpr ⟨a, middle', firstReturns, secondReturns⟩,
    sameEnd⟩

@[simp]
theorem returns_get_iff (s s' result : S) :
    (get : Action S S).Returns s result s' ↔ s = result ∧ s = s' := by
  simp [Returns, get]

@[simp]
theorem returns_modify_iff (change : S → S) (s s' : S) (u : Unit) :
    (modify change).Returns s u s' ↔ change s = s' := by
  simp [Returns, modify]

@[simp]
theorem returns_tell_iff (lines : List LogLine) (s s' : S) (u : Unit) :
    (tell lines).Returns s u s' ↔ s = s' := by
  simp [Returns, tell]

@[simp]
theorem not_returns_cutOff (s s' : S) (a : α) : ¬ (cutOff : Action S α).Returns s a s' := by
  simp [Returns, cutOff]

/-- A part of the state is put back as the action has left it. -/
@[simp]
theorem returns_within_iff (look : S → T) (put : T → S → S) (action : Action T α) (s s' : S)
    (a : α) :
    (action.within look put).Returns s a s' ↔
      ∃ t, action.Returns (look s) a t ∧ put t s = s' := by
  constructor
  · rintro ⟨outcomeEq, stateEq⟩
    exact ⟨(action (look s)).state, ⟨outcomeEq, rfl⟩, stateEq⟩
  · rintro ⟨t, ⟨outcomeEq, rfl⟩, stateEq⟩
    exact ⟨outcomeEq, stateEq⟩

/-- What happens after a crash does not concern an action that returns. -/
@[simp]
theorem returns_onCrash_iff (action : Action S α) (repair : S → S) (s s' : S) (a : α) :
    (action.onCrash repair).Returns s a s' ↔ action.Returns s a s' := by
  simp only [Returns, onCrash]
  rcases action s with ⟨outcome, state, log⟩
  cases outcome <;> simp

/-- Where nothing crashes, an action that is run after another in any case just
follows it. -/
theorem returns_ensuring_iff (action : Action S α) (cleanup : Action S Unit) (s s' : S) (a : α) :
    (action.ensuring cleanup).Returns s a s' ↔
      ∃ middle, action.Returns s a middle ∧ cleanup.Returns middle () s' := by
  simp only [Returns, ensuring]
  rcases action s with ⟨outcome, state, log⟩
  cases outcome with
  | returned b =>
      rcases cleanupEq : cleanup state with ⟨cleanupOutcome, cleanupState, cleanupLog⟩
      cases cleanupOutcome <;> simp [cleanupEq]
  | crashed text =>
      rcases cleanup state with ⟨cleanupOutcome, cleanupState, cleanupLog⟩
      cases cleanupOutcome <;> simp
  | unfinished => simp

/-! ## Crashes -/

/-- The action crashes on `s` and leaves `s'`. -/
def Crashes (action : Action S α) (s : S) (text : String) (s' : S) : Prop :=
  (action s).outcome = .crashed text ∧ (action s).state = s'

/-- An action that returns does not crash. -/
theorem Returns.not_crashes {action : Action S α} {s s' s'' : S} {a : α} {text : String}
    (returned : action.Returns s a s') : ¬ action.Crashes s text s'' := by
  rintro ⟨outcomeEq, _⟩
  rw [returned.1] at outcomeEq
  contradiction

@[simp]
theorem not_crashes_pure (a : α) (s s' : S) (text : String) :
    ¬ (pure a : Action S α).Crashes s text s' := by
  rintro ⟨outcomeEq, _⟩
  contradiction

@[simp]
theorem not_crashes_modify (change : S → S) (s s' : S) (text : String) :
    ¬ (modify change).Crashes s text s' := by
  simp [Crashes, modify]

@[simp]
theorem not_crashes_tell (lines : List LogLine) (s s' : S) (text : String) :
    ¬ (tell lines).Crashes s text s' := by
  simp [Crashes, tell]

@[simp]
theorem not_crashes_cutOff (s s' : S) (text : String) :
    ¬ (cutOff : Action S α).Crashes s text s' := by
  simp [Crashes, cutOff]

/-- Of two actions that follow each other the first crashes, or it returns and the
second crashes. -/
@[simp]
theorem crashes_bind_iff (action : Action S α) (next : α → Action S β) (s s' : S)
    (text : String) :
    (action >>= next).Crashes s text s' ↔
      action.Crashes s text s' ∨
        ∃ a middle, action.Returns s a middle ∧ (next a).Crashes middle text s' := by
  show ((action.bind next s).outcome = .crashed text ∧ (action.bind next s).state = s') ↔ _
  simp only [Returns, Crashes, bind]
  rcases action s with ⟨outcome, state, log⟩
  cases outcome with
  | returned a =>
      constructor
      · rintro ⟨outcomeEq, stateEq⟩
        exact .inr ⟨a, state, ⟨rfl, rfl⟩, outcomeEq, stateEq⟩
      · rintro (⟨outcomeEq, _⟩ | ⟨_, _, ⟨valueEq, rfl⟩, outcomeEq, stateEq⟩)
        · contradiction
        · cases valueEq
          exact ⟨outcomeEq, stateEq⟩
  | crashed text => simp
  | unfinished => simp

@[simp]
theorem crashes_within_iff (look : S → T) (put : T → S → S) (action : Action T α) (s s' : S)
    (text : String) :
    (action.within look put).Crashes s text s' ↔
      ∃ t, action.Crashes (look s) text t ∧ put t s = s' := by
  constructor
  · rintro ⟨outcomeEq, stateEq⟩
    exact ⟨(action (look s)).state, ⟨outcomeEq, rfl⟩, stateEq⟩
  · rintro ⟨t, ⟨outcomeEq, rfl⟩, stateEq⟩
    exact ⟨outcomeEq, stateEq⟩

/-- The state that a crash has left is repaired. -/
@[simp]
theorem crashes_onCrash_iff (action : Action S α) (repair : S → S) (s s' : S) (text : String) :
    (action.onCrash repair).Crashes s text s' ↔
      ∃ t, action.Crashes s text t ∧ repair t = s' := by
  simp only [Crashes, onCrash]
  rcases action s with ⟨outcome, state, log⟩
  cases outcome <;> simp

/-- An action with a cleanup crashes in the cleanup, or it crashes before and the cleanup
returns. -/
theorem crashes_ensuring_iff (action : Action S α) (cleanup : Action S Unit) (s s' : S)
    (text : String) :
    (action.ensuring cleanup).Crashes s text s' ↔
      (∃ a middle, action.Returns s a middle ∧ cleanup.Crashes middle text s') ∨
        ∃ first middle, action.Crashes s first middle ∧
          (cleanup.Crashes middle text s' ∨ first = text ∧ cleanup.Returns middle () s') := by
  simp only [Returns, Crashes, ensuring]
  rcases action s with ⟨outcome, state, log⟩
  cases outcome with
  | returned b =>
      rcases cleanupEq : cleanup state with ⟨cleanupOutcome, cleanupState, cleanupLog⟩
      cases cleanupOutcome <;> simp [cleanupEq]
  | crashed first =>
      rcases cleanupEq : cleanup state with ⟨cleanupOutcome, cleanupState, cleanupLog⟩
      cases cleanupOutcome <;> simp [cleanupEq]
  | unfinished => simp

theorem pure_ne_unfinished (a : α) (s : S) :
    ((pure a : Action S α) s).outcome ≠ .unfinished := by
  rintro ⟨⟩

/-- An action is cut off in its first part or in what follows that. -/
theorem bind_ne_unfinished {action : Action S α} {next : α → Action S β} {s : S}
    (first : (action s).outcome ≠ .unfinished)
    (second : ∀ a s', action.Returns s a s' → (next a s').outcome ≠ .unfinished) :
    ((action >>= next) s).outcome ≠ .unfinished := by
  show (action.bind next s).outcome ≠ .unfinished
  simp only [Returns, bind] at second ⊢
  rcases runEq : action s with ⟨outcome, state, log⟩
  rw [runEq] at first second
  cases outcome with
  | returned a => exact second a state ⟨rfl, rfl⟩
  | crashed text => simp
  | unfinished => exact absurd rfl first

/-- An action that is not cut off returns or crashes. -/
theorem returns_or_crashes {action : Action S α} {s : S}
    (ended : (action s).outcome ≠ .unfinished) :
    (∃ a s', action.Returns s a s') ∨ ∃ text s', action.Crashes s text s' := by
  cases outcomeEq : (action s).outcome with
  | returned a => exact .inl ⟨a, _, outcomeEq, rfl⟩
  | crashed text => exact .inr ⟨text, _, outcomeEq, rfl⟩
  | unfinished => contradiction

/-! ## Parts of the state -/

/-- What `look` shows of a state is a part of it, which `put` replaces. -/
structure IsPart (look : S → T) (put : T → S → S) : Prop where
  look_put : ∀ t s, look (put t s) = t
  put_look : ∀ s, put (look s) s = s
  put_put : ∀ t t' s, put t' (put t s) = put t' s

/-- Actions that follow each other on a part of the state do so on the whole. -/
theorem IsPart.returns_within_bind_iff {look : S → T} {put : T → S → S} (part : IsPart look put)
    (action : Action T α) (next : α → Action T β) (s s' : S) (b : β) :
    ((action >>= next).within look put).Returns s b s' ↔
      ∃ a middle, (action.within look put).Returns s a middle ∧
        ((next a).within look put).Returns middle b s' := by
  simp only [returns_within_iff, returns_bind_iff]
  constructor
  · rintro ⟨t, ⟨a, between, first, second⟩, rfl⟩
    refine ⟨a, put between s, ⟨between, first, rfl⟩, t, ?_, part.put_put between t s⟩
    rw [part.look_put]
    exact second
  · rintro ⟨a, _, ⟨between, first, rfl⟩, t, second, rfl⟩
    rw [part.look_put] at second
    exact ⟨t, ⟨a, between, first, second⟩, (part.put_put between t s).symm⟩

theorem IsPart.returns_within_pure_iff {look : S → T} {put : T → S → S} (part : IsPart look put)
    (a b : α) (s s' : S) :
    ((pure a : Action T α).within look put).Returns s b s' ↔ a = b ∧ s = s' := by
  simp only [returns_within_iff, returns_pure_iff]
  constructor
  · rintro ⟨_, ⟨rfl, rfl⟩, rfl⟩
    exact ⟨rfl, (part.put_look s).symm⟩
  · rintro ⟨rfl, rfl⟩
    exact ⟨look s, ⟨rfl, rfl⟩, part.put_look s⟩

/-! ## Budgets -/

/-- With any budget that is large enough the action returns `a` and leaves `s'`. -/
def Settles (action : Nat → Action S α) (s : S) (a : α) (s' : S) : Prop :=
  ∃ enough, ∀ budget, enough ≤ budget → (action budget).Returns s a s'

theorem Returns.settles {action : Action S α} {s s' : S} {a : α}
    (returned : action.Returns s a s') : Settles (fun _ => action) s a s' :=
  ⟨0, fun _ _ => returned⟩

theorem settles_pure (a : α) (s : S) : Settles (fun _ => (pure a : Action S α)) s a s :=
  ((returns_pure_iff a a s s).mpr ⟨rfl, rfl⟩).settles

theorem settles_tell (lines : List LogLine) (s : S) :
    Settles (fun _ => (tell lines : Action S Unit)) s () s :=
  ((returns_tell_iff lines s s ()).mpr rfl).settles

/-- A budget that is large enough for both parts is large enough for the whole. -/
theorem Settles.bind {action : Nat → Action S α} {next : Nat → α → Action S β}
    {s middle s' : S} {a : α} {b : β} (first : Settles action s a middle)
    (second : Settles (fun budget => next budget a) middle b s') :
    Settles (fun budget => action budget >>= next budget) s b s' := by
  rcases first with ⟨enough, firstReturns⟩
  rcases second with ⟨enoughThen, secondReturns⟩
  refine ⟨max enough enoughThen, fun budget le => ?_⟩
  rw [returns_bind_iff]
  exact ⟨a, middle, firstReturns budget (Nat.le_trans (Nat.le_max_left _ _) le),
    secondReturns budget (Nat.le_trans (Nat.le_max_right _ _) le)⟩

theorem Settles.within {action : Nat → Action T α} {look : S → T} (put : T → S → S) {s : S} {t : T}
    {a : α} (settles : Settles action (look s) a t) :
    Settles (fun budget => (action budget).within look put) s a (put t s) := by
  rcases settles with ⟨enough, returned⟩
  exact ⟨enough, fun budget le =>
    (returns_within_iff look put _ s _ a).mpr ⟨t, returned budget le, rfl⟩⟩

end Courier.Action
